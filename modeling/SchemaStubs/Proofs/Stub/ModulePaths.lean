import SchemaStubs.Proofs.Files.Path
import SchemaStubs.Proofs.Stub.Preparation
import SchemaStubs.Proofs.Text.Joined

/-!
Which module an import statement names, and where the stub of that module stands. The dots and the
names after them give back the directories and the name of the imported module, so two files are
imported from one module only if they have one module path; below the output directory the same
directories lead to the stub. A run gives the requested files paths of their own; a file that is only
imported may have the path of any other.
-/

namespace SchemaStubs.Stub

namespace Location

/-- Where the module of a file stands: the directories and the name of the module. -/
def modulePath (suffix file : String) : List String × String :=
  (directories file, moduleName suffix file)

structure Segment (text : String) : Prop where
  present : text.toList ≠ []
  undotted : '.' ∉ text.toList

theorem segment_identifier {text : String} (present : text ≠ "") : Segment (Text.identifier text) := by
  refine ⟨?_, Text.not_mem_identifier (by decide) text⟩
  rcases spelled : text.toList with _ | ⟨first, rest⟩
  · exact absurd (String.toList_eq_nil_iff.mp spelled) present
  · unfold Text.identifier Text.identifierChars
    rw [spelled]
    dsimp only
    split <;> simp

theorem base_present (path : String) : Files.Path.base path ≠ "" := by
  unfold Files.Path.base
  split
  · decide
  · dsimp only
    split
    · decide
    · rename_i present
      intro empty
      rw [String.ofList_eq_empty_iff, List.reverse_eq_nil_iff] at empty
      rw [empty] at present
      exact present rfl

/-- An ending is shorter than the text unless it is all of it. -/
theorem drop_end_present {ending text : String} (present : text ≠ "") (proper : ending ≠ text) :
    Text.dropEnd ending text ≠ "" := by
  unfold Text.dropEnd
  split
  · rename_i ends
    have suffix : ending.toList <:+ text.toList := List.isSuffixOf_iff_suffix.mp ends
    intro empty
    rw [String.ofList_eq_empty_iff, List.take_eq_nil_iff] at empty
    rcases empty with long | none
    · have whole := suffix.eq_of_length_le (by omega)
      exact proper (String.toList_inj.mp whole)
    · exact present (String.toList_eq_nil_iff.mp none)
  · exact present

theorem stem_present (file : String) : stem file ≠ "" := by
  unfold stem
  dsimp only
  split
  · rename_i extended
    simp only [Bool.and_eq_true, bne_iff_ne] at extended
    exact drop_end_present (base_present _) extended.2
  · exact base_present _

theorem segment_stem (file : String) : Segment (Text.identifier (stem file)) :=
  segment_identifier (stem_present file)

theorem segment_directory {file part : String} (listed : part ∈ directories file) : Segment part := by
  obtain ⟨name, kept, rfl⟩ := List.mem_map.mp listed
  have proper := (List.mem_filter.mp kept).2
  simp only [Bool.and_eq_true, bne_iff_ne] at proper
  exact segment_identifier proper.1.1

theorem output_path_of_module_path {suffix one two : String}
    (same : modulePath suffix one = modulePath suffix two) :
    outputPath suffix one = outputPath suffix two := by
  obtain ⟨directoriesSame, namesSame⟩ := Prod.mk.inj same
  unfold moduleName at namesSame
  rw [String.append_left_inj] at namesSame
  rw [outputPath, outputPath, directoriesSame, namesSame]

theorem split_common_shared (ones twos : List String) :
    ∃ shared, ones = shared ++ (splitCommon ones twos).1 ∧ twos = shared ++ (splitCommon ones twos).2 := by
  induction ones, twos using splitCommon.induct with
  | case1 firsts first seconds induction =>
      obtain ⟨shared, one, two⟩ := induction
      refine ⟨first :: shared, ?_, ?_⟩
      · rw [splitCommon, if_pos rfl, List.cons_append, ← one]
      · rw [splitCommon, if_pos rfl, List.cons_append, ← two]
  | case2 first firsts second seconds apart =>
      refine ⟨[], ?_, ?_⟩ <;> rw [splitCommon, if_neg apart, List.nil_append]
  | case3 firsts seconds ended =>
      refine ⟨[], ?_, ?_⟩ <;> rw [splitCommon, List.nil_append] <;> exact ended

theorem join_with_inj {ones twos : List String} (segmentsOne : ∀ text ∈ ones, Segment text)
    (segmentsTwo : ∀ text ∈ twos, Segment text) (oneListed : ones ≠ []) (twoListed : twos ≠ [])
    (same : ([ '.' ] : List Char).intercalate (ones.map String.toList) =
      [ '.' ].intercalate (twos.map String.toList)) : ones = twos := by
  have undotted : ∀ {texts : List String}, (∀ text ∈ texts, Segment text) →
      ∀ chars ∈ texts.map String.toList, '.' ∉ chars := by
    intro texts segments chars listed
    obtain ⟨text, member, rfl⟩ := List.mem_map.mp listed
    exact (segments text member).undotted
  have split := congrArg (List.splitOn '.') same
  rw [List.splitOn_intercalate '.' (undotted segmentsOne) (by simpa using oneListed),
    List.splitOn_intercalate '.' (undotted segmentsTwo) (by simpa using twoListed)] at split
  exact List.map_injective_iff.mpr (fun _ _ => String.toList_inj.mp) split

theorem dots_inj {one two : Nat} {front back : List Char} (frontBegins : front.head? ≠ some '.')
    (backBegins : back.head? ≠ some '.')
    (same : List.replicate one '.' ++ front = List.replicate two '.' ++ back) :
    one = two ∧ front = back := by
  induction one generalizing two with
  | zero =>
      cases two with
      | zero => exact ⟨rfl, same⟩
      | succ two =>
          rw [List.replicate_zero, List.nil_append] at same
          rw [same] at frontBegins
          exact absurd rfl frontBegins
  | succ one induction =>
      cases two with
      | zero =>
          rw [List.replicate_zero, List.nil_append] at same
          rw [← same] at backBegins
          exact absurd rfl backBegins
      | succ two =>
          rw [List.replicate_succ, List.replicate_succ, List.cons_append, List.cons_append,
            List.cons.injEq] at same
          obtain ⟨rfl, rest⟩ := induction same.2
          exact ⟨rfl, rest⟩

theorem head?_intercalate {texts : List String} (segments : ∀ text ∈ texts, Segment text) :
    ([ '.' ].intercalate (texts.map String.toList)).head? ≠ some '.' := by
  rcases texts with _ | ⟨first, rest⟩
  · simp
  · obtain ⟨present, undotted⟩ := segments first List.mem_cons_self
    rcases spelled : first.toList with _ | ⟨c, chars⟩
    · exact absurd spelled present
    · have begins : ([ '.' ].intercalate ((first :: rest).map String.toList)).head? = some c := by
        cases rest <;> simp [spelled]
      rw [begins]
      intro dotted
      rw [spelled, Option.some.inj dotted] at undotted
      exact undotted List.mem_cons_self

/-- The text of an import: the dots, the segments, and the ending all modules of a run share. -/
theorem relative_module_eq (suffix source target : String) :
    ∃ shared up down, directories source = shared ++ up ∧ directories target = shared ++ down ∧
      relativeModule suffix source target =
        String.ofList (List.replicate (1 + up.length) '.' ++
          [ '.' ].intercalate ((down ++ [Text.identifier (stem target)]).map String.toList)) ++
        Text.dropEnd ".pyi" suffix := by
  obtain ⟨shared, sourceParts, targetParts⟩ :=
    split_common_shared (directories source) (directories target)
  refine ⟨shared, _, _, sourceParts, targetParts, ?_⟩
  unfold relativeModule moduleName
  dsimp only
  rw [Text.join_with_append_last, ← String.append_assoc, String.append_left_inj, ← String.toList_inj,
    String.toList_append, String.toList_ofList, String.toList_ofList, Text.toList_join_with]
  rfl

theorem segments_below {file : String} {shared down : List String}
    (parts : directories file = shared ++ down) :
    ∀ text ∈ down ++ [Text.identifier (stem file)], Segment text := by
  intro text listed
  rcases List.mem_append.mp listed with inDown | last
  · exact segment_directory (parts ▸ List.mem_append_right _ inDown)
  · rw [List.mem_singleton.mp last]
    exact segment_stem file

theorem module_path_of_relative_module {suffix source one two : String}
    (same : relativeModule suffix source one = relativeModule suffix source two) :
    modulePath suffix one = modulePath suffix two := by
  obtain ⟨sharedOne, upOne, downOne, sourceOne, targetOne, spelledOne⟩ :=
    relative_module_eq suffix source one
  obtain ⟨sharedTwo, upTwo, downTwo, sourceTwo, targetTwo, spelledTwo⟩ :=
    relative_module_eq suffix source two
  have segmentsOne := segments_below targetOne
  have segmentsTwo := segments_below targetTwo
  rw [spelledOne, spelledTwo, String.append_left_inj, String.ofList_inj] at same
  obtain ⟨dots, names⟩ := dots_inj (head?_intercalate segmentsOne) (head?_intercalate segmentsTwo) same
  have parts := join_with_inj segmentsOne segmentsTwo (by simp) (by simp) names
  obtain ⟨down, stems⟩ := List.append_inj' parts (by simp)
  obtain ⟨shared, _⟩ := List.append_inj' (sourceOne.symm.trans sourceTwo) (by omega)
  have stem := (List.cons.inj stems).1
  unfold modulePath moduleName
  rw [targetOne, targetTwo, shared, down, stem]

end Location

open Generation

/-- The draft of the stub of a file all of whose imports are for nodes of other files. -/
structure Outgoing (plan : Plan) (file : Node) (draft : Draft) : Prop where
  ofFile : draft.file = file
  resolved : draft.registry.resolved = true
  elsewhere : ∀ entry ∈ draft.imports, ∃ reference,
    plan.references.get? entry.owner = some reference ∧ reference.file ≠ file.id

theorem outgoing_frame {plan : Plan} (located : plan.Located) (file : Node) :
    Frame plan (Outgoing plan file) where
  targets target reference known := (located target reference known).1
  markReferenced _ _ outgoing := { outgoing with }
  anyPointer _ outgoing := { outgoing with }
  importAliases target reference declaring roles draft known _ apart outgoing := by
    rw [outgoing.ofFile] at apart
    refine import_aliases_keeps (fun _ outgoing => outgoing.resolved)
      (fun _ _ outgoing _ => { outgoing with }) ?_ roles draft outgoing
    intro draft names role name outgoing _ _
    refine { outgoing with elsewhere := fun entry member => ?_ }
    rcases mem_add member with rfl | earlier
    · exact ⟨reference, known, apart⟩
    · exact outgoing.elsewhere entry earlier
  note _ _ outgoing := { outgoing with }
  markDeclared _ _ outgoing := { outgoing with }
  bind _ _ := bind_keeps fun _ _ _ outgoing => { outgoing with }
  getAlias := get_alias_keeps fun _ outgoing => outgoing.resolved

/-- An import of a drafted stub names the module of another file, the one that declares the node it is
for. -/
theorem Composed.imports_elsewhere {plan : Plan} {registry : Registry} (located : plan.Located)
    {drafted : Drafted} {draft : Draft} (composed : Composed plan registry drafted draft) {entry : Import}
    (listed : entry ∈ drafted.imports) :
    ∃ declaring, plan.graph.file entry.owner = .ok declaring ∧ declaring.id ≠ drafted.file.id ∧
      entry.fromModule =
        Location.relativeModule plan.options.suffix drafted.file.name declaring.name := by
  obtain ⟨current, standing, composes⟩ := composed.composes
  rw [composed.imports] at listed
  have drafting := ((drafting_frame located).compose drafted.file).returns composes
    ⟨rfl, standing.resolved, rfl, by simp⟩
  have outgoing := ((outgoing_frame located drafted.file).compose drafted.file).returns composes
    ⟨rfl, standing.resolved, by simp⟩
  obtain ⟨declaring, inFile, fromModule, _⟩ := drafting.imports entry listed
  obtain ⟨reference, known, apart⟩ := outgoing.elsewhere entry listed
  obtain ⟨_, file, sameFile, place⟩ := located entry.owner reference known
  rw [inFile] at sameFile
  cases sameFile
  exact ⟨declaring, inFile, place ▸ apart, fromModule⟩

theorem Completed.delivery {options : Options} {graph : Graph} {output : Output} {plan : Plan}
    {resolved registry : Registry} {drafts : List Drafted}
    (completed : Completed options graph output plan resolved drafts registry) :
    ∃ planned settled, planned.options = options ∧
      Delivery planned settled graph.requested.eraseDups drafts registry := by
  obtain ⟨walk, _, _, again, surveys, asks, resolves, delivers⟩ := draft_all_returns completed.returns
  have prepared := prepared_of_returns options surveys asks resolves
  exact ⟨_, again, rfl, .of_returns prepared.plan_located prepared.resolved delivers⟩

theorem Completed.paths {options : Options} {graph : Graph} {output : Output} {plan : Plan}
    {resolved registry : Registry} {drafts : List Drafted}
    (completed : Completed options graph output plan resolved drafts registry) :
    (drafts.map fun drafted => Location.outputPath options.suffix drafted.file.name).Nodup := by
  obtain ⟨planned, settled, rfl, delivery⟩ := completed.delivery
  have same : drafts.map (fun drafted => Location.outputPath planned.options.suffix drafted.file.name) =
      drafts.map fun drafted => drafted.stub.path :=
    List.map_congr_left fun drafted member => (delivery.each drafted member).path.symm
  rw [same]
  exact delivery.paths

theorem Completed.module_path_ne {options : Options} {graph : Graph} {output : Output} {plan : Plan}
    {resolved registry : Registry} {drafts : List Drafted}
    (completed : Completed options graph output plan resolved drafts registry) {one two : Id}
    (oneAsked : one ∈ graph.requested) (twoAsked : two ∈ graph.requested) {first second : Node}
    (inFirst : graph.file one = .ok first) (inSecond : graph.file two = .ok second)
    (apart : first.id ≠ second.id) :
    Location.modulePath options.suffix first.name ≠ Location.modulePath options.suffix second.name := by
  obtain ⟨one, inOne, rfl⟩ := completed.drafted_of_mem oneAsked inFirst
  obtain ⟨two, inTwo, rfl⟩ := completed.drafted_of_mem twoAsked inSecond
  intro same
  have whole := List.inj_on_of_nodup_map completed.paths inOne inTwo
    (Location.output_path_of_module_path same)
  exact apart (congrArg (fun drafted => drafted.file.id) whole)

/-- Two requested files of a run have different module paths. So a stub imports from its own module, or
from one module for two files, only when a file that it imports from is not requested. -/
theorem module_paths_distinct {options : Options} {entries : List (Option Node)}
    {requested : List Id} {graph : Graph} (built : Graph.build entries requested = .ok graph)
    {output : Output} (ran : (generate options graph).1 = .ok output) :
    ∃ plan resolved drafts registry, Completed options graph output plan resolved drafts registry ∧
      (∀ one ∈ graph.nodes, ∀ two ∈ graph.nodes, one.id ∈ requested → two.id ∈ requested →
        one.id ≠ two.id →
        Location.modulePath options.suffix one.name ≠ Location.modulePath options.suffix two.name) ∧
      ∀ drafted ∈ drafts, ∀ entry ∈ drafted.imports,
        ∃ declaring, graph.file entry.owner = .ok declaring ∧ declaring.id ≠ drafted.file.id ∧
          entry.fromModule =
            Location.relativeModule options.suffix drafted.file.name declaring.name ∧
          (declaring.id ∈ requested →
            entry.fromModule ≠
              Location.relativeModule options.suffix drafted.file.name drafted.file.name ∧
            ∀ other ∈ drafted.imports, other.fromModule = entry.fromModule →
              ∀ file, graph.file other.owner = .ok file → file.id ∈ requested →
                file = declaring) := by
  obtain ⟨plan, resolved, drafts, registry, completed⟩ := completed_of_generate built ran
  obtain ⟨asked, prepared⟩ := completed.prepared
  obtain ⟨_, _, _, rfl⟩ := completed.surveys
  have asks := (Graph.build_ok built).2.1
  have own : ∀ {file : Node}, graph.node? file.id = some file → file.id ∈ requested →
      graph.file file.id = .ok file := fun found inRequested =>
    Graph.file_of_requested built found inRequested
  have apart : ∀ {one two : Node}, graph.node? one.id = some one → graph.node? two.id = some two →
      one.id ∈ requested → two.id ∈ requested → one.id ≠ two.id →
      Location.modulePath options.suffix one.name ≠ Location.modulePath options.suffix two.name := by
    intro one two oneFound twoFound oneAsked twoAsked different
    exact completed.module_path_ne (asks ▸ oneAsked) (asks ▸ twoAsked) (own oneFound oneAsked)
      (own twoFound twoAsked) different
  refine ⟨_, resolved, drafts, registry, completed, ?_, fun drafted member entry listed => ?_⟩
  · intro one inOne two inTwo
    have once := Graph.build_distinct built
    exact apart (Graph.node?_of_mem once inOne) (Graph.node?_of_mem once inTwo)
  obtain ⟨draft, composed⟩ := completed.composed drafted member
  obtain ⟨declaring, inFile, different, fromModule⟩ :=
    composed.imports_elsewhere prepared.plan_located listed
  have found := Graph.node?_of_file inFile
  have drafting := Graph.node?_of_file composed.inFile
  refine ⟨declaring, inFile, different, fromModule, fun inRequested => ⟨fun ownModule => ?_, ?_⟩⟩
  · rw [fromModule] at ownModule
    exact apart found drafting inRequested (asks ▸ composed.requested) different
      (Location.module_path_of_relative_module ownModule)
  · intro other alsoListed alike file otherFile otherRequested
    obtain ⟨otherDeclaring, otherInFile, _, otherModule⟩ :=
      composed.imports_elsewhere prepared.plan_located alsoListed
    rw [otherFile] at otherInFile
    cases otherInFile
    rw [otherModule, fromModule] at alike
    have otherFound := Graph.node?_of_file otherFile
    by_contra unequal
    refine apart otherFound found otherRequested inRequested (fun same => unequal ?_)
      (Location.module_path_of_relative_module alike)
    rw [same, found] at otherFound
    exact (Option.some.inj otherFound).symm

def mint (name : String) : Node :=
  { id := 3, kind := .file, name, displayName := name, nested := [4] }

def mints (one two : String) (requested : List Id) : Graph where
  nodes := [
    { id := 1, kind := .file, name := one, displayName := one, nested := [2] },
    { id := 2, kind := .const, name := "unit", displayName := "unit", scope := 1,
      constType := some { kind := .enum, target := 4 } },
    mint two,
    { id := 4, kind := .enum, name := "Coin", displayName := "Coin", scope := 3,
      enumerants := ["cent"] }]
  requested

theorem mints_file (one two : String) (requested : List Id) :
    (mints one two requested).file 4 = .ok (mint two) :=
  rfl

theorem module_paths_distinct_mints :
    ∃ output plan resolved drafts registry,
      (generate {} (mints "a" "b" [1, 3])).1 = .ok output ∧
      Completed {} (mints "a" "b" [1, 3]) output plan resolved drafts registry ∧
      ∃ drafted ∈ drafts, ∃ entry ∈ drafted.imports, entry.owner = 4 ∧
        entry.fromModule ≠
          Location.relativeModule defaultSuffix drafted.file.name drafted.file.name := by
  have built : Graph.build ((mints "a" "b" []).nodes.map some) [1, 3] =
      .ok (mints "a" "b" [1, 3]) := rfl
  obtain ⟨output, ran⟩ := except_ok_of_isOk
    (show (generate {} (mints "a" "b" [1, 3])).1.isOk = true by decide +kernel)
  obtain ⟨plan, resolved, drafts, registry, completed, _, each⟩ := module_paths_distinct built ran
  obtain ⟨drafted, member, listed⟩ := drafted_of_imports completed.returns
    (show _ = some [⟨".b_capnp", "CoinEnum", "CoinEnum", 4⟩] by decide +kernel)
  obtain ⟨declaring, inFile, _, _, later⟩ := each drafted member _ listed
  rw [mints_file] at inFile
  cases inFile
  exact ⟨output, plan, resolved, drafts, registry, ran, completed, drafted, member, _, listed, rfl,
    (later (by decide)).1⟩

/-- A file that is not asked for may have the module of the stub that imports from it. -/
theorem stub_imports_itself :
    ∃ graph output plan resolved drafts registry,
      Graph.build (graph.nodes.map some) graph.requested = .ok graph ∧
      (generate {} graph).1 = .ok output ∧ Completed {} graph output plan resolved drafts registry ∧
      ∃ drafted ∈ drafts, ∃ entry ∈ drafted.imports,
        (∃ declaring, graph.file entry.owner = .ok declaring ∧ declaring.id ≠ drafted.file.id) ∧
        entry.fromModule =
          Location.relativeModule defaultSuffix drafted.file.name drafted.file.name := by
  have built : Graph.build ((mints "a-b" "a_b" []).nodes.map some) [1] =
      .ok (mints "a-b" "a_b" [1]) := rfl
  obtain ⟨output, ran⟩ := except_ok_of_isOk
    (show (generate {} (mints "a-b" "a_b" [1])).1.isOk = true by decide +kernel)
  obtain ⟨plan, resolved, drafts, registry, completed⟩ := completed_of_generate built ran
  obtain ⟨drafted, member, listed⟩ := drafted_of_imports completed.returns
    (show _ = some [⟨".a_b_capnp", "CoinEnum", "CoinEnum", 4⟩] by decide +kernel)
  have inFile : Except.ok drafted.file ∈ ([1] : List Id).map (mints "a-b" "a_b" [1]).file := by
    have sources := completed.sources
    rw [show (mints "a-b" "a_b" [1]).requested.eraseDups = [1] from rfl] at sources
    rw [← sources]
    exact List.mem_map.mpr ⟨drafted, member, rfl⟩
  obtain ⟨file, isFile⟩ : ∃ file : Node, (mints "a-b" "a_b" [1]).file 1 = .ok file ∧
      file.id = 1 ∧ file.name = "a-b" := ⟨_, rfl, rfl, rfl⟩
  rw [List.map_singleton, List.mem_singleton, isFile.1] at inFile
  cases inFile
  refine ⟨_, output, plan, resolved, drafts, registry, built, ran, completed, drafted, member, _, listed,
    ⟨mint "a_b", mints_file _ _ _, ?_⟩, ?_⟩
  · rw [isFile.2.1]
    decide
  · rw [isFile.2.2]
    decide +kernel

open Files.Path (IsName)

namespace Location

def outputNames (suffix file : String) : List String :=
  directories file ++ [Text.identifier (stem file) ++ suffix]

theorem Segment.isName {text : String} (segment : Segment text) {ending : String}
    (single : '/' ∉ (text ++ ending).toList) : IsName (text ++ ending) := by
  obtain ⟨first, rest, spelled⟩ := List.exists_cons_of_ne_nil segment.present
  have whole : (text ++ ending).toList = first :: (rest ++ ending.toList) := by
    rw [String.toList_append, spelled, List.cons_append]
  have undotted : first ≠ '.' := by
    rintro rfl
    apply segment.undotted
    rw [spelled]
    exact List.mem_cons_self
  refine ⟨?_, ?_, ?_, single⟩
  · intro empty
    rw [empty] at whole
    cases whole
  · intro here
    rw [here] at whole
    exact undotted (List.cons.inj whole).1.symm
  · intro up
    rw [up] at whole
    exact undotted (List.cons.inj whole).1.symm

variable {suffix : String}

theorem output_names_some (suffix file : String) : outputNames suffix file ≠ [] :=
  List.append_ne_nil_of_right_ne_nil _ (List.cons_ne_nil _ _)

theorem output_names_proper (single : '/' ∉ suffix.toList) (file : String) :
    ∀ name ∈ outputNames suffix file, IsName name := by
  have slashless : ∀ text : String, '/' ∉ (Text.identifier text).toList :=
    Text.not_mem_identifier (by decide)
  unfold outputNames
  rw [List.forall_mem_append, List.forall_mem_singleton]
  constructor
  · intro name listed
    have segment := segment_directory listed
    obtain ⟨part, _, rfl⟩ := List.mem_map.mp listed
    have whole : '/' ∉ (Text.identifier part ++ "").toList := by
      rw [String.append_empty]
      exact slashless part
    have named := segment.isName whole
    rwa [String.append_empty] at named
  · apply (segment_stem file).isName
    rw [String.toList_append, List.mem_append, not_or]
    exact ⟨slashless _, single⟩

theorem output_path_eq (single : '/' ∉ suffix.toList) (file : String) :
    outputPath suffix file = Text.joinWith "/" (outputNames suffix file) :=
  Files.Path.join_of_names (output_names_some suffix file) (output_names_proper single file)

end Location

variable {options : Options} {graph : Graph} {output : Output} {plan : Plan}
  {resolved registry : Registry} {drafts : List Drafted}

theorem Completed.file_paths (completed : Completed options graph output plan resolved drafts registry) :
    (output.files.map StubFile.path).Nodup ∧
      ∀ file ∈ output.files, ∃ source, file.path = Location.outputPath options.suffix source := by
  obtain ⟨planned, settled, rfl, delivery⟩ := completed.delivery
  rw [completed.files]
  constructor
  · rw [List.map_map]
    exact delivery.paths
  · intro file listed
    obtain ⟨drafted, member, rfl⟩ := List.mem_map.mp listed
    exact ⟨_, (delivery.each drafted member).path⟩

theorem Completed.files_some (completed : Completed options graph output plan resolved drafts registry)
    (asked : graph.requested ≠ []) : output.files ≠ [] := by
  intro none
  rw [completed.files, List.map_eq_nil_iff] at none
  have sources := completed.sources
  rw [none, List.map_nil] at sources
  obtain ⟨id, member⟩ := List.exists_mem_of_ne_nil _ asked
  have kept := List.mem_eraseDups.mpr member
  rw [List.map_eq_nil_iff.mp sources.symm] at kept
  cases kept

end SchemaStubs.Stub
