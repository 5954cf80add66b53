import SchemaStubs.Proofs.Stub.Course

/-!
Separate compilation. Two runs over one schema may be asked for different files; a file that takes
part in both has the same aliases in both, so that what a stub of one run imports is declared by the
stub that another run made.
-/

namespace SchemaStubs.Stub

open Generation

def published (source : String) (entry : Alias) : PublicName :=
  { name := entry.name
    target := entry.target
    role := entry.role
    node := entry.subject.node
    source }

/-- The import takes this alias of the registry, the only one of its name in the declaring file: it is
that of the imported node in one of its roles, and it stands for the view of the node in that role. -/
structure Import.Takes (graph : Graph) (registry : Registry) (entry : Import) (declaring : Node)
    (exposed : Alias) : Prop where
  inFile : graph.file entry.owner = .ok declaring
  assigned : exposed ∈ registry.table
  file : exposed.file = declaring.id
  name : exposed.name = entry.name
  only : ∀ other ∈ registry.table, other.file = declaring.id → other.name = entry.name →
    other = exposed
  subject : exposed.subject = { node := entry.owner }
  view : ∃ node internal, graph.node? entry.owner = some node ∧ graph.Identifies node internal ∧
    (aliasTargets graph node internal).lookup exposed.role = some exposed.target

/-- The text of the stub ends with the lines of some aliases, and this is one of them. -/
def Declares (options : Options) (stub : StubFile) (exposed : Alias) : Prop :=
  ∃ statements declarations aliases, exposed ∈ aliases ∧
    stub.content = renderLines
      (fileLines options stub.source statements (bodyLines declarations aliases)) ∧
    ⟨0, exposed.name ++ ": TypeAlias = " ++ exposed.target⟩ ∈
      fileLines options stub.source statements (bodyLines declarations aliases)

theorem mem_file_lines (options : Options) (file : String) (statements : ImportSection)
    (declarations : List Declaration) {aliases : List Alias} {exposed : Alias}
    (member : exposed ∈ aliases) :
    ⟨0, exposed.name ++ ": TypeAlias = " ++ exposed.target⟩ ∈
      fileLines options file statements (bodyLines declarations aliases) := by
  have afterBlank_mem : ∀ {line : Line} {lines : List Line}, line ∈ lines →
      line ∈ afterBlank lines := by
    intro line lines listed
    unfold afterBlank
    split
    · rename_i none
      simp [List.isEmpty_iff.mp none] at listed
    · exact List.mem_cons_of_mem _ listed
  have listed : ⟨0, exposed.name ++ ": TypeAlias = " ++ exposed.target⟩ ∈
      aliases.flatMap fun entry => (Declaration.typeAlias entry.name entry.target).lines 0 :=
    List.mem_flatMap.mpr ⟨exposed, member, by simp [Declaration.lines]⟩
  refine List.mem_append_right _ (afterBlank_mem ?_)
  unfold bodyLines
  dsimp only
  split
  · exact listed
  · exact List.mem_append_right _ (afterBlank_mem listed)

namespace Course

variable {plan : Plan} {asked resolved reached : Registry} {drafts : List Drafted}

/-- What a run publishes for a file are the aliases of that file by name. -/
theorem public_names_of_file (course : Course plan asked resolved drafts reached)
    {drafted : Drafted} (member : drafted ∈ drafts) :
    (publicNames reached drafts).filter (fun name => name.source == drafted.file.name) =
      (sortBy Alias.listedBefore (resolved.aliasesIn drafted.file.id)).map
        (published drafted.file.name) := by
  unfold publicNames Registry.table Registry.aliasesIn
  rw [course.delivery.aliases, ← Lists.filter_sort_by Alias.listed_before_trans
    Alias.listed_before_total, List.filter_filterMap, ← List.filterMap_eq_filter,
    List.map_filterMap]
  refine List.filterMap_congr fun entry _ => ?_
  cases found : drafts.find? (fun other => other.file.id == entry.file) with
  | none =>
      have apart : drafted.file.id ≠ entry.file := by
        simpa using List.find?_eq_none.mp found drafted member
      simp [Option.guard, Ne.symm apart]
  | some other =>
      have listed := List.mem_of_find?_eq_some found
      have same : other.file.id = entry.file := by simpa using List.find?_some found
      by_cases here : entry.file = drafted.file.id
      · have alike : other.file = drafted.file := by
          have one := course.delivery.file_found listed
          rw [same, here, course.delivery.file_found member] at one
          exact (Option.some.inj one).symm
        simp [Option.guard, here, alike, published]
      · have apart : other.file.name ≠ drafted.file.name := fun named =>
          here (same ▸ course.delivery.eq_of_name listed member named ▸ rfl)
        simp [Option.guard, here, apart]

/-- An alias of a node itself stands for a view of that node and belongs to its file, which was
asked. -/
theorem origin (course : Course plan asked resolved drafts reached) {exposed : Alias}
    (member : exposed ∈ resolved.aliases) {id : Id} (subject : exposed.subject = { node := id }) :
    ∃ node internal declaring, plan.graph.node? id = some node ∧
      plan.graph.Identifies node internal ∧
      (aliasTargets plan.graph node internal).lookup exposed.role = some exposed.target ∧
      plan.graph.file id = .ok declaring ∧ exposed.file = declaring.id ∧
      declaring ∈ declaringFiles plan.graph plan.order := by
  obtain ⟨node, internal, declaring, found, identified, target, inFile, ofFile, wish, wished, same⟩ :=
    course.inquiry.toWished.origin course.resolves course.coherent member subject
  refine ⟨node, internal, declaring, found, identified, target, inFile, ofFile, ?_⟩
  by_contra absent
  have unmet : declaring.id ∉ (declaringFiles plan.graph plan.order).map Node.id := by
    intro listed
    obtain ⟨file, fileMember, sameId⟩ := List.mem_map.mp listed
    obtain ⟨_, _, ofNode⟩ := mem_declaring_files_iff.mp fileMember
    have known := Graph.node?_of_file ofNode
    rw [sameId, Graph.node?_of_file inFile] at known
    exact absent (Option.some.inj known ▸ fileMember)
  have nothing := (course.inquiry.silent declaring.id unmet).1
  have something : wish ∈ asked.requestsIn declaring.id :=
    List.mem_filter.mpr ⟨wished, by simp [same]⟩
  rw [nothing] at something
  cases something

theorem takes (course : Course plan asked resolved drafts reached) {drafted : Drafted}
    (member : drafted ∈ drafts) {entry : Import} (imported : entry ∈ drafted.imports) :
    ∃ declaring exposed, entry.Takes plan.graph reached declaring exposed ∧
      entry.fromModule =
        Location.relativeModule plan.options.suffix drafted.file.name declaring.name ∧
      declaring ∈ declaringFiles plan.graph plan.order := by
  obtain ⟨declaring, inFile, fromModule, exposed, assigned, subject, named⟩ :=
    (course.delivery.each drafted member).imports entry imported
  obtain ⟨node, internal, other, found, identified, view, inOther, ofFile, met⟩ :=
    course.origin assigned subject
  rw [inFile] at inOther
  cases inOther
  have listed : ∀ other, other ∈ reached.table ↔ other ∈ resolved.aliases := by
    intro other
    rw [← course.delivery.aliases]
    exact Lists.mem_sort_by
  refine ⟨declaring, exposed, ⟨inFile, (listed exposed).mpr assigned, ofFile, named, ?_, subject,
    node, internal, found, identified, view⟩, fromModule, met⟩
  intro other inTable otherFile otherName
  apply List.inj_on_of_nodup_map course.coherent.names ((listed other).mp inTable) assigned
  rw [otherFile, otherName, ofFile, named]

/-- The stub of a requested file declares all aliases of the file and they are public. -/
theorem declares (course : Course plan asked resolved drafts reached) {file : Node}
    (requested : file.id ∈ plan.graph.requested) (inFile : plan.graph.file file.id = .ok file)
    {exposed : Alias} (member : exposed ∈ resolved.aliasesIn file.id) :
    published file.name exposed ∈ publicNames reached drafts ∧
      ∃ drafted ∈ drafts, drafted.stub.source = file.name ∧
        drafted.stub.path = Location.outputPath plan.options.suffix file.name ∧
        Declares plan.options drafted.stub exposed := by
  obtain ⟨drafted, listed, rfl⟩ :=
    course.delivery.drafted_of_mem (List.mem_eraseDups.mpr requested) inFile
  obtain ⟨source, path, ⟨declarations, bindings, statements, _, content⟩, _⟩ :=
    course.delivery.each drafted listed
  have inside : exposed ∈ fileAliases resolved drafted.file.id := by
    obtain ⟨assigned, sameFile⟩ := List.mem_filter.mp member
    exact List.mem_filter.mpr ⟨Lists.mem_sort_by.mpr assigned, sameFile⟩
  refine ⟨?_, drafted, listed, source, path, statements, declarations, _, inside,
    source ▸ content, mem_file_lines _ _ _ _ inside⟩
  have named : published drafted.file.name exposed ∈ (publicNames reached drafts).filter
      fun name => name.source == drafted.file.name := by
    rw [course.public_names_of_file listed]
    exact List.mem_map.mpr ⟨exposed, Lists.mem_sort_by.mpr member, rfl⟩
  exact List.mem_of_mem_filter named

theorem met (course : Course plan asked resolved drafts reached) {file : Node}
    (requested : file.id ∈ plan.graph.requested) (inFile : plan.graph.file file.id = .ok file) :
    file ∈ declaringFiles plan.graph plan.order :=
  mem_declaring_files_iff.mpr ⟨file.id, course.requested file.id requested, inFile⟩

end Course

section TwoRuns

variable {onePlan twoPlan : Plan}
  {oneAsked oneResolved oneReached twoAsked twoResolved twoReached : Registry}
  {oneDrafts twoDrafts : List Drafted}

/-- Two runs over the same nodes give a file that both meet the same aliases. -/
theorem aliases_in_eq (same : onePlan.graph.nodes = twoPlan.graph.nodes)
    (one : Course onePlan oneAsked oneResolved oneDrafts oneReached)
    (two : Course twoPlan twoAsked twoResolved twoDrafts twoReached) {file : Node}
    (inOne : file ∈ declaringFiles onePlan.graph onePlan.order)
    (inTwo : file ∈ declaringFiles twoPlan.graph twoPlan.order) :
    oneResolved.aliasesIn file.id = twoResolved.aliasesIn file.id := by
  obtain ⟨oneRequests, oneReserved⟩ := one.inquiry.asked file inOne
  obtain ⟨twoRequests, twoReserved⟩ := two.inquiry.asked file inTwo
  -- the runs registered nodes in different orders, but a file asks for the same in both
  have wishes : oneAsked.requestsIn file.id = twoAsked.requestsIn file.id := by
    rw [← declaration_entries_congr same] at twoRequests
    exact oneRequests.unique (twoRequests.congr same.symm)
  have agree : Registry.Agree file.id oneAsked twoAsked := by
    refine ⟨?_, fun name => ?_⟩
    · simp [Registry.aliasesIn, one.inquiry.aliases, two.inquiry.aliases]
    · rw [Bool.eq_iff_iff, oneReserved name, twoReserved name, top_level_names_congr same]
  exact (Registry.resolve_agree agree wishes one.inquiry.resolved two.inquiry.resolved one.resolves
    two.resolves).aliases

theorem public_names_eq (same : onePlan.graph.nodes = twoPlan.graph.nodes)
    (one : Course onePlan oneAsked oneResolved oneDrafts oneReached)
    (two : Course twoPlan twoAsked twoResolved twoDrafts twoReached) {file : Node}
    (inOne : file.id ∈ onePlan.graph.requested) (oneFile : onePlan.graph.file file.id = .ok file)
    (inTwo : file.id ∈ twoPlan.graph.requested) (twoFile : twoPlan.graph.file file.id = .ok file) :
    (publicNames oneReached oneDrafts).filter (fun name => name.source == file.name) =
      (publicNames twoReached twoDrafts).filter (fun name => name.source == file.name) := by
  obtain ⟨oneDrafted, oneMember, sameOne⟩ :=
    one.delivery.drafted_of_mem (List.mem_eraseDups.mpr inOne) oneFile
  obtain ⟨twoDrafted, twoMember, sameTwo⟩ :=
    two.delivery.drafted_of_mem (List.mem_eraseDups.mpr inTwo) twoFile
  have oneNames := one.public_names_of_file oneMember
  have twoNames := two.public_names_of_file twoMember
  rw [sameOne] at oneNames
  rw [sameTwo] at twoNames
  rw [oneNames, twoNames,
    aliases_in_eq same one two (one.met inOne oneFile) (two.met inTwo twoFile)]

/-- What one run imports from a file, the other run declares there if it is asked for the file. -/
theorem declares_taken (same : onePlan.graph.nodes = twoPlan.graph.nodes)
    (one : Course onePlan oneAsked oneResolved oneDrafts oneReached)
    (two : Course twoPlan twoAsked twoResolved twoDrafts twoReached) {entry : Import}
    {declaring : Node} {exposed : Alias}
    (takes : entry.Takes onePlan.graph oneReached declaring exposed)
    (met : declaring ∈ declaringFiles onePlan.graph onePlan.order)
    (requested : declaring.id ∈ twoPlan.graph.requested)
    (inFile : twoPlan.graph.file declaring.id = .ok declaring) :
    published declaring.name exposed ∈ publicNames twoReached twoDrafts ∧
      ∃ drafted ∈ twoDrafts, drafted.stub.source = declaring.name ∧
        drafted.stub.path = Location.outputPath twoPlan.options.suffix declaring.name ∧
        Declares twoPlan.options drafted.stub exposed := by
  have assigned : exposed ∈ oneResolved.aliases := by
    rw [← one.delivery.aliases]
    exact Lists.mem_sort_by.mp takes.assigned
  have inOne : exposed ∈ oneResolved.aliasesIn declaring.id :=
    List.mem_filter.mpr ⟨assigned, by simp [takes.file]⟩
  rw [aliases_in_eq same one two met (two.met requested inFile)] at inOne
  exact two.declares requested inFile inOne

end TwoRuns

/-- Two runs over one schema fit together, whatever files each is asked for. A file requested in both
has the same public names in both. Whatever a stub of the first run imports is an alias of a node in
one of its roles, and if the file of that node is requested in the second run, its stub declares the
same alias for the same view of the node. -/
theorem separate_runs_agree {options : Options} {entries : List (Option Node)}
    {oneRequested twoRequested : List Id} {one two : Graph}
    (oneBuilt : Graph.build entries oneRequested = .ok one)
    (twoBuilt : Graph.build entries twoRequested = .ok two) (wellScoped : one.WellScoped)
    {oneOutput twoOutput : Output} (oneRan : (generate options one).1 = .ok oneOutput)
    (twoRan : (generate options two).1 = .ok twoOutput) :
    (∀ file, one.node? file.id = some file → file.id ∈ oneRequested → file.id ∈ twoRequested →
      oneOutput.names.filter (fun name => name.source == file.name) =
        twoOutput.names.filter (fun name => name.source == file.name)) ∧
    ∃ drafts registry, (draftAll options one).Returns {} drafts registry ∧
      oneOutput.files = drafts.map Drafted.stub ∧
      ∀ drafted ∈ drafts,
        LaidOut options registry drafted.file drafted.imports drafted.stub.content ∧
        ∀ entry ∈ drafted.imports, ∃ declaring exposed,
          entry.Takes one registry declaring exposed ∧
          entry.fromModule =
            Location.relativeModule options.suffix drafted.file.name declaring.name ∧
          (declaring.id ∈ twoRequested →
            published declaring.name exposed ∈ twoOutput.names ∧
            ∃ stub ∈ twoOutput.files, stub.source = declaring.name ∧
              stub.path = Location.outputPath options.suffix declaring.name ∧
              Declares options stub exposed) := by
  have same := Graph.build_same_nodes oneBuilt twoBuilt
  have oneAsks := (Graph.build_ok oneBuilt).2.1
  have twoAsks := (Graph.build_ok twoBuilt).2.1
  obtain ⟨oneDrafts, oneReached, oneReturns, oneFiles, oneNames⟩ := generate_ok oneRan
  obtain ⟨twoDrafts, twoReached, twoReturns, twoFiles, twoNames⟩ := generate_ok twoRan
  obtain ⟨onePlan, oneAsked, oneResolved, rfl, rfl, first⟩ :=
    draft_all_course oneBuilt wellScoped oneReturns
  obtain ⟨twoPlan, twoAsked, twoResolved, rfl, sameOptions, second⟩ :=
    draft_all_course twoBuilt (wellScoped.congr same) twoReturns
  subst oneAsks twoAsks
  have fileInTwo : ∀ file, onePlan.graph.node? file.id = some file →
      file.id ∈ twoPlan.graph.requested → twoPlan.graph.file file.id = .ok file := by
    intro file found requested
    exact Graph.file_of_requested twoBuilt (Graph.node?_congr same _ ▸ found) requested
  refine ⟨fun file found inOne inTwo => ?_, oneDrafts, oneReached, oneReturns, oneFiles, ?_⟩
  · rw [oneNames, twoNames]
    exact public_names_eq same first second inOne (Graph.file_of_requested oneBuilt found inOne)
      inTwo (fileInTwo file found inTwo)
  · intro drafted member
    have laidOut := (first.delivery.each drafted member).layout
    unfold LaidOut at laidOut ⊢
    rw [← file_aliases_congr first.delivery.aliases] at laidOut
    refine ⟨laidOut, fun entry imported => ?_⟩
    obtain ⟨declaring, exposed, takes, fromModule, met⟩ := first.takes member imported
    refine ⟨declaring, exposed, takes, fromModule, fun requested => ?_⟩
    have inFile := fileInTwo declaring (Graph.node?_of_file takes.inFile) requested
    obtain ⟨named, other, listed, source, path, declares⟩ :=
      declares_taken same first second takes met requested inFile
    rw [sameOptions] at path declares
    exact ⟨twoNames ▸ named, other.stub, twoFiles ▸ List.mem_map_of_mem listed, source, path,
      declares⟩

def currency (requested : List Id) : Graph where
  nodes := [
    { id := 1, kind := .file, name := "a", displayName := "a", nested := [2] },
    { id := 2, kind := .const, name := "unit", displayName := "unit", scope := 1,
      constType := some { kind := .enum, target := 4 } },
    { id := 3, kind := .file, name := "b", displayName := "b", nested := [4] },
    { id := 4, kind := .enum, name := "Coin", displayName := "Coin", scope := 3,
      enumerants := ["cent"] }]
  requested

theorem separate_runs_agree_currency :
    ∃ oneOutput twoOutput, (generate {} (currency [1, 3])).1 = .ok oneOutput ∧
      (generate {} (currency [3])).1 = .ok twoOutput ∧
      oneOutput.names.filter (fun name => name.source == "b") =
        twoOutput.names.filter (fun name => name.source == "b") ∧
      ∃ stub ∈ twoOutput.files, stub.source = "b" ∧
        ∃ exposed, exposed.name = "CoinEnum" ∧ Declares {} stub exposed := by
  have built : ∀ requested, requested = [1, 3] ∨ requested = [3] →
      Graph.build ((currency []).nodes.map some) requested = .ok (currency requested) := by
    rintro requested (rfl | rfl) <;> rfl
  obtain ⟨oneOutput, oneRan⟩ : ∃ output, (generate {} (currency [1, 3])).1 = .ok output :=
    except_ok_of_isOk (by decide +kernel)
  obtain ⟨twoOutput, twoRan⟩ : ∃ output, (generate {} (currency [3])).1 = .ok output :=
    except_ok_of_isOk (by decide +kernel)
  obtain ⟨names, drafts, registry, returns, _, imports⟩ := separate_runs_agree
    (built [1, 3] (.inl rfl)) (built [3] (.inr rfl)) (by decide +kernel) oneRan twoRan
  have place : (currency [1, 3]).file 4 =
      .ok { id := 3, kind := .file, name := "b", displayName := "b", nested := [4] } := rfl
  obtain ⟨drafted, member, imported⟩ := drafted_of_imports returns
    (show _ = some [⟨".b_capnp", "CoinEnum", "CoinEnum", 4⟩] by decide +kernel)
  obtain ⟨declaring, exposed, takes, _, later⟩ := (imports drafted member).2 _ imported
  have inFile := takes.inFile
  rw [place] at inFile
  cases inFile
  obtain ⟨_, stub, listed, source, _, declares⟩ := later (by decide)
  refine ⟨oneOutput, twoOutput, oneRan, twoRan, ?_, stub, listed, source, exposed, takes.name,
    declares⟩
  exact names { id := 3, kind := .file, name := "b", displayName := "b", nested := [4] } rfl
    (by decide) (by decide)

end SchemaStubs.Stub
