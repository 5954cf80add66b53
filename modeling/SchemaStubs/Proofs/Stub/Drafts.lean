import SchemaStubs.Proofs.Naming.Locality
import SchemaStubs.Proofs.Stub.Declared
import SchemaStubs.Proofs.Stub.Imports

/-!
The stubs a run has drafted. Each is laid out from the aliases of its file and the imports of its
draft, and no two have one path. The aliases are those of the resolution all along.
-/

namespace SchemaStubs.Stub

open Generation

/-- A text was laid out from some imports and from the aliases that a registry has for a file. -/
def LaidOut (options : Options) (registry : Registry) (file : Node) (imports : List Import)
    (content : String) : Prop :=
  ∃ declarations bindings statements,
    ImportSection.collect bindings imports
      (renderLines (bodyLines declarations (fileAliases registry file.id))) = .ok statements ∧
    content = renderLines (fileLines options file.name statements
      (bodyLines declarations (fileAliases registry file.id)))

theorem file_aliases_congr {one two : Registry} (same : one.aliases = two.aliases) (file : Id) :
    fileAliases one file = fileAliases two file := by
  rw [fileAliases, fileAliases, Registry.table, Registry.table, same]

/-- Drafts that go through the files of a list have one for each of them. -/
theorem drafted_of_sources {drafts : List Drafted} {ids : List Id} {fileOf : Id → Except Fault Node}
    (sources : drafts.map (fun drafted => .ok drafted.file) = ids.map fileOf) {id : Id} {file : Node}
    (member : id ∈ ids) (inFile : fileOf id = .ok file) : ∃ drafted ∈ drafts, drafted.file = file := by
  have listed : .ok file ∈ ids.map fileOf := List.mem_map.mpr ⟨id, member, inFile⟩
  rw [← sources] at listed
  obtain ⟨drafted, inside, same⟩ := List.mem_map.mp listed
  exact ⟨drafted, inside, Except.ok.inj same⟩

theorem file_aliases_eq (registry : Registry) (file : Id) :
    fileAliases registry file = sortBy Alias.listedBefore (registry.aliasesIn file) :=
  Lists.filter_sort_by Alias.listed_before_trans Alias.listed_before_total _ _

/-- Laying out binds names and writes the journal, and the text is that of the lines. -/
theorem lay_out_returns {plan : Plan} {declarations : List Declaration} {before after : Draft}
    {content : String} (returns : (layOut plan declarations).Returns before content after) :
    LaidOut plan.options before.registry before.file after.imports content := by
  unfold layOut at returns
  simp only [Step.Returns.bind_iff, Step.Returns.get_iff, Step.Returns.of_except_iff] at returns
  obtain ⟨_, _, ⟨rfl, rfl⟩, _, reached, _, _, _, ⟨rfl, rfl⟩, imports, _, ⟨collected, rfl⟩, _, noted,
    notes, last⟩ := returns
  obtain ⟨rfl, rfl⟩ := Step.Returns.pure_iff.mp last
  unfold Draft.note Draft.inRegistry at notes
  obtain ⟨_, _, rfl⟩ := Step.Returns.on_part_iff.mp notes
  exact ⟨declarations, reached.bindings, imports, collected, rfl⟩

/-- A draft leaves the aliases as they are; its imports are imports of aliases. -/
theorem draft_delivers {plan : Plan} (located : plan.Located) {file : Node}
    {registry before after : Registry} {content : String} {imports : List Import}
    (resolved : before.resolved = true) (aliases : before.aliases = registry.aliases)
    (returns : (draft plan file).Returns before (content, imports) after) :
    after.resolved = true ∧ after.aliases = registry.aliases ∧
      LaidOut plan.options registry file imports content ∧
      ∀ entry ∈ imports, Imported plan file registry.aliases entry := by
  obtain ⟨_, reached, composes, same, rfl⟩ := Step.Returns.within_iff.mp returns
  cases same
  have frame : Frame plan (Drafting plan file registry.aliases) := drafting_frame located
  have fresh : Drafting plan file registry.aliases { registry := before, file } :=
    ⟨rfl, resolved, aliases, by simp⟩
  have drafting := (frame.compose file).returns composes fresh
  refine ⟨drafting.resolved, drafting.resolution, ?_, drafting.imports⟩
  -- the declarations are found before the layout, and the aliases are the same at both times
  obtain ⟨declarations, declared, declares, lays⟩ := compose_iff.mp composes
  have between := frame.declareFile.returns declares fresh
  have laidOut := lay_out_returns lays
  unfold LaidOut at laidOut ⊢
  rw [between.ofFile, file_aliases_congr between.resolution] at laidOut
  exact laidOut

structure Delivered (plan : Plan) (registry : Registry) (drafted : Drafted) : Prop where
  source : drafted.stub.source = drafted.file.name
  path : drafted.stub.path = Location.outputPath plan.options.suffix drafted.file.name
  layout : LaidOut plan.options registry drafted.file drafted.imports drafted.stub.content
  imports : ∀ entry ∈ drafted.imports, Imported plan drafted.file registry.aliases entry

structure Delivery (plan : Plan) (registry : Registry) (ids : List Id) (drafts : List Drafted)
    (reached : Registry) : Prop where
  resolved : reached.resolved = true
  aliases : reached.aliases = registry.aliases
  files : drafts.map (fun drafted => .ok drafted.file) = ids.map plan.graph.file
  paths : (drafts.map fun drafted => drafted.stub.path).Nodup
  each : ∀ drafted ∈ drafts, Delivered plan registry drafted

namespace Delivery

variable {plan : Plan} {registry reached : Registry} {ids : List Id} {drafts : List Drafted}

theorem start (resolved : registry.resolved = true) : Delivery plan registry [] [] registry :=
  ⟨resolved, rfl, rfl, List.nodup_nil, by simp⟩

theorem addFile (located : plan.Located) (delivery : Delivery plan registry ids drafts reached)
    {id : Id} {next : List Drafted} {after : Registry}
    (returns : (addFile plan drafts id).Returns reached next after) :
    Delivery plan registry (ids ++ [id]) next after := by
  unfold Generation.addFile at returns
  simp only [Step.Returns.bind_iff, Step.Returns.of_except_iff] at returns
  obtain ⟨file, _, ⟨inFile, rfl⟩, returns⟩ := returns
  split at returns
  · exact (Step.Returns.fail_iff.mp returns).elim
  · rename_i free
    simp only [Step.Returns.bind_iff] at returns
    obtain ⟨⟨content, imports⟩, middle, composes, _, noted, notes, last⟩ := returns
    obtain ⟨rfl, rfl⟩ := Step.Returns.pure_iff.mp last
    cases Step.Returns.modify_iff.mp notes
    obtain ⟨resolved, aliases, laidOut, imported⟩ :=
      draft_delivers located delivery.resolved delivery.aliases composes
    refine ⟨resolved, aliases, ?_, ?_, ?_⟩
    · simp [delivery.files, inFile]
    · rw [List.map_append, List.nodup_append]
      refine ⟨delivery.paths, by simp, ?_⟩
      intro path earlier other single same
      obtain ⟨drafted, member, rfl⟩ := List.mem_map.mp earlier
      have taken := List.find?_eq_none.mp free drafted member
      simp only [List.map_cons, List.map_nil, List.mem_singleton] at single
      rw [same, single] at taken
      simp at taken
    · intro drafted member
      rcases List.mem_append.mp member with earlier | last
      · exact delivery.each drafted earlier
      · cases List.mem_singleton.mp last
        refine ⟨rfl, ?_, laidOut, imported⟩
        dsimp only

theorem of_returns (located : plan.Located) (resolved : registry.resolved = true)
    (returns : (ids.foldlM (Generation.addFile plan) []).Returns registry drafts reached) :
    Delivery plan registry ids drafts reached := by
  refine Step.Returns.foldlM_stages (fun done drafts reached =>
    Delivery plan registry done drafts reached) ?_ returns (.start resolved)
  intro done id rest _ value next before after step delivery
  exact delivery.addFile located step

theorem file_found (delivery : Delivery plan registry ids drafts reached) {drafted : Drafted}
    (member : drafted ∈ drafts) : plan.graph.node? drafted.file.id = some drafted.file := by
  have listed : Except.ok drafted.file ∈ ids.map plan.graph.file := by
    rw [← delivery.files]
    exact List.mem_map.mpr ⟨drafted, member, rfl⟩
  obtain ⟨id, _, inFile⟩ := List.mem_map.mp listed
  exact Graph.node?_of_file inFile

theorem drafted_of_mem (delivery : Delivery plan registry ids drafts reached) {id : Id}
    {file : Node} (member : id ∈ ids) (inFile : plan.graph.file id = .ok file) :
    ∃ drafted ∈ drafts, drafted.file = file :=
  drafted_of_sources delivery.files member inFile

theorem eq_of_name (delivery : Delivery plan registry ids drafts reached) {one two : Drafted}
    (first : one ∈ drafts) (second : two ∈ drafts) (same : one.file.name = two.file.name) :
    one = two := by
  apply List.inj_on_of_nodup_map delivery.paths first second
  rw [(delivery.each one first).path, (delivery.each two second).path, same]

end Delivery

end SchemaStubs.Stub
