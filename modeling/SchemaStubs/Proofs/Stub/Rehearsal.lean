import SchemaStubs.Proofs.Stub.Preparation

/-!
A run for one file up to the text of its stub. The text comes last, and nothing but a name that is
needed by an import statement can keep it from being laid out: a draft that has bound no such name
gets its text whatever it declares.
-/

namespace SchemaStubs.Stub

open Generation

/-- The declarations of a draft, with the names of its aliases bound. -/
def Draft.declareAndBind (plan : Plan) : Step Draft (List Declaration) := do
  let declarations ← declareFile plan
  let draft ← get
  (fileAliases draft.registry draft.file.id).forM fun entry =>
    Draft.bind entry.name entry.subject.node
  pure declarations

def rehearse (options : Options) (graph : Graph) (file : Node) :
    Step Registry (List Declaration × Draft) := do
  let walk ← survey graph graph.requested.eraseDups
  requestAliases graph walk.order
  Registry.resolve
  let plan : Plan := { graph, options, order := walk.order, references := walk.references }
  (Draft.declareAndBind plan).within (fun registry => { registry, file }) Draft.registry
    fun declarations draft => (declarations, draft)

/-- Whether a draft leaves the names of the library and of the runtime to the import statements,
imports nothing from other stubs and refers to nothing but what is declared. -/
def Draft.unobstructed (draft : Draft) : Bool :=
  draft.imports.isEmpty && draft.registry.undeclared.isEmpty &&
    (libraryNames.map Prod.fst ++ runtimeNames).all fun name => (draft.bindings.get? name).isNone

theorem collect_of_unobstructed {draft : Draft} (free : draft.unobstructed = true) (body : String) :
    ∃ statements, ImportSection.collect draft.bindings draft.imports body = .ok statements := by
  unfold Draft.unobstructed at free
  simp only [Bool.and_eq_true, List.isEmpty_iff] at free
  obtain ⟨⟨imports, _⟩, unbound⟩ := free
  have passes : ∀ name ∈ identifiers body, Import.checkUsed draft.bindings name = .ok () := by
    intro name _
    unfold Import.checkUsed
    split
    · rename_i fromModule owner known bound
      have listed : name ∈ libraryNames.map Prod.fst ++ runtimeNames := by
        unfold Import.knownModule? at known
        split at known
        · rename_i library
          obtain ⟨front, back, whole, _⟩ := List.lookup_eq_some_iff.mp library
          simp [whole]
        · split at known
          · rename_i runtime
            exact List.mem_append.mpr (.inr runtime)
          · cases known
      have none := List.all_eq_true.mp unbound name listed
      rw [bound] at none
      cases none
    · rfl
  simp only [ImportSection.collect, except_bind_ok, imports, sort_by_nil]
  exact ⟨_, (), except_forM_of_ok passes, (), rfl, rfl⟩

/-- Laying out after the aliases were bound: the text is there, and only the journal was written. -/
theorem lay_out_of_unobstructed (plan : Plan) (declarations : List Declaration)
    {before reached : Draft}
    (binds : ((fileAliases before.registry before.file.id).forM fun entry =>
      Draft.bind entry.name entry.subject.node).Returns before () reached)
    (free : reached.unobstructed = true) :
    ∃ statements, ImportSection.collect reached.bindings reached.imports
        (renderLines (bodyLines declarations (fileAliases before.registry before.file.id))) =
          .ok statements ∧
      ∃ journal, (layOut plan declarations).Returns before
        (renderLines (fileLines plan.options before.file.name statements
          (bodyLines declarations (fileAliases before.registry before.file.id))))
        { reached with registry := { reached.registry with journal } } := by
  obtain ⟨statements, collected⟩ := collect_of_unobstructed free
    (renderLines (bodyLines declarations (fileAliases before.registry before.file.id)))
  refine ⟨statements, collected, ?_⟩
  simp only [layOut, Step.Returns.bind_iff, Step.Returns.get_iff, Step.Returns.of_except_iff,
    Step.Returns.pure_iff]
  exact ⟨_, before, before, ⟨rfl, rfl⟩, (), reached, binds, reached, reached, ⟨rfl, rfl⟩, statements,
    reached, ⟨collected, rfl⟩, (), _, rfl, rfl, rfl⟩

/-- A run for one file whose stub is composed, with nothing left to declare, gives that stub. -/
theorem generate_of_composes {options : Options} {graph : Graph} {id : Id} {file : Node}
    (single : graph.requested.eraseDups = [id]) (inFile : graph.file id = .ok file) {walk : Walk}
    {surveyed asked resolved : Registry}
    (surveys : (survey graph graph.requested.eraseDups).Returns {} walk surveyed)
    (inquires : (requestAliases graph walk.order).Returns surveyed () asked)
    (resolves : Registry.resolve.Returns asked () resolved) {content : String} {draft : Draft}
    (composes : (compose { graph, options, order := walk.order, references := walk.references }
      file).Returns { registry := resolved, file } content draft)
    (settled : draft.registry.undeclared.isEmpty = true) :
    ∃ output, (generate options graph).1 = .ok output ∧
      output.files = [⟨file.name, Location.outputPath options.suffix file.name, content⟩] := by
  let plan : Plan := { graph, options, order := walk.order, references := walk.references }
  let drafted : Drafted :=
    ⟨file, draft.imports, ⟨file.name, Location.outputPath options.suffix file.name, content⟩⟩
  have adds : ∃ registry, (addFile plan [] id).Returns resolved [drafted] registry ∧
      registry.undeclared = draft.registry.undeclared := by
    simp only [addFile, Step.Returns.bind_iff, Step.Returns.of_except_iff, List.find?_nil]
    exact ⟨_, ⟨file, resolved, ⟨inFile, rfl⟩, (content, draft.imports), _,
      Step.Returns.within_iff.mpr ⟨content, draft, composes, rfl, rfl⟩, (), _, rfl, rfl⟩, rfl⟩
  obtain ⟨registry, adds, same⟩ := adds
  have drafts : (draftAll options graph).Returns {} [drafted] registry := by
    simp only [draftAll, Step.Returns.bind_iff]
    refine ⟨walk, surveyed, surveys, (), asked, inquires, (), resolved, resolves, ?_⟩
    rw [single, List.foldlM_cons, Step.Returns.bind_iff]
    exact ⟨[drafted], registry, adds, rfl⟩
  have ran : (run options graph).Returns {} ⟨[drafted.stub], publicNames registry [drafted]⟩
      { registry with journal := registry.journal ++ [.generationCompleted 1] } := by
    simp only [run, Step.Returns.bind_iff, Step.Returns.get_iff]
    refine ⟨[drafted], registry, drafts, registry, registry, ⟨rfl, rfl⟩, ?_⟩
    rw [if_neg (by simp [same, settled])]
    exact Step.Returns.bind_iff.mpr ⟨(), _, rfl, rfl⟩
  exact ⟨_, congrArg Prod.fst ran, rfl⟩

/-- A run for one file whose rehearsal is not obstructed gives the stub of that file, with the imports
that its body asks for. -/
theorem generate_of_rehearsal {options : Options} {graph : Graph} {id : Id} {file : Node}
    (single : graph.requested.eraseDups = [id]) (inFile : graph.file id = .ok file)
    {declarations : List Declaration} {draft : Draft} {registry : Registry}
    (rehearsed : (rehearse options graph file).Returns {} (declarations, draft) registry)
    (free : draft.unobstructed = true) :
    ∃ output stub statements, (generate options graph).1 = .ok output ∧ output.files = [stub] ∧
      stub.source = file.name ∧
      stub.content = renderLines (fileLines options file.name statements
        (bodyLines declarations (fileAliases draft.registry file.id))) ∧
      ImportSection.collect draft.bindings draft.imports
        (renderLines (bodyLines declarations (fileAliases draft.registry file.id))) =
          .ok statements := by
  unfold rehearse at rehearsed
  simp only [Step.Returns.bind_iff] at rehearsed
  obtain ⟨walk, _, surveys, _, asked, inquires, _, resolved, resolves, drafts⟩ := rehearsed
  have prepared := prepared_of_returns options surveys inquires resolves
  obtain ⟨_, _, steps, same, rfl⟩ := Step.Returns.within_iff.mp drafts
  cases same
  simp only [Draft.declareAndBind, Step.Returns.bind_iff, Step.Returns.get_iff,
    Step.Returns.pure_iff] at steps
  obtain ⟨declarations, declared, declares, _, _, ⟨rfl, rfl⟩, _, draft, binds, rfl, rfl⟩ := steps
  have frame := standing_frame prepared.plan_located resolved file
  have stands := frame.declareFile.returns declares ⟨rfl, prepared.resolved, rfl, rfl⟩
  have bound : Standing resolved file draft :=
    (Step.Keeps.of_forM fun entry _ => frame.bind entry.name entry.subject.node).returns binds stands
  obtain ⟨statements, collected, journal, lays⟩ := lay_out_of_unobstructed
    { graph, options, order := walk.order, references := walk.references } declarations binds free
  rw [stands.ofFile, file_aliases_congr stands.aliases, ← file_aliases_congr bound.aliases]
    at collected lays
  have composes : (compose { graph, options, order := walk.order, references := walk.references }
      file).Returns { registry := resolved, file }
      (renderLines (fileLines options file.name statements
        (bodyLines declarations (fileAliases draft.registry file.id))))
      { draft with registry := { draft.registry with journal } } := by
    exact compose_iff.mpr ⟨declarations, declared, declares, lays⟩
  have settled : draft.registry.undeclared.isEmpty = true := by
    unfold Draft.unobstructed at free
    simp only [Bool.and_eq_true] at free
    exact free.1.2
  obtain ⟨output, ran, files⟩ :=
    generate_of_composes single inFile surveys inquires resolves composes settled
  exact ⟨output, _, statements, ran, files, rfl, rfl, collected⟩

theorem generate_of_unobstructed {options : Options} {graph : Graph} {id : Id} {file : Node}
    (single : graph.requested.eraseDups = [id]) (inFile : graph.file id = .ok file)
    (rehearsed : (((rehearse options graph file).outcome {}).1.toOption.any
      fun made => made.2.unobstructed) = true) :
    ∃ output, (generate options graph).1 = .ok output := by
  obtain ⟨⟨_, _⟩, _, rehearses, free⟩ := Step.Returns.of_any rehearsed
  obtain ⟨output, _, _, ran, _⟩ := generate_of_rehearsal single inFile rehearses free
  exact ⟨output, ran⟩

end SchemaStubs.Stub
