import SchemaStubs.Proofs.Naming.History
import SchemaStubs.Proofs.Schema.ScopeChain
import SchemaStubs.Proofs.Stub.Frame

/-!
Where the imports of a stub come from. An import is recorded for one alias of a node of another
file, from the module of that file; drafting changes no alias, so the alias is still there when the
run has come to its end.
-/

namespace SchemaStubs.Stub

def Plan.Located (plan : Plan) : Prop :=
  ∀ target reference, plan.references.get? target = some reference →
    reference.target = target ∧
      ∃ file, plan.graph.file target = .ok file ∧ reference.file = file.id

/-- An import of the stub of a file takes an alias of its owner from the owner's file. -/
def Imported (plan : Plan) (file : Node) (aliases : List Alias) (entry : Import) : Prop :=
  ∃ declaring, plan.graph.file entry.owner = .ok declaring ∧
    entry.fromModule = Location.relativeModule plan.options.suffix file.name declaring.name ∧
    ∃ assigned ∈ aliases, assigned.subject = { node := entry.owner } ∧ assigned.name = entry.name

/-- The draft of a stub: it belongs to its file, the aliases are those of the resolution, and the
imports are imports of such aliases. -/
structure Drafting (plan : Plan) (file : Node) (aliases : List Alias) (draft : Draft) : Prop where
  ofFile : draft.file = file
  resolved : draft.registry.resolved = true
  resolution : draft.registry.aliases = aliases
  imports : ∀ entry ∈ draft.imports, Imported plan file aliases entry

theorem mem_add {entry other : Import} {imports : List Import}
    (member : other ∈ Import.add entry imports) : other = entry ∨ other ∈ imports := by
  induction imports with
  | nil => exact .inl (List.mem_singleton.mp member)
  | cons first rest induction =>
      unfold Import.add at member
      split at member
      · rcases List.mem_cons.mp member with here | later
        · exact .inl here
        · exact .inr (List.mem_cons_of_mem _ later)
      · rcases List.mem_cons.mp member with here | later
        · exact .inr (here ▸ List.mem_cons_self)
        · rcases induction later with same | inside
          · exact .inl same
          · exact .inr (List.mem_cons_of_mem _ inside)

theorem get_aliases_returns {subject : Subject} {before after : Registry}
    {names : List (Role × String)} (done : before.resolved = true)
    (returns : (Registry.getAliases subject).Returns before names after) :
    after = before ∧ names = before.aliasesOf subject := by
  unfold Registry.getAliases at returns
  simp only [Step.Returns.bind_iff, Step.Returns.get_iff] at returns
  obtain ⟨_, middle, resolves, _, _, ⟨rfl, rfl⟩, returns⟩ := returns
  have same : middle = before := by
    unfold Step.Returns at resolves
    rw [Registry.resolve_of_resolved done] at resolves
    exact (Prod.mk.inj resolves).2.symm
  subst same
  split at returns
  · exact (Step.Returns.fail_iff.mp returns).elim
  · obtain ⟨rfl, rfl⟩ := Step.Returns.pure_iff.mp returns
    exact ⟨rfl, rfl⟩

theorem mem_aliases_of {registry : Registry} {subject : Subject} {role : Role} {name : String}
    (found : (registry.aliasesOf subject).lookup role = some name) :
    ∃ assigned ∈ registry.aliases, assigned.subject = subject ∧ assigned.name = name := by
  have member : (role, name) ∈ registry.aliasesOf subject := by
    obtain ⟨front, back, whole, _⟩ := List.lookup_eq_some_iff.mp found
    simp [whole]
  obtain ⟨assigned, kept, same⟩ := List.mem_map.mp member
  obtain ⟨listed, subjectSame⟩ := List.mem_filter.mp kept
  exact ⟨assigned, listed, by simpa using subjectSame, congrArg Prod.snd same⟩

/-- In a resolved registry a question for an alias changes nothing. -/
theorem get_alias_keeps {invariant : Draft → Prop}
    (resolved : ∀ draft, invariant draft → draft.registry.resolved = true) (subject : Subject)
    (role : Role) : (Draft.inRegistry (Registry.getAlias subject role)).Keeps invariant := by
  intro draft start
  have same : ((Draft.inRegistry (Registry.getAlias subject role)).outcome draft).2 =
      { draft with registry := ((Registry.getAlias subject role).outcome draft.registry).2 } := rfl
  rw [same, Registry.get_alias_state, Registry.resolve_of_resolved (resolved draft start)]
  exact start

/-- Names once chosen for a subject are found again; otherwise they are chosen and kept. -/
theorem locals_of_returns {subject : Subject} {declaring : String} {aliases names : List (Role × String)}
    {before after : Draft}
    (returns : (Draft.localsOf subject declaring aliases).Returns before names after) :
    (before.locals.get? subject = some names ∧ after = before) ∨
      (before.locals.get? subject = none ∧
        names = Draft.qualified
          (Draft.freeQualifier (before.takenNames subject) declaring aliases) aliases ∧
        after = { before with locals := before.locals.set subject names }) := by
  unfold Draft.localsOf at returns
  simp only [Step.Returns.bind_iff, Step.Returns.get_iff] at returns
  obtain ⟨_, _, ⟨rfl, rfl⟩, returns⟩ := returns
  split at returns
  · rename_i known
    obtain ⟨rfl, rfl⟩ := Step.Returns.pure_iff.mp returns
    exact .inl ⟨known, rfl⟩
  · rename_i unknown
    simp only [Step.Returns.bind_iff, Step.Returns.set_iff, Step.Returns.pure_iff] at returns
    obtain ⟨_, _, rfl, rfl, rfl⟩ := returns
    exact .inr ⟨unknown, rfl, rfl⟩

theorem locals_of_answers (subject : Subject) (declaring : String) (aliases : List (Role × String))
    (draft : Draft) :
    ∃ names after, (Draft.localsOf subject declaring aliases).Returns draft names after := by
  unfold Step.Returns Draft.localsOf
  simp only [Step.outcome_bind, Step.outcome_get]
  cases draft.locals.get? subject with
  | some names => exact ⟨names, draft, rfl⟩
  | none => exact ⟨_, _, rfl⟩

theorem locals_of_keeps_registry {subject : Subject} {declaring : String}
    {aliases names : List (Role × String)} {before after : Draft}
    (returns : (Draft.localsOf subject declaring aliases).Returns before names after) :
    after.locals.get? subject = some names ∧ after.registry = before.registry := by
  rcases locals_of_returns returns with ⟨known, rfl⟩ | ⟨_, _, rfl⟩
  · exact ⟨known, rfl⟩
  · exact ⟨by simp, rfl⟩

/-- Importing aliases finds out their names and then records imports under these names. -/
theorem import_aliases_keeps_of_names {plan : Plan} {invariant : Draft → Prop} {target : Id}
    {file : Node} (resolved : ∀ draft, invariant draft → draft.registry.resolved = true)
    (named : ∀ draft names next, invariant draft →
      (Draft.localsOf { node := target } file.name
        (draft.registry.aliasesOf { node := target })).Returns draft names next → invariant next)
    (record : ∀ draft names role name, invariant draft →
      draft.locals.get? { node := target } = some names →
      (draft.registry.aliasesOf { node := target }).lookup role = some name →
      invariant { draft with
        imports := Import.add {
          fromModule := Location.relativeModule plan.options.suffix draft.file.name file.name
          name
          localName := (names.lookup role).getD name
          owner := target } draft.imports }) (roles : List Role) :
    (Draft.importAliases plan target file roles).Keeps invariant := by
  unfold Draft.importAliases
  dsimp only
  refine .of_bind_returns ?_ fun before given middle start returns _ => ?_
  · intro draft start
    have same : ((Draft.inRegistry (Registry.getAliases { node := target })).outcome draft).2 =
        { draft with
          registry := ((Registry.getAliases { node := target }).outcome draft.registry).2 } := rfl
    rw [same, Registry.get_aliases_state, Registry.resolve_of_resolved (resolved draft start)]
    exact start
  · obtain ⟨_, asks, rfl⟩ := Step.Returns.on_part_iff.mp returns
    obtain ⟨rfl, rfl⟩ := get_aliases_returns (resolved before start) asks
    -- the names are fixed from here on, and the aliases they stand for are too
    have records : ∀ names, (roles.mapM (Draft.importAlias plan file { node := target }
        (before.registry.aliasesOf { node := target }) names)).Keeps fun draft =>
          invariant draft ∧ draft.locals.get? { node := target } = some names ∧
            draft.registry = before.registry := by
      intro names
      refine .of_mapM fun role _ draft kept => ?_
      obtain ⟨holds, known, same⟩ := kept
      unfold Draft.importAlias
      split
      · exact ⟨holds, known, same⟩
      · rename_i name found
        rw [← same] at found
        exact ⟨record draft names role name holds known found, known, same⟩
    obtain ⟨names, next, answers⟩ := locals_of_answers { node := target } file.name
      (before.registry.aliasesOf { node := target }) before
    obtain ⟨known, same⟩ := locals_of_keeps_registry answers
    rw [Step.outcome_bind, answers]
    exact (records names next ⟨named before names next start answers, known, same⟩).1

/-- Importing aliases gives them names if they have none yet, and then records imports under these
names. -/
theorem import_aliases_keeps {plan : Plan} {invariant : Draft → Prop} {target : Id} {file : Node}
    (resolved : ∀ draft, invariant draft → draft.registry.resolved = true)
    (rename : ∀ draft aliases, invariant draft →
      aliases = draft.registry.aliasesOf { node := target } →
      invariant { draft with
        locals := draft.locals.set { node := target }
          (Draft.qualified (Draft.freeQualifier (draft.takenNames { node := target }) file.name
            aliases) aliases) })
    (record : ∀ draft names role name, invariant draft →
      draft.locals.get? { node := target } = some names →
      (draft.registry.aliasesOf { node := target }).lookup role = some name →
      invariant { draft with
        imports := Import.add {
          fromModule := Location.relativeModule plan.options.suffix draft.file.name file.name
          name
          localName := (names.lookup role).getD name
          owner := target } draft.imports }) (roles : List Role) :
    (Draft.importAliases plan target file roles).Keeps invariant := by
  refine import_aliases_keeps_of_names resolved (fun draft names next start returns => ?_) record roles
  rcases locals_of_returns returns with ⟨_, rfl⟩ | ⟨_, rfl, rfl⟩
  · exact start
  · exact rename draft _ start rfl

section Frame

variable {plan : Plan} {file : Node} {aliases : List Alias}

theorem import_aliases_drafting {declaring : Node} {target : Id}
    (inFile : plan.graph.file target = .ok declaring) (roles : List Role) :
    (Draft.importAliases plan target declaring roles).Keeps (Drafting plan file aliases) := by
  refine import_aliases_keeps (fun draft drafting => drafting.resolved) ?_ ?_ roles
  · intro draft _ drafting _
    exact { drafting with }
  · intro draft names role name drafting _ found
    refine { drafting with imports := ?_ }
    intro entry member
    rcases mem_add member with rfl | earlier
    · refine ⟨declaring, inFile, by rw [drafting.ofFile], ?_⟩
      rw [← drafting.resolution]
      exact mem_aliases_of found
    · exact drafting.imports entry earlier

/-- Each elementary step of a draft keeps its aliases and records imports of aliases. -/
theorem drafting_frame (located : plan.Located) : Frame plan (Drafting plan file aliases) where
  targets target reference known := (located target reference known).1
  markReferenced _ _ drafting := { drafting with }
  anyPointer _ drafting := { drafting with }
  note _ _ drafting := { drafting with }
  markDeclared _ _ drafting := { drafting with }
  bind _ _ := bind_keeps fun _ _ _ drafting => { drafting with }
  getAlias := get_alias_keeps fun _ drafting => drafting.resolved
  importAliases target reference declaring roles draft known found _ := by
    obtain ⟨_, other, inFile, same⟩ := located target reference known
    rw [same, Graph.node?_of_file inFile] at found
    cases found
    exact import_aliases_drafting inFile roles draft

end Frame

end SchemaStubs.Stub
