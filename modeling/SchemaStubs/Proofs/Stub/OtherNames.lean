import SchemaStubs.Proofs.Stub.RenamedAliases
import SchemaStubs.Proofs.Stub.RenamedDrafts
import SchemaStubs.Stub.Generation

/-!
Identifiers are only names, and the nodes of a schema stand in no order. A run over a schema whose nodes
have other names, or whose document lists them in another order, gives the same stubs or fails as well.
-/

namespace SchemaStubs.Stub

open Step

namespace Generation

def Drafted.rename (anew : Relabeling) (drafted : Drafted) : Drafted where
  file := drafted.file.rename anew
  imports := drafted.imports.map (Import.rename anew)
  stub := drafted.stub

theorem Drafted.rename_refl (drafted : Drafted) : drafted.rename .refl = drafted := by
  have imports : drafted.imports.map (Import.rename .refl) = drafted.imports :=
    List.map_id drafted.imports
  rw [rename, drafted.file.rename_refl, imports]

theorem public_names_refl (registry : Registry) (drafts : List Drafted) (journal : List Journal.Event) :
    publicNames { registry.rename .refl with journal } (drafts.map (Drafted.rename .refl)) =
      publicNames registry drafts := by
  have aliases : registry.aliases.map (Alias.rename .refl) = registry.aliases :=
    List.map_id registry.aliases
  have table : ({ registry.rename .refl with journal } : Registry).table = registry.table :=
    congrArg (sortBy Alias.listedBefore) aliases
  rw [funext Drafted.rename_refl, List.map_id']
  unfold publicNames
  rw [table]

section Runs

variable {anew : Relabeling}

theorem lockstep_add_file {plan plan' : Plan} (renamed : plan.Renamed anew plan') (before : List Drafted)
    (target : Id) :
    Lockstep (Registry.Follows anew) (List.map (Drafted.rename anew)) (addFile plan before target)
      (addFile plan' (before.map (Drafted.rename anew)) (anew target)) := by
  refine .of_bind (.of_of_except (renamed.graph.file target)) fun file => ?_
  have earlier : ∀ path, (before.map (Drafted.rename anew)).find? (fun drafted =>
      drafted.stub.path == path) =
        (before.find? fun drafted => drafted.stub.path == path).map (Drafted.rename anew) := by
    intro path
    rw [List.find?_map]
    rfl
  dsimp only
  rw [earlier, Node.rename_name, renamed.options]
  cases before.find? fun drafted =>
      drafted.stub.path == Location.outputPath plan.options.suffix file.name with
  | some other => exact .of_fail _ _
  | none =>
      refine .of_within_bind (lockstep_compose renamed file) ?_ (fun _ _ follows => follows.registry) ?_
      · rintro registry _ ⟨journal, rfl⟩
        exact ⟨journal, rfl⟩
      · rintro content reached _ ⟨journal, rfl⟩
        refine .of_bind (Registry.lockstep_note _ _) fun _ => .of_pure ?_
        rw [List.map_append]
        rfl

theorem lockstep_draft_all (options : Options) {graph graph' : Graph}
    (renamed : graph.Renamed anew graph') :
    Lockstep (Registry.Follows anew) (List.map (Drafted.rename anew)) (draftAll options graph)
      (draftAll options graph') := by
  unfold draftAll
  dsimp only
  rw [renamed.requested, Lists.eraseDups_map anew.injective]
  refine .of_within_bind (Walk.lockstep_run renamed _) ?_ (fun _ _ follows => follows.registry) ?_
  · rintro registry _ ⟨journal, rfl⟩
    exact ⟨journal, rfl⟩
  · rintro _ walk _ ⟨journal, rfl⟩
    refine .of_bind (lockstep_request_aliases renamed walk.order) fun _ => ?_
    refine .of_bind Registry.lockstep_resolve fun _ => ?_
    have planned : Plan.Renamed anew ⟨graph, options, walk.order, walk.references⟩
        ⟨graph', options, (walk.rename anew).order, (walk.rename anew).references⟩ :=
      ⟨renamed, rfl, rfl, Table.get?_translate anew.injective walk.references⟩
    exact .of_foldlM (fun target _ before => lockstep_add_file planned before target) []

/-- A run ends as the drafts of all its stubs do, unless some node was referred to and not declared. -/
theorem generate_outcome (options : Options) (graph : Graph) :
    (generate options graph).1 = match (draftAll options graph).outcome {} with
      | (.ok drafts, registry) =>
          if registry.undeclared.isEmpty then
            .ok { files := drafts.map Drafted.stub, names := publicNames registry drafts }
          else .error (Cause.pendingReference registry.undeclared)
      | (.error fault, _) => .error fault := by
  have whole : (generate options graph).1 = ((run options graph).outcome {}).1 := rfl
  rw [whole]
  unfold run
  rw [outcome_bind]
  rcases (draftAll options graph).outcome {} with ⟨_ | drafts, registry⟩
  · rfl
  · dsimp only
    rw [outcome_bind, outcome_get]
    dsimp only
    cases registry.undeclared.isEmpty with
    | true => rfl
    | false => rfl

/-- Runs over a schema and over the schema with other names give the same stubs, or both fail. -/
theorem generate_alike (options : Options) {graph graph' : Graph}
    (renamed : graph.Renamed anew graph') :
    (∃ drafts registry journal,
      (generate options graph).1 =
        .ok { files := drafts.map Drafted.stub, names := publicNames registry drafts } ∧
      (generate options graph').1 =
        .ok { files := drafts.map Drafted.stub
              names := publicNames { registry.rename anew with journal }
                (drafts.map (Drafted.rename anew)) }) ∨
    ∃ fault fault', (generate options graph).1 = .error fault ∧
      (generate options graph').1 = .error fault' := by
  rw [generate_outcome, generate_outcome]
  rcases lockstep_draft_all options renamed {} {} ⟨[], rfl⟩ with
    ⟨drafts, registry, registry', here, there, follows⟩ | ⟨⟨fault, _, here⟩, ⟨fault', _, there⟩⟩
  · rw [here, there]
    dsimp only
    rw [follows.undeclared]
    cases registry.undeclared.isEmpty with
    | false => exact .inr ⟨_, _, rfl, rfl⟩
    | true =>
        obtain ⟨journal, rfl⟩ := follows
        refine .inl ⟨drafts, registry, journal, rfl, ?_⟩
        rw [List.map_map]
        rfl
  · rw [here, there]
    exact .inr ⟨fault, fault', rfl, rfl⟩

end Runs

end Generation

section Documents

variable (options : Options)

/-- The output for a document: the graph of its nodes and requests is built, and the stubs are
generated. -/
def outputOf (entries : List (Option Node)) (requested : List Id) : Except Fault Output := do
  let graph ← Graph.build entries requested
  (generate options graph).1

/-- A document whose nodes have other names gives the same files, or none if there were none. -/
theorem files_under_other_names (anew : Relabeling) (entries : List (Option Node)) (requested : List Id) :
    (outputOf options (entries.map (Option.map (Node.rename anew))) (requested.map anew)).toOption.map
        Output.files =
      (outputOf options entries requested).toOption.map Output.files := by
  have built := Graph.build_rename anew entries requested
  unfold outputOf
  revert built
  generalize Graph.build entries requested = here
  generalize Graph.build _ _ = there
  rintro (graph | ⟨fault, fault'⟩)
  · change ((generate options (graph.rename anew)).1).toOption.map Output.files =
      ((generate options graph).1).toOption.map Output.files
    rcases Generation.generate_alike options (graph.renamed_rename anew) with
      ⟨drafts, registry, journal, here, there⟩ | ⟨fault, fault', here, there⟩
    · rw [here, there]
      rfl
    · rw [here, there]
      rfl
  · rfl

/-- A document that lists its nodes in another order is accepted if it was before, and has the same
output, or none if there was none. -/
theorem output_in_any_order {entries others : List (Option Node)} (perm : entries.Perm others)
    (requested : List Id) :
    ((∃ one, Graph.build entries requested = .ok one) ↔
      ∃ two, Graph.build others requested = .ok two) ∧
    (outputOf options entries requested).toOption = (outputOf options others requested).toOption := by
  have accepted : ∀ {entries others : List (Option Node)}, entries.Perm others →
      (∃ one, Graph.build entries requested = .ok one) →
        ∃ two, Graph.build others requested = .ok two := by
    rintro entries others perm ⟨one, built⟩
    obtain ⟨two, built', _⟩ := Graph.build_perm perm built
    exact ⟨two, built'⟩
  refine ⟨⟨accepted perm, accepted perm.symm⟩, ?_⟩
  unfold outputOf
  rcases built : Graph.build entries requested with fault | one
  · rcases built' : Graph.build others requested with fault' | two
    · rfl
    · obtain ⟨one, other⟩ := accepted perm.symm ⟨two, built'⟩
      rw [built] at other
      cases other
  · obtain ⟨two, built', renamed⟩ := Graph.build_perm perm built
    rw [built']
    change (generate options one).1.toOption = (generate options two).1.toOption
    rcases Generation.generate_alike options renamed with
      ⟨drafts, registry, journal, here, there⟩ | ⟨fault, fault', here, there⟩
    · rw [here, there, Generation.public_names_refl]
    · rw [here, there]
      rfl

end Documents

def backwards : List Node := [
  { id := 2, kind := .const, name := "size", displayName := "size", scope := 1,
    constType := some { kind := .int32 } },
  { id := 1, kind := .file, name := "coats", displayName := "coats", nested := [2] }]

def traded : List Node := [
  { id := 1, kind := .const, name := "size", displayName := "size", scope := 2,
    constType := some { kind := .int32 } },
  { id := 2, kind := .file, name := "coats", displayName := "coats", nested := [1] }]

theorem files_under_other_names_traded :
    ∃ files, (outputOf {} (backwards.map some) [1]).toOption.map Output.files = some files ∧
      (outputOf {} (traded.map some) [2]).toOption.map Output.files = some files := by
  have passed : (outputOf {} (backwards.map some) [1]).toOption.isSome = true := by decide +kernel
  obtain ⟨output, given⟩ := Option.isSome_iff_exists.mp passed
  have same := files_under_other_names {} (.swap 1 2 (by decide) (by decide)) (backwards.map some) [1]
  have renamed : (backwards.map some).map (Option.map (Node.rename (.swap 1 2 (by decide)
      (by decide)))) = traded.map some := rfl
  have requested : [1].map (Relabeling.swap 1 2 (by decide) (by decide)) = [2] := by decide +kernel
  rw [renamed, requested, given] at same
  exact ⟨output.files, by rw [given]; rfl, same⟩

theorem output_in_any_order_backwards :
    (backwards.map some).Perm (backwards.reverse.map some) ∧
      ∃ output, (outputOf {} (backwards.map some) [1]).toOption = some output ∧
        (outputOf {} (backwards.reverse.map some) [1]).toOption = some output := by
  have perm : (backwards.map some).Perm (backwards.reverse.map some) :=
    (List.reverse_perm backwards).symm.map some
  have passed : (outputOf {} (backwards.map some) [1]).toOption.isSome = true := by decide +kernel
  obtain ⟨output, given⟩ := Option.isSome_iff_exists.mp passed
  exact ⟨perm, output, given, (output_in_any_order {} perm [1]).2 ▸ given⟩

end SchemaStubs.Stub
