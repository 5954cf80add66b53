import SchemaStubs.Proofs.Stub.Drafts
import SchemaStubs.Proofs.Stub.FileRequests
import SchemaStubs.Proofs.Walk.References

/-!
The course of a successful run: the files that the walk met are asked, the aliases are resolved, and
the stubs of the requested files are drafted with them.
-/

namespace SchemaStubs.Stub

open Generation

/-- A run that gives an output has drafted the stubs and left nothing undeclared. -/
theorem generate_returns {options : Options} {graph : Graph} {output : Output}
    (ran : (generate options graph).1 = .ok output) :
    ∃ drafts registry, (draftAll options graph).Returns {} drafts registry ∧
      registry.undeclared = [] ∧ output = ⟨drafts.map Drafted.stub, publicNames registry drafts⟩ := by
  have whole : (generate options graph).1 = ((run options graph).outcome {}).1 := rfl
  rw [whole] at ran
  have returns : (run options graph).Returns {} output ((run options graph).outcome {}).2 :=
    Prod.ext ran rfl
  unfold run at returns
  simp only [Step.Returns.bind_iff, Step.Returns.get_iff] at returns
  obtain ⟨drafts, registry, drafted, _, _, ⟨rfl, rfl⟩, returns⟩ := returns
  refine ⟨drafts, registry, drafted, ?_⟩
  split at returns
  · exact (Step.Returns.fail_iff.mp returns).elim
  · rename_i settled
    obtain ⟨_, _, _, last⟩ := Step.Returns.bind_iff.mp returns
    obtain ⟨rfl, _⟩ := Step.Returns.pure_iff.mp last
    exact ⟨by simpa using settled, rfl⟩

theorem generate_ok {options : Options} {graph : Graph} {output : Output}
    (ran : (generate options graph).1 = .ok output) :
    ∃ drafts registry, (draftAll options graph).Returns {} drafts registry ∧
      output.files = drafts.map Drafted.stub ∧ output.names = publicNames registry drafts := by
  obtain ⟨drafts, registry, returns, _, rfl⟩ := generate_returns ran
  exact ⟨drafts, registry, returns, rfl, rfl⟩

section Asking

variable {graph : Graph} {invariant : Registry → Prop}

/-- Asking for aliases reserves names, registers declarations and makes requests. -/
theorem request_aliases_keeps (reached : List Id)
    (registers : ∀ id, (Registry.register graph id).Keeps invariant)
    (reserves : ∀ file name owner, (Registry.reserve file name owner).Keeps invariant)
    (requests : ∀ wish, (Registry.request wish).Keeps invariant) :
    (requestAliases graph reached).Keeps invariant := by
  refine .of_forM fun file _ => .of_bind (.of_forM fun node _ => ?_) fun _ => ?_
  · split
    · exact .of_pure _
    · exact reserves _ _ _
  · refine .of_forM fun entry _ => ?_
    unfold requestDeclaration
    split
    · exact .of_pure _
    · refine .of_bind (registers _) fun _ => ?_
      refine .of_bind .of_get fun registry => .of_bind (.of_of_except _) fun wishes => ?_
      exact .of_forM fun wish _ => requests wish

/-- Of what does not depend on reservations and requests, registering alone decides. -/
theorem request_aliases_keeps_of_register (reached : List Id)
    (registers : ∀ id, (Registry.register graph id).Keeps invariant)
    (blind : ∀ registry requests reserved, invariant registry →
      invariant { registry with requests, reserved }) :
    (requestAliases graph reached).Keeps invariant := by
  refine request_aliases_keeps reached registers (fun file name owner => ?_) fun wish registry holds => ?_
  · refine .of_modify fun registry holds => ?_
    split
    · exact holds
    · exact blind registry registry.requests _ holds
  · rcases Registry.request_cases wish registry with same | ⟨_, _, _, taken⟩
    · rwa [same]
    · rw [taken]
      exact blind registry _ registry.reserved holds

end Asking

theorem request_aliases_coherent (graph : Graph) (reached : List Id) :
    (requestAliases graph reached).Keeps Registry.Coherent := by
  have effect : ∀ operation registry, Registry.Coherent registry →
      Registry.Coherent (Registry.Operation.effect graph operation registry) :=
    fun operation _ => Registry.effect_coherent graph operation
  exact request_aliases_keeps reached (fun id => effect (.register id))
    (fun file name owner => effect (.reserve file name owner)) fun wish => effect (.request wish)

structure Course (plan : Plan) (asked resolved : Registry) (drafts : List Drafted)
    (reached : Registry) : Prop where
  inquiry : Inquiry plan.graph (declaringFiles plan.graph plan.order) asked
  requested : ∀ id ∈ plan.graph.requested, id ∈ plan.order
  resolves : Registry.resolve.Returns asked () resolved
  coherent : resolved.Coherent
  delivery : Delivery plan resolved plan.graph.requested.eraseDups drafts reached

/-- Before a file is asked the registry has identifiers only. -/
def Unasked (registry : Registry) : Prop :=
  registry.requests = [] ∧ registry.reserved = {} ∧ registry.aliases = [] ∧
    registry.resolved = false ∧ registry.Coherent

theorem Unasked.wished {graph : Graph} {registry : Registry} (unasked : Unasked registry)
    (canonical : registry.Canonical graph) : Wished graph [] registry := by
  obtain ⟨requests, _, aliases, resolved, _⟩ := unasked
  exact ⟨canonical, aliases, resolved, by simp [requests], by simp⟩

theorem Unasked.inquiry {graph : Graph} {registry : Registry} (unasked : Unasked registry)
    (canonical : registry.Canonical graph) : Inquiry graph [] registry := by
  refine ⟨unasked.wished canonical, by simp, fun id _ => ⟨?_, fun name => ?_⟩⟩
  all_goals obtain ⟨requests, reserved, _⟩ := unasked
  · simp [Registry.requestsIn, requests]
  · rw [reserved]
    rfl

theorem survey_returns {graph : Graph} {walk : Walk} {surveyed : Registry}
    (returns : (survey graph graph.requested.eraseDups).Returns {} walk surveyed) :
    surveyed = walk.registry ∧ Walk.Traverses graph graph.requested.eraseDups [] walk ∧
      Walk.Referenced graph [] walk ∧ Unasked walk.registry ∧
      ∀ id ∈ graph.requested, id ∈ walk.order := by
  obtain ⟨_, _, walks, rfl, rfl⟩ := Step.Returns.within_iff.mp returns
  obtain ⟨⟨traverses, referenced⟩, _, seen⟩ :=
    (Walk.referenced_carries graph graph.requested.eraseDups).run (fun _ member => member)
      ⟨Walk.Traverses.start graph _, Walk.Referenced.start graph⟩ walks
  have quiet : Unasked _ :=
    ((Walk.registry_carries graph graph.requested.eraseDups
      (fun _ _ _ _ ⟨requests, reserved, aliases, fresh, coherent⟩ =>
        ⟨requests, reserved, aliases, fresh, { coherent with }⟩)).run (fun _ member => member)
      ⟨rfl, rfl, rfl, rfl, Registry.coherent_empty⟩ walks).1
  refine ⟨rfl, traverses, referenced, quiet, fun id member => ?_⟩
  exact (traverses.order_iff id).mpr (seen id (List.mem_eraseDups.mpr member))

theorem drafted_of_imports {options : Options} {graph : Graph} {drafts : List Drafted}
    {registry : Registry} (returns : (draftAll options graph).Returns {} drafts registry)
    {entry : Import}
    (recorded : (((draftAll options graph).outcome {}).1.toOption.map fun drafts =>
      drafts.flatMap Drafted.imports) = some [entry]) :
    ∃ drafted ∈ drafts, entry ∈ drafted.imports := by
  rw [returns] at recorded
  have whole : drafts.flatMap Drafted.imports = [entry] := Option.some.inj recorded
  exact List.mem_flatMap.mp (whole ▸ List.mem_singleton_self entry)

/-- A run that drafts its stubs walks, asks for the aliases, resolves them, and then drafts one stub
after the other. -/
theorem draft_all_returns {options : Options} {graph : Graph} {start reached : Registry}
    {drafts : List Drafted} (returns : (draftAll options graph).Returns start drafts reached) :
    ∃ walk surveyed asked resolved,
      (survey graph graph.requested.eraseDups).Returns start walk surveyed ∧
      (requestAliases graph walk.order).Returns surveyed () asked ∧
      Registry.resolve.Returns asked () resolved ∧
      (graph.requested.eraseDups.foldlM (addFile {
        graph, options, order := walk.order, references := walk.references }) []).Returns
          resolved drafts reached := by
  unfold draftAll at returns
  simp only [Step.Returns.bind_iff] at returns
  obtain ⟨walk, surveyed, surveys, _, asked, asks, _, resolved, resolves, delivers⟩ := returns
  exact ⟨walk, surveyed, asked, resolved, surveys, asks, resolves, delivers⟩

theorem draft_all_course {options : Options} {entries : List (Option Node)} {requested : List Id}
    {graph : Graph} (built : Graph.build entries requested = .ok graph)
    (wellScoped : graph.WellScoped) {drafts : List Drafted} {reached : Registry}
    (returns : (draftAll options graph).Returns {} drafts reached) :
    ∃ plan asked resolved, plan.graph = graph ∧ plan.options = options ∧
      Course plan asked resolved drafts reached := by
  obtain ⟨walk, _, asked, resolved, surveys, asks, resolves, delivers⟩ := draft_all_returns returns
  obtain ⟨rfl, traverses, referenced, quiet, met⟩ := survey_returns surveys
  have inquiry := request_aliases_returns wellScoped built (quiet.inquiry traverses.canonical) asks
  have coherent : resolved.Coherent := by
    have before := (request_aliases_coherent graph walk.order).returns asks quiet.2.2.2.2
    have after := Registry.resolve_coherent before
    rwa [resolves] at after
  have done := (Registry.resolve_requests inquiry.resolved resolves).2
  refine ⟨{ graph, options, order := walk.order, references := walk.references }, asked, resolved,
    rfl, rfl, inquiry, met, resolves, coherent, .of_returns ?_ done delivers⟩
  intro target reference known
  obtain ⟨_, aimed, _, _, file, _, _, inFile, same, _⟩ := referenced.located traverses known
  exact ⟨aimed, file, inFile, same⟩

end SchemaStubs.Stub
