import SchemaStubs.Proofs.Stub.Polling
import SchemaStubs.Proofs.Stub.SameText

/-!
What a stub owes to the other files of a run. Files that are requested together share a walk and a
registry. A file keeps its path and its public names whatever it is requested with; its blocks stand in
the order in which the walk met its declarations, and that is all the other files have a say in.
-/

namespace SchemaStubs.Stub

open Generation

def Plans (options : Options) (graph : Graph) (plan : Plan) : Prop :=
  ∃ walk surveyed, (survey graph graph.requested.eraseDups).Returns {} walk surveyed ∧
    plan = { graph, options, order := walk.order, references := walk.references }

structure Reserving (registry : Registry) (file : Node) (draft : Draft) : Prop
    extends Standing registry file draft where
  reserved : draft.registry.reserved = registry.reserved

theorem reserving_frame {plan : Plan} (located : plan.Located) (registry : Registry) (file : Node) :
    Frame plan (Reserving registry file) where
  targets target reference known := (located target reference known).1
  markReferenced _ _ reserving := { reserving with }
  anyPointer _ reserving := { reserving with }
  importAliases _ _ _ roles _ _ _ _ :=
    import_aliases_keeps (fun _ reserving => reserving.resolved)
      (fun _ _ reserving _ => { reserving with })
      (fun _ _ _ _ reserving _ _ => { reserving with }) roles _
  note _ _ reserving := { reserving with }
  markDeclared _ _ reserving := { reserving with }
  bind _ _ := bind_keeps fun _ _ _ reserving => { reserving with }
  getAlias := get_alias_keeps fun _ reserving => reserving.resolved

/-- Every stub of a run is composed with the reservations of the resolution. -/
theorem drafts_reserving {plan : Plan} (located : plan.Located) {resolved reached : Registry}
    (done : resolved.resolved = true) {ids : List Id} {drafts : List Drafted}
    (delivers : (ids.foldlM (addFile plan) []).Returns resolved drafts reached) :
    (∀ file, Reserving resolved file { registry := reached, file }) ∧
      ∀ drafted ∈ drafts, ∃ current draft,
        Reserving resolved drafted.file { registry := current, file := drafted.file } ∧
        (compose plan drafted.file).Returns { registry := current, file := drafted.file }
          drafted.stub.content draft := by
  obtain ⟨last, _, composed⟩ := drafts_composed
    (fun registry => ∀ file, Reserving resolved file { registry, file })
    (by
      intro file before content draft journal begins composes other
      have stands := ((reserving_frame located resolved file).compose file).returns composes
        (begins file)
      exact ⟨⟨rfl, stands.resolved, stands.aliases, stands.internal⟩, stands.reserved⟩)
    delivers (fun _ => ⟨⟨rfl, done, rfl, rfl⟩, rfl⟩)
  refine ⟨last, fun drafted member => ?_⟩
  obtain ⟨_, current, draft, begins, _, composes⟩ := composed drafted member
  exact ⟨current, draft, begins drafted.file, composes⟩

/-- A run that succeeded, as far as its stubs depend on it. -/
structure Journey (options : Options) (graph : Graph) (output : Output) (plan : Plan)
    (asked resolved : Registry) : Prop where
  plans : Plans options graph plan
  ofGraph : plan.graph = graph
  ofOptions : plan.options = options
  prepared : Prepared plan asked resolved
  polled : Polled graph (declaringFiles graph plan.order) asked
  subjects : (asked.requests.map Request.subject).Nodup
  /-- A reference is one to a node that was met. -/
  met : ∀ target reference, plan.references.get? target = some reference →
    target ∈ plan.order ∧ ∃ node, graph.node? target = some node ∧ reference.kind = node.kind
  stub : ∀ id ∈ graph.requested, ∀ file, graph.file id = .ok file →
    ∃ stub current draft, output.file? file.name = some stub ∧
      stub.path = Location.outputPath options.suffix file.name ∧
      Reserving resolved file { registry := current, file } ∧
      (compose plan file).Returns { registry := current, file } stub.content draft

theorem Delivery.file? {plan : Plan} {registry reached : Registry} {ids : List Id}
    {drafts : List Drafted} (delivery : Delivery plan registry ids drafts reached) {output : Output}
    (files : output.files = drafts.map Drafted.stub) {drafted : Drafted} (member : drafted ∈ drafts) :
    output.file? drafted.file.name = some drafted.stub := by
  unfold Output.file?
  rw [files]
  rcases found : (drafts.map Drafted.stub).find? fun stub => stub.source == drafted.file.name with
    _ | stub
  · have missing := List.find?_eq_none.mp found drafted.stub (List.mem_map_of_mem member)
    simp [(delivery.each drafted member).source] at missing
  · obtain ⟨other, listed, rfl⟩ := List.mem_map.mp (List.mem_of_find?_eq_some found)
    have named := List.find?_some found
    rw [(delivery.each other listed).source] at named
    rw [delivery.eq_of_name listed member (by simpa using named)] at found
    exact found

theorem journey_of_generate {options : Options} {graph : Graph} {output : Output}
    (ran : (generate options graph).1 = .ok output) :
    ∃ plan asked resolved, Journey options graph output plan asked resolved := by
  obtain ⟨drafts, registry, returns, files, _⟩ := generate_ok ran
  obtain ⟨walk, surveyed, asked, resolved, surveys, asks, resolves, delivers⟩ :=
    draft_all_returns returns
  have prepared := prepared_of_returns options surveys asks resolves
  let plan : Plan := { graph, options, order := walk.order, references := walk.references }
  obtain ⟨rfl, traverses, referenced, quiet, _⟩ := survey_returns surveys
  have polled := request_aliases_polled (quiet.polled traverses.canonical) asks
  have subjects := ((request_aliases_coherent graph walk.order).returns asks quiet.2.2.2.2).subjects
  have delivery := Delivery.of_returns prepared.plan_located prepared.resolved delivers
  obtain ⟨_, composed⟩ := drafts_reserving prepared.plan_located prepared.resolved delivers
  refine ⟨plan, asked, resolved, ⟨walk, _, surveys, rfl⟩, rfl, rfl, prepared, polled, subjects, ?_, ?_⟩
  · intro target reference known
    obtain ⟨_, _, _, node, _, found, kind, _⟩ := referenced.located traverses known
    exact ⟨referenced.mem_order traverses known, node, found, kind⟩
  · intro id inRequested file inFile
    obtain ⟨drafted, member, rfl⟩ := delivery.drafted_of_mem (List.mem_eraseDups.mpr inRequested) inFile
    obtain ⟨current, draft, begins, composes⟩ := composed drafted member
    exact ⟨drafted.stub, current, draft, delivery.file? files member,
      (delivery.each drafted member).path, begins, composes⟩

theorem Plans.mem_order {options : Options} {graph : Graph} {plan : Plan}
    (plans : Plans options graph plan) (housed : graph.Housed) {id : Id} {file : Node}
    (inFile : graph.file id = .ok file) (met : file.id ∈ plan.order) : id ∈ plan.order := by
  obtain ⟨walk, surveyed, surveys, rfl⟩ := plans
  obtain ⟨_, traverses, _⟩ := survey_returns surveys
  obtain ⟨node, scopes, found, chain⟩ := Graph.file_eq_ok_iff.mp inFile
  cases Graph.id_of_node? found
  -- from the file down the scopes: a scope that was met leads to what stands in it
  induction chain with
  | file _ => exact met
  | @up node scope file rest inner scopeFound above induction =>
      have sameId := Graph.id_of_node? scopeFound
      rw [← sameId] at scopeFound
      have scopeMet := induction met (Graph.file_eq_ok_iff.mpr ⟨_, _, scopeFound, above⟩) scopeFound
      obtain ⟨dependency, listed, isNode⟩ :=
        housed.depends (Graph.mem_of_node? found) inner (sameId ▸ scopeFound)
      have complete := (traverses.mem_order_iff_complete scope.id).mp scopeMet
      have edge := traverses.closed scope.id scope complete scopeFound dependency listed
      rw [← isNode]
      exact (traverses.met _ edge).2.1

/-- The aliases of a node that a run gave out are aliases of the file of the node. -/
theorem Prepared.placed {plan : Plan} {asked registry : Registry}
    (prepared : Prepared plan asked registry) {id : Id} {file : Node}
    (inFile : plan.graph.file id = .ok file) {entry : Alias} (member : entry ∈ registry.aliases)
    (subject : entry.subject = { node := id }) : entry.file = file.id := by
  obtain ⟨_, _, declaring, _, _, _, ofNode, ofEntry, _⟩ :=
    prepared.wished.origin prepared.resolves prepared.coherent member subject
  rw [inFile] at ofNode
  cases ofNode
  exact ofEntry

section TwoRuns

variable {options : Options} {one two : Graph} {oneOutput twoOutput : Output} {onePlan twoPlan : Plan}
  {oneAsked oneResolved twoAsked twoResolved : Registry}

/-- A file that two runs over the same nodes met has the same aliases and reservations in both. -/
theorem Journey.agree (same : one.nodes = two.nodes) (housed : one.Housed)
    (first : Journey options one oneOutput onePlan oneAsked oneResolved)
    (second : Journey options two twoOutput twoPlan twoAsked twoResolved) {id : Id} {file : Node}
    (inOne : id ∈ onePlan.order) (inTwo : id ∈ twoPlan.order) (inFile : one.file id = .ok file) :
    Registry.Agree file.id oneResolved twoResolved := by
  have inFile' : two.file id = .ok file := Graph.file_congr same id ▸ inFile
  have met := mem_declaring_files_iff.mpr ⟨id, inOne, inFile⟩
  have met' := mem_declaring_files_iff.mpr ⟨id, inTwo, inFile'⟩
  obtain ⟨asked, asks, requests⟩ :=
    first.polled.requestsIn housed first.subjects met (Graph.node?_of_file inFile)
  obtain ⟨asked', asks', requests'⟩ :=
    second.polled.requestsIn (housed.congr same) second.subjects met' (Graph.node?_of_file inFile')
  have wishes : oneAsked.requestsIn file.id = twoAsked.requestsIn file.id := by
    rw [← declaration_entries_congr same] at asks'
    rw [requests, requests', asks.unique (asks'.congr same.symm)]
  have agree : Registry.Agree file.id oneAsked twoAsked := by
    refine ⟨by simp [Registry.aliasesIn, first.polled.aliases, second.polled.aliases], fun name => ?_⟩
    -- of all files asked, only the file itself keeps names of its own
    have kept : ∀ {graph : Graph} {files : List Node} {registry : Registry},
        Polled graph files registry → file ∈ files → graph.node? file.id = some file →
        (∀ other ∈ files, graph.node? other.id = some other) →
        (registry.reserved.contains (file.id, name) = true ↔ name ∈ topLevelNames graph file) := by
      intro graph files registry polled listed found each
      rw [polled.reserved]
      constructor
      · rintro ⟨other, inFiles, sameId, kept⟩
        have known := each other inFiles
        rw [sameId, found] at known
        cases known
        exact kept
      · exact fun kept => ⟨file, listed, rfl, kept⟩
    have each : ∀ {graph : Graph} {ids : List Id}, ∀ other ∈ declaringFiles graph ids,
        graph.node? other.id = some other := by
      intro graph ids other listed
      obtain ⟨_, _, inOther⟩ := mem_declaring_files_iff.mp listed
      exact Graph.node?_of_file inOther
    rw [Bool.eq_iff_iff, kept first.polled met (Graph.node?_of_file inFile) each,
      kept second.polled met' (Graph.node?_of_file inFile') each, top_level_names_congr same]
  exact Registry.resolve_agree agree wishes first.polled.resolved second.polled.resolved
    first.prepared.resolves second.prepared.resolves

/-- What two runs over the same nodes have in common for a file that both met. -/
theorem Journey.common (same : one.nodes = two.nodes) (housed : one.Housed)
    (first : Journey options one oneOutput onePlan oneAsked oneResolved)
    (second : Journey options two twoOutput twoPlan twoAsked twoResolved) {file : Node}
    (inOne : file.id ∈ onePlan.order) (inTwo : file.id ∈ twoPlan.order)
    (inFile : one.file file.id = .ok file) : Common onePlan twoPlan oneResolved twoResolved file := by
  obtain ⟨rfl, rfl⟩ := And.intro first.ofGraph second.ofGraph
  have internal : ∀ id internal other, oneResolved.internal? id = some internal →
      twoResolved.internal? id = some other → internal = other := by
    intro id internal other here there
    obtain ⟨node, found, identified⟩ := first.prepared.canonical id internal here
    obtain ⟨node', found', identified'⟩ := second.prepared.canonical id other there
    rw [← Graph.node?_congr same, found] at found'
    cases found'
    exact identified.unique (identified'.congr same.symm)
  have placed : ∀ id file, onePlan.graph.file id = .ok file →
      (∀ entry ∈ oneResolved.aliases, entry.subject = { node := id } → entry.file = file.id) ∧
        ∀ entry ∈ twoResolved.aliases, entry.subject = { node := id } → entry.file = file.id :=
    fun id file inside => ⟨fun _ member subject => first.prepared.placed inside member subject,
      fun _ member subject => second.prepared.placed (Graph.file_congr same id ▸ inside) member subject⟩
  exact {
    nodes := same
    options := first.ofOptions.trans second.ofOptions.symm
    oneOrder := first.prepared.distinct
    twoOrder := second.prepared.distinct
    found := Graph.node?_of_file inFile
    internal
    known := by
      intro id met met'
      obtain ⟨_, here, _, _, held⟩ := first.prepared.identified id met
      obtain ⟨_, there, _, _, held'⟩ := second.prepared.identified id met'
      rw [held, held', internal id here there held held']
    references := by
      intro target reference other here there
      obtain ⟨settled, aimed, ⟨declaring, inside, ofFile⟩, held⟩ :=
        first.prepared.located target reference here
      obtain ⟨settled', aimed', ⟨declaring', inside', ofFile'⟩, held'⟩ :=
        second.prepared.located target other there
      obtain ⟨met, node, found, kind⟩ := first.met target reference here
      obtain ⟨met', node', found', kind'⟩ := second.met target other there
      rw [← Graph.node?_congr same, found] at found'
      cases found'
      rw [← Graph.file_congr same, inside] at inside'
      cases inside'
      have alike := internal target _ _ held held'
      refine ⟨?_, aimed, ?_⟩
      · cases reference
        cases other
        simp_all
      · obtain ⟨inOne, inTwo⟩ := placed target declaring inside
        rw [aliases_of_eq inOne, aliases_of_eq inTwo,
          (first.agree same housed second met met' inside).aliases]
    own := first.agree same housed second inOne inTwo inFile
    coherent := first.prepared.coherent
    placed := fun id inside => placed id file inside }

end TwoRuns

/-- The stub of a file that two runs over the same nodes are asked for, beside whatever other files. It has
one path in both, and where the two walks meet the top level of the file in one order, one text. -/
theorem stub_independent {options : Options} {entries : List (Option Node)}
    {oneRequested twoRequested : List Id} {one two : Graph}
    (oneBuilt : Graph.build entries oneRequested = .ok one)
    (twoBuilt : Graph.build entries twoRequested = .ok two) (housed : one.Housed)
    {oneOutput twoOutput : Output} (oneRan : (generate options one).1 = .ok oneOutput)
    (twoRan : (generate options two).1 = .ok twoOutput) {file : Node}
    (found : one.node? file.id = some file) (inOne : file.id ∈ oneRequested)
    (inTwo : file.id ∈ twoRequested) :
    ∃ onePlan twoPlan oneStub twoStub, Plans options one onePlan ∧ Plans options two twoPlan ∧
      oneOutput.file? file.name = some oneStub ∧ twoOutput.file? file.name = some twoStub ∧
      oneStub.path = twoStub.path ∧
      (topLevelNodes onePlan file.id = topLevelNodes twoPlan file.id →
        oneStub.content = twoStub.content) := by
  have same := Graph.build_same_nodes oneBuilt twoBuilt
  have oneAsks := (Graph.build_ok oneBuilt).2.1
  have twoAsks := (Graph.build_ok twoBuilt).2.1
  subst oneAsks twoAsks
  have inFile := Graph.file_of_requested oneBuilt found inOne
  have inFile' := Graph.file_of_requested twoBuilt (Graph.node?_congr same _ ▸ found) inTwo
  obtain ⟨onePlan, oneAsked, oneResolved, first⟩ := journey_of_generate oneRan
  obtain ⟨twoPlan, twoAsked, twoResolved, second⟩ := journey_of_generate twoRan
  obtain ⟨oneStub, oneStart, oneDraft, isOne, onePath, oneStands, oneComposes⟩ :=
    first.stub file.id inOne file inFile
  obtain ⟨twoStub, twoStart, twoDraft, isTwo, twoPath, twoStands, twoComposes⟩ :=
    second.stub file.id inTwo file inFile'
  refine ⟨onePlan, twoPlan, oneStub, twoStub, first.plans, second.plans, isOne, isTwo,
    onePath.trans twoPath.symm, fun topLevel => ?_⟩
  have metOne : file.id ∈ onePlan.order :=
    first.prepared.requested file.id (first.ofGraph.symm ▸ inOne)
  have metTwo : file.id ∈ twoPlan.order :=
    second.prepared.requested file.id (second.ofGraph.symm ▸ inTwo)
  have common := first.common same housed second metOne metTwo inFile
  have alike : MeetAlike onePlan twoPlan file := by
    refine ⟨fun id inside => ?_, topLevel⟩
    rw [first.ofGraph] at inside
    have inside' : two.file id = .ok file := Graph.file_congr same id ▸ inside
    exact iff_of_true (first.plans.mem_order housed inside metOne)
      (second.plans.mem_order (housed.congr same) inside' metTwo)
  have start : Abreast oneResolved twoResolved file { registry := oneStart, file }
      { registry := twoStart, file } := {
    first := oneStands.toStanding
    second := twoStands.toStanding
    oneReserved := oneStands.reserved
    twoReserved := twoStands.reserved
    imports := rfl
    locals := rfl
    usesAnyPointer := rfl
    bindings := rfl }
  exact (common.compose alike _ _ _ _ _ _ start oneComposes twoComposes).1

def lender : Node :=
  { id := 1, kind := .file, name := "a", displayName := "a", nested := [2, 3] }

/-- A file with two declarations, and a file that refers to the second of them. -/
def borrowed (requested : List Id) : Graph where
  nodes := [
    lender,
    { id := 2, kind := .const, name := "k", displayName := "k", scope := 1,
      constType := some { kind := .int32 } },
    { id := 3, kind := .enum, name := "B", displayName := "B", scope := 1, enumerants := ["x"] },
    { id := 4, kind := .file, name := "b", displayName := "b", nested := [5] },
    { id := 5, kind := .const, name := "c", displayName := "c", scope := 4,
      constType := some { kind := .enum, target := 3 } }]
  requested

theorem borrowed_well_scoped : (borrowed [1]).WellScoped := by
  decide +kernel

def visits (graph : Graph) : Option (List Id) :=
  ((survey graph graph.requested.eraseDups).outcome {}).1.toOption.map Walk.order

theorem Plans.follows {options : Options} {graph : Graph} {plan : Plan} {order : List Id}
    (plans : Plans options graph plan) (visited : visits graph = some order) :
    plan.graph = graph ∧ plan.order = order := by
  obtain ⟨walk, surveyed, surveys, rfl⟩ := plans
  unfold visits at visited
  rw [surveys] at visited
  exact ⟨rfl, Option.some.inj visited⟩

/-- A run for the first file alone and one for both, that file first, give it one stub. -/
theorem stub_independent_borrowed :
    ∃ oneOutput twoOutput oneStub twoStub,
      (generate {} (borrowed [1])).1 = .ok oneOutput ∧
      (generate {} (borrowed [1, 4])).1 = .ok twoOutput ∧
      oneOutput.file? "a" = some oneStub ∧ twoOutput.file? "a" = some twoStub ∧
      oneStub.path = twoStub.path ∧ oneStub.content = twoStub.content := by
  obtain ⟨oneOutput, oneRan⟩ := except_ok_of_isOk
    (show (generate {} (borrowed [1])).1.isOk = true by decide +kernel)
  obtain ⟨twoOutput, twoRan⟩ := except_ok_of_isOk
    (show (generate {} (borrowed [1, 4])).1.isOk = true by decide +kernel)
  have oneBuilt : Graph.build ((borrowed []).nodes.map some) [1] = .ok (borrowed [1]) := rfl
  have twoBuilt : Graph.build ((borrowed []).nodes.map some) [1, 4] = .ok (borrowed [1, 4]) := rfl
  have oneVisits : visits (borrowed [1]) = some [1, 2, 3] := by decide +kernel
  have twoVisits : visits (borrowed [1, 4]) = some [1, 2, 3, 4, 5] := by decide +kernel
  obtain ⟨onePlan, twoPlan, oneStub, twoStub, onePlans, twoPlans, isOne, isTwo, paths, contents⟩ :=
    stub_independent oneBuilt twoBuilt borrowed_well_scoped.housed oneRan twoRan
      (show (borrowed [1]).node? lender.id = some lender from rfl) (by decide) (by decide)
  obtain ⟨oneGraph, oneOrder⟩ := onePlans.follows oneVisits
  obtain ⟨twoGraph, twoOrder⟩ := twoPlans.follows twoVisits
  refine ⟨oneOutput, twoOutput, oneStub, twoStub, oneRan, twoRan, isOne, isTwo, paths, contents ?_⟩
  unfold topLevelNodes Plan.nodes
  rw [oneGraph, twoGraph, oneOrder, twoOrder]
  have others : ((([4, 5] : List Id).filterMap (borrowed [1, 4]).node?).filter fun node =>
      node.kind != .file && node.scope == lender.id) = [] :=
    List.isEmpty_iff.mp (by decide +kernel)
  have sameNodes : (borrowed [1]).node? = (borrowed [1, 4]).node? :=
    funext (Graph.node?_congr rfl)
  rw [show ([1, 2, 3, 4, 5] : List Id) = [1, 2, 3] ++ [4, 5] from rfl, List.filterMap_append,
    List.filter_append, others, List.append_nil, sameNodes]

def contentOf (graph : Graph) (source : String) : Option String :=
  (generate {} graph).1.toOption.bind fun output => (output.file? source).map StubFile.content

/-- Asked for after a file that refers to its second declaration, a file has that one first in its stub. -/
theorem blocks_follow_visits :
    Graph.build ((borrowed []).nodes.map some) [1] = .ok (borrowed [1]) ∧
      Graph.build ((borrowed []).nodes.map some) [4, 1] = .ok (borrowed [4, 1]) ∧
      (borrowed [1]).WellScoped ∧
      ∃ oneContent twoContent, contentOf (borrowed [1]) "a" = some oneContent ∧
        contentOf (borrowed [4, 1]) "a" = some twoContent ∧ oneContent ≠ twoContent := by
  have seen : ((contentOf (borrowed [1]) "a").any fun one =>
      (contentOf (borrowed [4, 1]) "a").any fun two => one != two) = true := by decide +kernel
  rcases one : contentOf (borrowed [1]) "a" with _ | oneContent
  · simp [one] at seen
  rcases two : contentOf (borrowed [4, 1]) "a" with _ | twoContent
  · simp [one, two] at seen
  refine ⟨rfl, rfl, borrowed_well_scoped, oneContent, twoContent, rfl, rfl, ?_⟩
  simpa [one, two] using seen

end SchemaStubs.Stub
