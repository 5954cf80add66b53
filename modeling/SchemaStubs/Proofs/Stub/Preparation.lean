import SchemaStubs.Proofs.Naming.Distinct
import SchemaStubs.Proofs.Stub.Course
import SchemaStubs.Proofs.Walk.Kinds

/-!
What is known when the first stub is drafted: the walk has met all that the requested files lead to,
every node met has its identifier and its place, the files have asked for aliases, and the aliases
are given out. Nothing here asks how well the schema is scoped. While stubs are drafted, the
identifiers and the aliases stay as they are, so that every stub of a run is known by what it was
assembled from.
-/

namespace SchemaStubs

namespace Registry

theorem resolve_internal (table : Table Id String) :
    resolve.Keeps fun registry => registry.internal = table := by
  refine resolve_keeps (fun _ _ _ same => same) fun wish registry same => ?_
  rcases assign_cases wish registry with unchanged | ⟨base, _, assigned, _⟩
  · rwa [unchanged]
  · rw [assigned]
    exact same

def Lettered (registry : Registry) : Prop :=
  ∀ entry ∈ registry.aliases, ∃ base, entry.name = base ++ entry.role.word

theorem resolve_lettered : resolve.Keeps Lettered := by
  refine resolve_keeps (fun _ _ _ lettered => lettered) fun wish registry lettered => ?_
  rcases assign_cases wish registry with unchanged | ⟨base, _, assigned, _⟩
  · rwa [unchanged]
  · rw [assigned]
    intro entry member
    rcases List.mem_append.mp member with old | new
    · exact lettered entry old
    · obtain ⟨role, _, rfl⟩ := Request.mem_aliases_iff.mp new
      exact ⟨base, rfl⟩

end Registry

namespace Stub

open Generation

/-- Asking for aliases registers more nodes and takes no identifier away. -/
theorem request_aliases_known (graph : Graph) (reached : List Id) (id : Id) :
    (requestAliases graph reached).Keeps fun registry => (registry.internal? id).isSome :=
  request_aliases_keeps_of_register reached (fun _ => Registry.register_known _ id)
    fun _ _ _ known => known

/-- The nodes registered when the aliases are given out have claimed their class names. -/
theorem held_of_returns {graph : Graph} {walk : Walk} {surveyed asked registry : Registry}
    (surveys : (survey graph graph.requested.eraseDups).Returns {} walk surveyed)
    (asks : (requestAliases graph walk.order).Returns surveyed () asked)
    (resolves : Registry.resolve.Returns asked () registry) : registry.Held graph := by
  obtain ⟨_, _, walks, rfl, rfl⟩ := Step.Returns.within_iff.mp surveys
  have registers : ∀ id, (Registry.register graph id).Keeps (Registry.Held graph) :=
    fun id => Registry.register_from_held _ id
  have walked := ((Walk.registering_carries graph graph.requested.eraseDups registers
    fun _ _ held => held.congr rfl rfl).run (fun _ member => member) (Registry.held_empty graph)
    walks).1
  have inquired := (request_aliases_keeps_of_register _ registers
    fun _ _ _ held => held.congr rfl rfl).returns asks walked
  have resolving : Registry.resolve.Keeps (Registry.Held graph) := by
    refine Registry.resolve_keeps (fun _ _ _ held => held.congr rfl rfl) fun wish registry held => ?_
    rcases Registry.assign_cases wish registry with unchanged | ⟨base, _, assigned, _⟩
    · rwa [unchanged]
    · rw [assigned]
      exact held.congr rfl rfl
  exact resolving.returns resolves inquired

structure Prepared (plan : Plan) (asked registry : Registry) : Prop where
  distinct : plan.order.Nodup
  requested : ∀ id ∈ plan.graph.requested, id ∈ plan.order
  /-- Every node met has its identifier. -/
  identified : ∀ id ∈ plan.order, ∃ node internal, plan.graph.node? id = some node ∧
    plan.graph.Identifies node internal ∧ registry.internal? id = some internal
  /-- What a node met depends on was met, is of the right kind and can be referred to. -/
  closed : ∀ id ∈ plan.order, ∀ node, plan.graph.node? id = some node →
    ∀ dependency ∈ node.dependencies, dependency.target ∈ plan.order ∧
      Walk.Fits plan.graph dependency ∧ (plan.references.get? dependency.target).isSome
  /-- A reference tells where its target is. -/
  located : ∀ target reference, plan.references.get? target = some reference →
    reference.pending = false ∧ reference.target = target ∧
      (∃ file, plan.graph.file target = .ok file ∧ reference.file = file.id) ∧
      registry.internal? target = some reference.internal
  held : registry.Held plan.graph
  resolved : registry.resolved = true
  coherent : registry.Coherent
  wished : Wished plan.graph (declaringFiles plan.graph plan.order) asked
  resolves : Registry.resolve.Returns asked () registry

theorem Prepared.canonical {plan : Plan} {asked registry : Registry}
    (prepared : Prepared plan asked registry) : registry.Canonical plan.graph :=
  prepared.held.canonical

theorem Prepared.plan_located {plan : Plan} {asked registry : Registry}
    (prepared : Prepared plan asked registry) : plan.Located := by
  intro target reference known
  obtain ⟨_, aimed, inFile, _⟩ := prepared.located target reference known
  exact ⟨aimed, inFile⟩

theorem prepared_of_returns {graph : Graph} (options : Options) {walk : Walk}
    {surveyed asked registry : Registry}
    (surveys : (survey graph graph.requested.eraseDups).Returns {} walk surveyed)
    (asks : (requestAliases graph walk.order).Returns surveyed () asked)
    (resolves : Registry.resolve.Returns asked () registry) :
    Prepared { graph, options, order := walk.order, references := walk.references } asked
      registry := by
  obtain ⟨rfl, traverses, referenced, quiet, met⟩ := survey_returns surveys
  obtain ⟨_, walk, walks, rfl, _⟩ := Step.Returns.within_iff.mp surveys
  obtain ⟨⟨_, fitted⟩, _⟩ := (Walk.fitted_carries graph graph.requested.eraseDups).run
    (fun _ member => member) ⟨Walk.Traverses.start graph _, Walk.Fitted.start graph⟩ walks
  have wished := request_aliases_wished (quiet.wished traverses.canonical) asks
  have sameInternal : registry.internal = asked.internal :=
    (Registry.resolve_internal asked.internal).returns resolves rfl
  -- an identifier that the walk gave is the one the graph fixes, so it is still there
  have kept : ∀ id node internal, graph.node? id = some node → graph.Identifies node internal →
      walk.registry.internal? id = some internal → registry.internal? id = some internal := by
    intro id node internal found identified held
    have known := (request_aliases_known graph walk.order id).returns asks (by simp [held])
    obtain ⟨other, stillHeld⟩ := Option.isSome_iff_exists.mp known
    obtain ⟨_, sameNode, alike⟩ := wished.canonical id other stillHeld
    rw [found] at sameNode
    cases sameNode
    unfold Registry.internal? at stillHeld ⊢
    rw [sameInternal, stillHeld, alike.unique identified]
  have coherent : registry.Coherent := by
    have before := (request_aliases_coherent graph walk.order).returns asks quiet.2.2.2.2
    have after := Registry.resolve_coherent before
    rwa [resolves] at after
  have identified : ∀ id ∈ walk.order, ∃ node internal, graph.node? id = some node ∧
      graph.Identifies node internal ∧ registry.internal? id = some internal := by
    intro id member
    obtain ⟨internal, held⟩ := Option.isSome_iff_exists.mp (traverses.registered id member)
    obtain ⟨node, found, alike⟩ := traverses.canonical id internal held
    exact ⟨node, internal, found, alike, kept id node internal found alike held⟩
  refine ⟨traverses.nodup, met, identified, ?_, ?_, held_of_returns surveys asks resolves,
    (Registry.resolve_requests wished.resolved resolves).2, coherent, wished, resolves⟩
  · intro id member node found dependency listed
    have complete := (traverses.mem_order_iff_complete id).mp member
    have edge := traverses.closed id node complete found dependency listed
    exact ⟨(traverses.met _ edge).2.1, Walk.fits_of_mem_order traverses fitted member found listed,
      referenced.mentioned _ edge⟩
  · intro target reference known
    obtain ⟨settled, aimed, _, node, file, found, _, inFile, same, held⟩ :=
      referenced.located traverses known
    obtain ⟨_, sameNode, alike⟩ := traverses.canonical target _ held
    rw [found] at sameNode
    cases sameNode
    exact ⟨settled, aimed, ⟨file, inFile, same⟩, kept target node _ found alike held⟩

structure Standing (registry : Registry) (file : Node) (draft : Draft) : Prop where
  ofFile : draft.file = file
  resolved : draft.registry.resolved = true
  aliases : draft.registry.aliases = registry.aliases
  internal : draft.registry.internal = registry.internal

theorem Standing.internal? {registry : Registry} {file : Node} {draft : Draft}
    (standing : Standing registry file draft) (id : Id) :
    draft.registry.internal? id = registry.internal? id := by
  unfold Registry.internal?
  rw [standing.internal]

theorem import_aliases_standing (plan : Plan) (registry : Registry) (file : Node) (target : Id)
    (declaring : Node) (roles : List Role) :
    (Draft.importAliases plan target declaring roles).Keeps (Standing registry file) :=
  import_aliases_keeps (fun _ standing => standing.resolved)
    (fun _ _ standing _ => { standing with }) (fun _ _ _ _ standing _ _ => { standing with }) roles

theorem standing_frame {plan : Plan} (located : plan.Located) (registry : Registry) (file : Node) :
    Frame plan (Standing registry file) where
  targets target reference known := (located target reference known).1
  markReferenced _ _ standing := { standing with }
  anyPointer _ standing := { standing with }
  importAliases target _ declaring roles _ _ _ _ :=
    import_aliases_standing plan registry file target declaring roles _
  note _ _ standing := { standing with }
  markDeclared _ _ standing := { standing with }
  bind _ _ := bind_keeps fun _ _ _ standing => { standing with }
  getAlias := get_alias_keeps fun _ standing => standing.resolved

/-- What one more stub comes from: a draft of its file, composed from where the last one ended. -/
theorem add_file_returns {plan : Plan} {before : List Drafted} {id : Id} {registry after : Registry}
    {next : List Drafted} (returns : (addFile plan before id).Returns registry next after) :
    ∃ file content draft journal, plan.graph.file id = .ok file ∧
      (compose plan file).Returns { registry, file } content draft ∧
      after = { draft.registry with journal } ∧
      next = before ++ [⟨file, draft.imports,
        ⟨file.name, Location.outputPath plan.options.suffix file.name, content⟩⟩] := by
  unfold addFile at returns
  simp only [Step.Returns.bind_iff, Step.Returns.of_except_iff] at returns
  obtain ⟨file, _, ⟨inFile, rfl⟩, returns⟩ := returns
  split at returns
  · exact (Step.Returns.fail_iff.mp returns).elim
  · simp only [Step.Returns.bind_iff] at returns
    obtain ⟨⟨content, imports⟩, middle, drafts, _, noted, notes, last⟩ := returns
    obtain ⟨rfl, rfl⟩ := Step.Returns.pure_iff.mp last
    cases Step.Returns.modify_iff.mp notes
    obtain ⟨_, draft, composes, same, rfl⟩ := Step.Returns.within_iff.mp drafts
    cases same
    exact ⟨file, content, draft, _, inFile, composes, rfl, rfl⟩

/-- Each stub is composed in a registry that has whatever composing hands on. -/
theorem drafts_composed {plan : Plan} {ids : List Id} {start reached : Registry}
    {drafts : List Drafted} (holds : Registry → Prop)
    (kept : ∀ file before content draft journal, holds before →
      (compose plan file).Returns { registry := before, file } content draft →
        holds { draft.registry with journal })
    (returns : (ids.foldlM (addFile plan) []).Returns start drafts reached) (begins : holds start) :
    holds reached ∧ drafts.map (fun drafted => .ok drafted.file) = ids.map plan.graph.file ∧
      ∀ drafted ∈ drafts, (∃ id ∈ ids, plan.graph.file id = .ok drafted.file) ∧
        ∃ current draft, holds current ∧ drafted.imports = draft.imports ∧
          (compose plan drafted.file).Returns { registry := current, file := drafted.file }
            drafted.stub.content draft := by
  refine Step.Returns.foldlM_stages
    (fun done drafts registry => holds registry ∧
      drafts.map (fun drafted => .ok drafted.file) = done.map plan.graph.file ∧
      ∀ drafted ∈ drafts, (∃ id ∈ ids, plan.graph.file id = .ok drafted.file) ∧
        ∃ current draft, holds current ∧ drafted.imports = draft.imports ∧
          (compose plan drafted.file).Returns { registry := current, file := drafted.file }
            drafted.stub.content draft) ?_ returns ⟨begins, rfl, by simp⟩
  rintro done id rest place drafts next before after step ⟨holding, sources, each⟩
  obtain ⟨file, content, draft, journal, inFile, composes, rfl, rfl⟩ := add_file_returns step
  refine ⟨kept file before content draft journal holding composes, by simp [sources, inFile], ?_⟩
  intro drafted member
  rcases List.mem_append.mp member with earlier | last
  · exact each drafted earlier
  · cases List.mem_singleton.mp last
    exact ⟨⟨id, by simp [← place], inFile⟩, before, draft, holding, rfl, composes⟩

structure Composed (plan : Plan) (registry : Registry) (drafted : Drafted) (draft : Draft) :
    Prop where
  inFile : plan.graph.file drafted.file.id = .ok drafted.file
  requested : drafted.file.id ∈ plan.graph.requested
  imports : drafted.imports = draft.imports
  composes : ∃ current, Standing registry drafted.file { registry := current, file := drafted.file } ∧
    (compose plan drafted.file).Returns { registry := current, file := drafted.file }
      drafted.stub.content draft

/-- What a stub was assembled from: the declarations found for its file, and the import statements
that these and the aliases of the file ask for. -/
structure Assembled (plan : Plan) (registry : Registry) (drafted : Drafted)
    (declarations : List Declaration) (statements : ImportSection) : Prop where
  declares : ∃ current declared,
    Standing registry drafted.file { registry := current, file := drafted.file } ∧
      (declareFile plan).Returns { registry := current, file := drafted.file } declarations declared
  collects : ∃ bindings, ImportSection.collect bindings drafted.imports
    (renderLines (bodyLines declarations (fileAliases registry drafted.file.id))) = .ok statements
  content : drafted.stub.content = renderLines (fileLines plan.options drafted.file.name statements
    (bodyLines declarations (fileAliases registry drafted.file.id)))

structure Completed (options : Options) (graph : Graph) (output : Output) (plan : Plan)
    (resolved : Registry) (drafts : List Drafted) (registry : Registry) : Prop where
  surveys : ∃ walk surveyed, (survey graph graph.requested.eraseDups).Returns {} walk surveyed ∧
    plan = { graph, options, order := walk.order, references := walk.references }
  prepared : ∃ asked, Prepared plan asked resolved
  returns : (draftAll options graph).Returns {} drafts registry
  files : output.files = drafts.map Drafted.stub
  sources : drafts.map (fun drafted => .ok drafted.file) =
    graph.requested.eraseDups.map graph.file
  aliases : registry.aliases = resolved.aliases
  internal : registry.internal = resolved.internal
  composed : ∀ drafted ∈ drafts, ∃ draft, Composed plan resolved drafted draft

theorem Completed.ofGraph {options : Options} {graph : Graph} {output : Output} {plan : Plan}
    {resolved : Registry} {drafts : List Drafted} {registry : Registry}
    (completed : Completed options graph output plan resolved drafts registry) : plan.graph = graph := by
  obtain ⟨_, _, _, rfl⟩ := completed.surveys
  rfl

/-- A run that gave an output has drafted the stub of every requested file. -/
theorem Completed.drafted_of_mem {options : Options} {graph : Graph} {output : Output} {plan : Plan}
    {resolved : Registry} {drafts : List Drafted} {registry : Registry}
    (completed : Completed options graph output plan resolved drafts registry) {id : Id} {file : Node}
    (asked : id ∈ graph.requested) (inFile : graph.file id = .ok file) :
    ∃ drafted ∈ drafts, drafted.file = file :=
  drafted_of_sources completed.sources (List.mem_eraseDups.mpr asked) inFile

theorem completed_of_generate {options : Options} {entries : List (Option Node)}
    {requested : List Id} {graph : Graph} (built : Graph.build entries requested = .ok graph)
    {output : Output} (ran : (generate options graph).1 = .ok output) :
    ∃ plan resolved drafts registry,
      Completed options graph output plan resolved drafts registry := by
  obtain ⟨drafts, registry, whole, files, _⟩ := generate_ok ran
  have asks := (Graph.build_ok built).2.1
  obtain ⟨walk, surveyed, asked, resolved, surveys, inquires, resolves, delivers⟩ :=
    draft_all_returns whole
  have prepared := prepared_of_returns options surveys inquires resolves
  let plan : Plan := { graph, options, order := walk.order, references := walk.references }
  obtain ⟨⟨_, aliases, internal⟩, sources, composed⟩ := drafts_composed
    (fun registry => registry.resolved = true ∧ registry.aliases = resolved.aliases ∧
      registry.internal = resolved.internal)
    (by
      rintro file before content draft journal ⟨done, same, alike⟩ composes
      have stands := ((standing_frame prepared.plan_located resolved file).compose file).returns
        composes ⟨rfl, done, same, alike⟩
      exact ⟨stands.resolved, stands.aliases, stands.internal⟩)
    delivers ⟨prepared.resolved, rfl, rfl⟩
  refine ⟨plan, resolved, drafts, registry, ⟨walk, surveyed, surveys, rfl⟩, ⟨asked, prepared⟩, whole,
    files, sources, aliases, internal, fun drafted member => ?_⟩
  obtain ⟨⟨id, inRoots, inFile⟩, current, draft, ⟨done, same, alike⟩, imports, composes⟩ :=
    composed drafted member
  have inRequested : id ∈ graph.requested := List.mem_eraseDups.mp inRoots
  cases Graph.id_of_requested built (asks ▸ inRequested) inFile
  exact ⟨draft, inFile, inRequested, imports, current, ⟨rfl, done, same, alike⟩, composes⟩

/-- Two registries with the same identifiers and aliases know a stub to be assembled from the same. -/
theorem Assembled.congr {plan : Plan} {one two : Registry} {drafted : Drafted}
    {declarations : List Declaration} {statements : ImportSection}
    (assembled : Assembled plan one drafted declarations statements)
    (aliases : two.aliases = one.aliases) (internal : two.internal = one.internal) :
    Assembled plan two drafted declarations statements := by
  obtain ⟨current, declared, fresh, declares⟩ := assembled.declares
  refine ⟨⟨current, declared, ⟨fresh.ofFile, fresh.resolved, ?_, ?_⟩, declares⟩, ?_, ?_⟩
  · rw [fresh.aliases, aliases]
  · rw [fresh.internal, internal]
  · rw [file_aliases_congr aliases]
    exact assembled.collects
  · rw [file_aliases_congr aliases]
    exact assembled.content

end Stub

end SchemaStubs
