import SchemaStubs.Proofs.Stub.ClassParts
import SchemaStubs.Proofs.Stub.ModuleNames
import SchemaStubs.Proofs.Stub.PointerMarks
import SchemaStubs.Proofs.Stub.Rehearsal

/-!
When a stub declares the class of pointers to anything. It does if a type that it shows is a pointer to
anything or a generic parameter, under whatever lists; and if it does without such a type, the name that
some type of it is written by mentions the class.
-/

namespace SchemaStubs

def Node.writtenTypes (node : Node) : List SchemaType :=
  node.fields.filterMap Field.type ++
    (node.methods.flatMap fun method => method.params ++ method.results).filterMap Field.type ++
    node.constType.toList

theorem Graph.types_of_shown_under {graph : Graph} {node : Node} (inGraph : node ∈ graph.nodes)
    {type : SchemaType} (shown : type ∈ graph.shownUnder node) :
    ∃ owner ∈ graph.nodes, type ∈ owner.writtenTypes := by
  obtain ⟨last, path, shows⟩ := shown
  have reached : last ∈ graph.nodes := by
    clear shows
    induction path with
    | refl => exact inGraph
    | tail _ encloses induction =>
        cases encloses with
        | nested _ _ _ found _ => exact Graph.mem_of_node? found
        | body _ flattened listed group =>
            exact Graph.mem_of_node? ((Stub.mem_of_node_from flattened induction listed).2.2 _ group).2
  cases shows with
  | member _ flattened listed _ typed =>
      obtain ⟨inNodes, declared, _⟩ := Stub.mem_of_node_from flattened reached listed
      exact ⟨_, inNodes, List.mem_append_left _ (List.mem_append_left _
        (List.mem_filterMap.mpr ⟨_, declared, typed⟩))⟩
  | argument _ declared listed typed =>
      exact ⟨last, reached, List.mem_append_left _ (List.mem_append_right _
        (List.mem_filterMap.mpr ⟨_, List.mem_flatMap.mpr ⟨_, declared, listed⟩, typed⟩))⟩
  | const _ typed => exact ⟨last, reached, List.mem_append_right _ (by simp [typed])⟩

namespace Stub

open Generation

def DeclaresPointers (declarations : List Declaration) : Prop :=
  ∃ bases doc body, .class anyPointerClass bases doc body ∈ declarations

/-- The types that the stub of a file shows through the reader or the builder view. -/
def Plan.shownIn (plan : Plan) (file : Id) : Set SchemaType :=
  { type | ∃ node ∈ topLevelNodes plan file, type ∈ plan.graph.shownUnder node }

/-- A name that a reference to the node at the end of a type is written by in a stub mentions the class:
the identifier of a node of the same file, or the name of an import. -/
def Generation.Drafted.NamedAfterPointers (plan : Plan) (drafted : Drafted) (type : SchemaType) : Prop :=
  ∃ reference, plan.references.get? type.innermost.target = some reference ∧
    if reference.file = drafted.file.id then
      Text.contains anyPointerClass reference.internal = true
    else ∃ entry ∈ drafted.imports, Text.contains anyPointerClass entry.localName = true

variable {plan : Plan} {registry : Registry} {file : Node} {before after : Draft}

namespace Raising

variable {plain seen : Set SchemaType}

theorem of_quiet_state {α : Type} {step : Step Draft α}
    (keeps : ∀ draft : Draft, step.Keeps fun other => other.file = draft.file ∧
      other.imports = draft.imports ∧ other.usesAnyPointer = draft.usesAnyPointer) :
    Raising plan ∅ seen step := by
  intro before value after returns
  obtain ⟨file, imports, same⟩ := (keeps before).returns returns ⟨rfl, rfl, rfl⟩
  exact .of_carries ⟨file, fun entry member => ⟨entry, imports ▸ member, rfl⟩⟩ same

theorem bind (name : String) (owner : Id) : Raising plan ∅ seen (Draft.bind name owner) :=
  of_quiet_state fun _ => bind_keeps fun _ _ _ kept => kept

theorem declareTopLevel {node : Node}
    (groups : ∀ node ∈ plan.graph.nodes, node.isGroup = true → node.kind = .struct)
    (inGraph : node ∈ plan.graph.nodes) (inSeen : plan.graph.shownUnder node ⊆ seen) :
    Raising plan (plan.graph.shownUnder node) seen (Stub.declareTopLevel plan node) := by
  have binds : ∀ declaration, Raising plan ∅ seen (Stub.bindTopLevel node declaration) := by
    intro declaration
    unfold Stub.bindTopLevel
    split
    · exact .of_second (bind _ _) fun _ => of_pure _
    · exact .of_second (bind _ _) fun _ => .of_second (bind _ _) fun _ => of_pure _
    · exact of_pure _
  have declares : Raising plan (plan.graph.shownUnder node) seen (Stub.declareNode plan node) := by
    intro before declarations after returns
    exact declareFrom groups inGraph inSeen _ _ _ (declare_node_returns returns).2
  exact .of_first declares fun _ => .of_second (of_mapM_quiet fun declaration _ => binds declaration)
    fun _ => of_pure _

end Raising

theorem declare_top_level_others (located : plan.Located) (canonical : registry.Canonical plan.graph)
    {node scope : Node} (found : plan.graph.node? node.id = some node)
    (place : plan.graph.node? node.scope = some scope) (isFile : scope.kind = .file)
    (standing : Standing registry file before) {block : List Declaration}
    (returns : (declareTopLevel plan node).Returns before block after) : ¬ DeclaresPointers block := by
  obtain ⟨declarations, middle, blocks, declares, binds, rfl⟩ := declare_top_level_returns returns
  have other : anyPointerClass ≠ className (node.segment "") := by
    intro same
    have ends := class_name_ends_with (node.segment_ends_with "")
    rw [← same] at ends
    exact absurd ends (by decide)
  rintro ⟨bases, doc, body, listed⟩
  obtain ⟨block, inBlocks, inBlock⟩ := List.mem_flatten.mp listed
  obtain ⟨declaration, declared, _, _, step⟩ := Step.Returns.mapM_mem binds inBlocks
  obtain ⟨added, rfl, plain⟩ := bind_top_level_returns step
  rcases List.mem_cons.mp inBlock with rfl | inAdded
  · rcases declare_node_top located canonical found place isFile standing declares with
      rfl | ⟨_, type, rfl⟩ | ⟨_, _, _, _, _, rfl⟩
    · cases declared
    · cases List.mem_singleton.mp declared
    · exact other (Declaration.class.inj (List.mem_singleton.mp declared)).1
  · cases plain _ inAdded

theorem top_level_others (located : plan.Located) (canonical : registry.Canonical plan.graph)
    (found : plan.graph.node? file.id = some file) (isFile : file.kind = .file)
    (standing : Standing registry file before) {blocks : List (List Declaration)}
    (declares : ((topLevelNodes plan file.id).mapM (declareTopLevel plan)).Returns before blocks after) :
    ¬ DeclaresPointers blocks.flatten := by
  rintro ⟨bases, doc, body, inside⟩
  obtain ⟨block, listed, here⟩ := List.mem_flatten.mp inside
  have each := (Step.Returns.mapM_stages
    (fun _ blocks draft => Standing registry file draft ∧ ∀ block ∈ blocks, ¬ DeclaresPointers block)
    (by
      rintro done node rest place blocks block middle next step ⟨stands, each⟩
      have member : node ∈ topLevelNodes plan file.id := by simp [← place]
      obtain ⟨nodeFound, _, inFile⟩ := mem_top_level_nodes member
      refine ⟨((standing_frame located registry file).declareTopLevel node).returns step stands, ?_⟩
      intro other inside
      rcases List.mem_append.mp inside with earlier | last
      · exact each other earlier
      · rw [List.mem_singleton.mp last]
        exact declare_top_level_others located canonical nodeFound (inFile ▸ found) isFile stands step)
    declares ⟨standing, by simp⟩).2
  exact each block listed ⟨bases, doc, body, here⟩

theorem declare_file_pointers (located : plan.Located) (canonical : registry.Canonical plan.graph)
    (groups : ∀ node ∈ plan.graph.nodes, node.isGroup = true → node.kind = .struct)
    (found : plan.graph.node? file.id = some file) (isFile : file.kind = .file)
    (standing : Standing registry file before) (unused : before.usesAnyPointer = false)
    {declarations : List Declaration}
    (returns : (declareFile plan).Returns before declarations after) :
    (∀ type ∈ plan.shownIn file.id, type.IsErased → DeclaresPointers declarations) ∧
    (DeclaresPointers declarations → ∃ type ∈ plan.shownIn file.id,
      type.IsErased ∨ NamedAfter plan after type) := by
  obtain ⟨blocks, reached, extra, declares, appended, rfl⟩ := declare_file_returns returns
  rw [standing.ofFile] at declares appended
  have marks : Marks plan (plan.shownIn file.id) (plan.shownIn file.id) before reached := by
    refine (Raising.of_mapM fun node listed => ?_) _ _ _ declares
    refine Raising.declareTopLevel groups (Graph.mem_of_node? (mem_top_level_nodes listed).1) ?_
    exact fun type shown => ⟨node, listed, shown⟩
  have others := top_level_others located canonical found isFile standing declares
  cases appended with
  | pointers asked binds declaresAny =>
      obtain ⟨_, _, _, rfl⟩ := declare_any_pointer_returns declaresAny
      have casts : Raising plan ∅ (plan.shownIn file.id) (AnyPointer.declare plan) := by
        have target : ∀ node ∈ plan.nodes,
            Raising plan ∅ (plan.shownIn file.id) (AnyPointer.target plan node) := by
          intro node _
          unfold AnyPointer.target
          refine .of_second .of_get fun draft => ?_
          split
          · exact .of_pure _
          · split
            · exact .of_pure _
            · refine .of_second (.internalOf node) fun _ => .of_second (.of_in_registry _) fun _ => ?_
              exact .of_pure _
        exact .of_second (.of_second (.of_mapM_quiet target) fun _ => .of_pure _) fun _ => .of_pure _
      have later := (Raising.bind _ _ _ _ _ binds).trans (casts _ _ _ declaresAny)
      refine ⟨fun _ _ _ => ⟨_, _, _, List.mem_append_right _ (List.mem_singleton_self _)⟩, fun _ => ?_⟩
      rcases marks.caused asked with early | ⟨type, shown, reason⟩
      · rw [unused] at early
        cases early
      · exact ⟨type, shown, reason.imp_right fun named => named.carried later.toCarries⟩
  | nothing unasked =>
      rw [List.append_nil]
      refine ⟨fun type shown erased => ?_, fun declared => absurd declared others⟩
      rw [marks.raised type shown erased] at unasked
      cases unasked

theorem lay_out_imports {declarations : List Declaration} {content : String}
    (returns : (layOut plan declarations).Returns before content after) :
    after.imports = before.imports := by
  unfold layOut at returns
  simp only [Step.Returns.bind_iff, Step.Returns.get_iff, Step.Returns.of_except_iff] at returns
  obtain ⟨_, _, ⟨rfl, rfl⟩, _, reached, binds, _, _, ⟨rfl, rfl⟩, _, _, ⟨_, rfl⟩, _, _, notes, last⟩ :=
    returns
  obtain ⟨_, rfl⟩ := Step.Returns.pure_iff.mp last
  unfold Draft.note Draft.inRegistry at notes
  obtain ⟨_, _, rfl⟩ := Step.Returns.on_part_iff.mp notes
  have keeps : ((fileAliases before.registry before.file.id).forM fun entry =>
      Draft.bind entry.name entry.subject.node).Keeps fun draft => draft.imports = before.imports :=
    .of_forM fun entry _ => bind_keeps fun _ _ _ same => same
  have same : reached.imports = before.imports := keeps.returns binds rfl
  exact same

/-- In a run that succeeds, a stub that shows a pointer to anything or a generic parameter to readers,
under whatever lists, declares the class of these pointers; and a stub that declares it shows one of
them, or a type that is written by a name which mentions the class. -/
theorem pointers_declared {options : Options} {entries : List (Option Node)} {requested : List Id}
    {graph : Graph} (built : Graph.build entries requested = .ok graph) {output : Output}
    (ran : (generate options graph).1 = .ok output) :
    ∃ plan resolved drafts registry, Completed options graph output plan resolved drafts registry ∧
      ∀ drafted ∈ drafts, ∃ declarations statements,
        Assembled plan registry drafted declarations statements ∧
        (∀ type ∈ plan.shownIn drafted.file.id, type.IsErased → DeclaresPointers declarations) ∧
        (DeclaresPointers declarations → ∃ type ∈ plan.shownIn drafted.file.id,
          type.IsErased ∨ drafted.NamedAfterPointers plan type) := by
  obtain ⟨plan, resolved, drafts, registry, completed⟩ := completed_of_generate built ran
  refine ⟨plan, resolved, drafts, registry, completed, fun drafted member => ?_⟩
  obtain ⟨asked, prepared⟩ := completed.prepared
  obtain ⟨draft, composed⟩ := completed.composed drafted member
  have sameGraph := completed.ofGraph
  obtain ⟨inFile, _, imports, current, fresh, composes⟩ := composed
  obtain ⟨declarations, declared, statements, bindings, declares, lays, collected, content⟩ :=
    compose_returns prepared.plan_located fresh composes
  have assembled : Assembled plan resolved drafted declarations statements :=
    ⟨⟨current, declared, fresh, declares⟩, ⟨bindings, imports ▸ collected⟩, content⟩
  obtain ⟨asks, answers⟩ := declare_file_pointers prepared.plan_located prepared.canonical
    (sameGraph ▸ Graph.build_groups built) (Graph.node?_of_file inFile) (Graph.kind_of_file inFile)
    fresh rfl declares
  refine ⟨declarations, statements, assembled.congr completed.aliases completed.internal, asks,
    fun pointers => ?_⟩
  obtain ⟨type, shown, reason⟩ := answers pointers
  have stands := (standing_frame prepared.plan_located resolved drafted.file).declareFile.returns
    declares fresh
  refine ⟨type, shown, reason.imp_right fun ⟨reference, known, mentions⟩ => ⟨reference, known, ?_⟩⟩
  rwa [stands.ofFile, ← lay_out_imports lays, ← imports] at mentions

def holding (type : SchemaType) : Graph where
  nodes := [
    aFile [2, 3] [],
    { id := 2, kind := .struct, name := "AnyPointerBox", displayName := "AnyPointerBox", scope := 1 },
    { id := 3, kind := .struct, name := "Holder", displayName := "Holder", scope := 1,
      fields := [{ name := "held", type := some type }] }]
  requested := [1]

/-- A holder of lists of lists of pointers. -/
theorem pointers_declared_lists :
    ∃ output plan resolved drafts registry,
      Completed {} (holding { kind := .list, element := some {
        kind := .list, element := some { kind := .anyPointer } } }) output plan resolved drafts registry ∧
      ∃ drafted ∈ drafts, ∃ declarations statements,
        Assembled plan registry drafted declarations statements ∧ DeclaresPointers declarations := by
  let lists : SchemaType :=
    { kind := .list, element := some { kind := .list, element := some { kind := .anyPointer } } }
  have built : Graph.build ((holding lists).nodes.map some) [1] = .ok (holding lists) := rfl
  have inFile : Graph.file (holding lists) 1 = .ok (aFile [2, 3] []) := rfl
  obtain ⟨output, ran⟩ : ∃ output, (generate {} (holding lists)).1 = .ok output :=
    generate_of_unobstructed rfl inFile (by decide +kernel)
  obtain ⟨plan, resolved, drafts, registry, completed, each⟩ := pointers_declared built ran
  obtain ⟨asked, prepared⟩ := completed.prepared
  have sameGraph := completed.ofGraph
  obtain ⟨drafted, member, isFile⟩ := completed.drafted_of_mem List.mem_cons_self inFile
  obtain ⟨declarations, statements, assembled, asks, _⟩ := each drafted member
  have fileMet : (1 : Id) ∈ plan.order :=
    prepared.requested 1 (by rw [sameGraph]; exact List.mem_cons_self)
  have holderMet : (3 : Id) ∈ plan.order :=
    (prepared.closed 1 fileMet (aFile [2, 3] []) (by rw [sameGraph]; rfl) ⟨.nested, 3, none⟩
      (by decide)).1
  have holder : (holding lists).nodes[2] ∈ topLevelNodes plan drafted.file.id := by
    rw [isFile]
    refine List.mem_filter.mpr ⟨List.mem_filterMap.mpr ⟨3, holderMet, ?_⟩, rfl⟩
    rw [sameGraph]
    rfl
  have shown : lists ∈ plan.shownIn drafted.file.id := by
    refine ⟨_, holder, Graph.mem_shown_under_iff.mpr (.inl ?_)⟩
    rw [sameGraph]
    exact .member rfl rfl List.mem_cons_self rfl rfl
  exact ⟨output, plan, resolved, drafts, registry, completed, drafted, member, declarations,
    statements, assembled, asks lists shown (.inl rfl)⟩

/-- A holder of a box whose name begins like that of the class: the class is declared, and nothing in
the schema is a pointer to anything or a parameter. -/
theorem box_declares_pointers :
    ∃ output stub statements declarations aliases,
      Graph.build ((holding { kind := .struct, target := 2 }).nodes.map some) [1] =
        .ok (holding { kind := .struct, target := 2 }) ∧
      (generate {} (holding { kind := .struct, target := 2 })).1 = .ok output ∧ stub ∈ output.files ∧
      stub.content = renderLines (fileLines {} "a" statements (bodyLines declarations aliases)) ∧
      DeclaresPointers declarations ∧
      ∀ plan : Plan, plan.graph = holding { kind := .struct, target := 2 } →
        ∀ type ∈ plan.shownIn 1, ¬ type.IsErased := by
  have seen : (((rehearse {} (holding { kind := .struct, target := 2 }) (aFile [2, 3] [])).outcome {}
      ).1.toOption.any fun made => made.2.unobstructed && made.1.any fun declaration =>
        declaration.isClass && declaration.name == anyPointerClass) = true := by
    decide +kernel
  obtain ⟨⟨declarations, draft⟩, _, rehearsed, shown⟩ := Step.Returns.of_any seen
  rw [Bool.and_eq_true] at shown
  obtain ⟨free, some⟩ := shown
  obtain ⟨declaration, listed, isPointers⟩ := List.any_eq_true.mp some
  obtain ⟨output, stub, statements, ran, files, _, content, _⟩ :=
    generate_of_rehearsal rfl rfl rehearsed free
  have declares : DeclaresPointers declarations := by
    cases declaration with
    | «class» name bases doc body =>
        have named : name = anyPointerClass := by
          simpa [Declaration.isClass, Declaration.name] using isPointers
        exact ⟨bases, doc, body, named ▸ listed⟩
    | method => cases isPointers
    | annotated => cases isPointers
    | typeAlias => cases isPointers
  refine ⟨output, stub, statements, declarations, _, rfl, ran, by simp [files], content, declares, ?_⟩
  rintro plan same type ⟨node, inTop, shown⟩ erased
  obtain ⟨owner, inGraph, listed⟩ :=
    Graph.types_of_shown_under (Graph.mem_of_node? (mem_top_level_nodes inTop).1) shown
  rw [same] at inGraph
  have none : ∀ owner ∈ (holding { kind := .struct, target := 2 }).nodes, ∀ type ∈ owner.writtenTypes,
      type.innermost.kind ≠ .anyPointer ∧ type.innermost.kind ≠ .parameter := by decide
  exact erased.elim (none owner inGraph type listed).1 (none owner inGraph type listed).2

end Stub

end SchemaStubs
