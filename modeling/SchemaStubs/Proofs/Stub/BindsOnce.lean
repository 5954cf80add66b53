import SchemaStubs.Proofs.Stub.Denotation
import SchemaStubs.Proofs.Stub.Unclashing

/-!
No class and no method of a stub binds a name twice. The classes of nodes that stand side by side are
told apart by their identifiers, and what methods add to an interface by the stems of the methods, which
a run makes sure of. It does not look at what escaping keywords makes of names, nor at the fixed names
of a stub, so a schema has to keep clear of these itself.
-/

namespace SchemaStubs.Stub

open Generation

section Declaring

variable {plan : Plan} {registry : Registry} {file : Node}

def ClassNamed (graph : Graph) (internal : String) : Prop :=
  className internal ∈ graph.classNames ∧ Text.endsWith moduleWord (className internal) = true

theorem typing_class_named (located : plan.Located) (canonical : registry.Canonical plan.graph)
    (undotted : plan.graph.Undotted) :
    Typing plan (Standing registry file) (fun _ => ClassNamed plan.graph) fun _ _ => True where
  internalOf node := by
    intro before internal after standing returns
    obtain ⟨rfl, known, present⟩ := internal_of_returns returns
    obtain ⟨other, found, identified⟩ := canonical node.id internal (standing.internal? node.id ▸ known)
    exact ⟨standing, identified.class_name_mem undotted (Graph.mem_of_node? found) present⟩
  groupType _ _ _ _ := ⟨⟩
  typeText view type := .of_keeps ((standing_frame located registry file).typeText view type)
  superclass node id := .imp (.of_keeps ((standing_frame located registry file).superclass node id))
    fun _ _ => ⟨⟨⟩, ⟨⟩⟩

variable {invariant : Draft → Prop}

structure Suited (graph : Graph) : Prop where
  built : ∃ entries requested, Graph.build entries requested = .ok graph
  wellScoped : graph.WellScoped
  plain : graph.PlainNames
  unclashing : graph.Unclashing

theorem Suited.body {graph : Graph} (suited : Suited graph) {bound : Nat} {node : Node}
    {members : List Member} (flattened : Member.ofNodeFrom graph bound node = .ok members)
    (inGraph : node ∈ graph.nodes) {group : Node} (listed : group ∈ members.filterMap Member.group) :
    group ∈ graph.nodes ∧ group.kind = .struct := by
  obtain ⟨entries, requested, built⟩ := suited.built
  obtain ⟨member, isMember, isBody⟩ := List.mem_filterMap.mp listed
  obtain ⟨isOwner, isField, shown⟩ := mem_of_node_from flattened inGraph isMember
  obtain ⟨isGroup, found⟩ := shown group isBody
  have inNodes := Graph.mem_of_node? found
  exact ⟨inNodes, Graph.build_groups built group inNodes
    (suited.wellScoped.groupField built isOwner isField isGroup found).1⟩

theorem Suited.members {graph : Graph} (suited : Suited graph) {node : Node} {members : List Member}
    (flattened : Member.ofNode graph node = .ok members) (inGraph : node ∈ graph.nodes) :
    Free (viewNames node) (members.map Member.name) ∧
      ∀ member ∈ members, Starless member.field.name := by
  obtain ⟨kept, clear⟩ := suited.unclashing.members node inGraph members flattened
  refine ⟨⟨nodup_members flattened kept, ?_⟩, fun member listed => ?_⟩
  · intro name listed
    obtain ⟨member, isMember, rfl⟩ := List.mem_map.mp listed
    exact clear member isMember
  · obtain ⟨isOwner, isField, _⟩ := mem_of_node_from flattened inGraph listed
    exact (suited.plain.fields _ isOwner _ isField).starless

theorem Suited.constants {graph : Graph} (suited : Suited graph) {node : Node}
    (inGraph : node ∈ graph.nodes) (inner : node.kind ≠ .file) :
    Free graph.classNames (graph.constantNames node) ∧
      ∀ name ∈ graph.constantNames node, name ∉ node.partNames := by
  have free := suited.unclashing.constants node inGraph inner
  exact ⟨free.mono (List.subset_append_right _ _),
    fun name listed isPart => free.2 name listed (List.mem_append_left _ isPart)⟩

theorem declare_struct_becomes (frame : Frame plan invariant)
    (typing : Typing plan invariant (fun _ => ClassNamed plan.graph) fun _ _ => True)
    (suited : Suited plan.graph)
    {nested body : Node → Step Draft (List Declaration)} {node : Node} (inGraph : node ∈ plan.graph.nodes)
    (isStruct : node.kind = .struct)
    (givesNested : (nested node).Gives invariant
      (Encloses plan.graph (plan.graph.constantNames node)))
    (givesBody : ∀ group ∈ plan.graph.nodes, (body group).Gives invariant (Becomes plan.graph group)) :
    (Struct.declare plan nested body node).Gives invariant fun declaration =>
      Becomes plan.graph node [declaration] := by
  obtain ⟨constantsFree, constantsClear⟩ := suited.constants inGraph (by simp [isStruct])
  have parts : node.partNames = ["Dict", "Reader", "Builder", "new_message", "from_bytes", "read"] := by
    unfold Node.partNames
    rw [isStruct]
  unfold Struct.declare
  refine .of_bind (typing.internalOf node) fun internal named => ?_
  refine .of_bind (.of_keeps (frame.markDeclared _)) fun _ _ => ?_
  refine .of_bind (.of_of_except _) fun members flattened => ?_
  obtain ⟨free, starless⟩ := suited.members flattened inGraph
  refine .of_ite_bind (.of_pure Encloses.nil) givesNested
    fun inner (encloses : Encloses plan.graph (plan.graph.constantNames node) inner) => ?_
  refine .of_bind (.of_mapM fun group listed => givesBody group (suited.body flattened inGraph listed).1)
    fun blocks become => ?_
  have noConstants : (members.filterMap Member.group).flatMap Node.constantName = [] := by
    refine List.flatMap_eq_nil_iff.mpr fun group listed => ?_
    simp [Node.constantName, (suited.body flattened inGraph listed).2]
  have groups : Encloses plan.graph [] blocks.flatten :=
    noConstants ▸ Encloses.flatten become (by rw [noConstants]; exact ⟨.nil, by simp⟩)
  have all : Encloses plan.graph (plan.graph.constantNames node) (inner ++ blocks.flatten) := by
    have both := encloses.append groups (by simpa using constantsFree)
    simpa using both
  refine .of_bind (typing.views node internal members) ?_
  rintro _ ⟨dict, reader, builder, rfl, isDict, isReader, isBuilder⟩
  have views : NamedWithin ["Dict", "Reader", "Builder"] [dict, reader, builder] := by
    obtain ⟨_, rfl, _⟩ := isDict
    obtain ⟨_, rfl, _⟩ := isReader
    obtain ⟨_, _, rfl, _⟩ := isBuilder
    exact .of_nodup rfl (by decide)
  have viewsNearly : ∀ declaration ∈ [dict, reader, builder], declaration.NearlyApart := by
    simp only [List.forall_mem_cons, List.not_mem_nil, false_imp_iff, implies_true, and_true]
    exact ⟨isDict.nearlyApart free.1, isReader.nearlyApart free, isBuilder.nearlyApart free⟩
  split
  · refine .of_pure (.class named.1 named.2 (.class ?_ ?_))
    · refine all.body views (by decide) fun name listed isView => constantsClear name listed ?_
      rw [parts]
      exact List.mem_append_left ["new_message", "from_bytes", "read"] isView
    · exact List.forall_mem_append.mpr ⟨all.inner, viewsNearly⟩
  · rename_i single
    have keywords : ["self", "kwargs"] ⊆ viewNames node := by
      unfold viewNames
      simp [single]
    refine .of_bind (typing.newMessage internal members) fun message isMessage => ?_
    have messages : NamedWithin ["new_message", "from_bytes", "read"]
        [message, Struct.fromBytes internal, Struct.readFile internal] := by
      obtain ⟨_, rfl, _⟩ := isMessage
      exact .of_nodup rfl (by decide)
    refine .of_pure (.class named.1 named.2 (.class ?_ ?_))
    · rw [List.append_assoc]
      refine all.body (views.append messages (by decide)) (by decide) fun name listed isPart => ?_
      exact constantsClear name listed (parts ▸ isPart)
    · refine List.forall_mem_append.mpr ⟨List.forall_mem_append.mpr ⟨all.inner, viewsNearly⟩, ?_⟩
      refine List.forall_mem_cons.mpr ⟨isMessage.nearlyApart (free.mono keywords) starless, ?_⟩
      exact fun _ => apart_reading

theorem declare_enum_becomes (frame : Frame plan invariant)
    (typing : Typing plan invariant (fun _ => ClassNamed plan.graph) fun _ _ => True)
    (suited : Suited plan.graph)
    {node : Node} (inGraph : node ∈ plan.graph.nodes) (isEnum : node.kind = .enum) :
    (Enum.declare node).Gives invariant fun declaration => Becomes plan.graph node [declaration] := by
  have free := suited.unclashing.enumerants node inGraph isEnum
  unfold Enum.declare
  split
  · exact .of_fail _
  · refine .of_bind (typing.internalOf node) fun internal named => ?_
    refine .of_bind (.of_keeps (frame.markDeclared _)) fun _ _ => .of_pure ?_
    refine .class named.1 named.2 (.class ?_ ?_)
    · have values : NamedWithin ["Value"] [.typeAlias "Value" (literal node.enumerants)] :=
        .of_nodup rfl (by decide)
      have own : NamedWithin (node.enumerants.map safeName)
          (node.enumerants.map fun name => .annotated (safeName name) "int") :=
        .of_nodup (by rw [List.map_map]; rfl) free.1
      refine (values.append own fun name isValue again => ?_).apart
      exact free.2 name again isValue
    · refine List.forall_mem_cons.mpr ⟨.typeAlias, fun declaration listed => ?_⟩
      obtain ⟨name, _, rfl⟩ := List.mem_map.mp listed
      exact .annotated

theorem declare_interface_becomes (frame : Frame plan invariant)
    (typing : Typing plan invariant (fun _ => ClassNamed plan.graph) fun _ _ => True)
    (suited : Suited plan.graph)
    {nested : Node → Step Draft (List Declaration)} {node : Node} (inGraph : node ∈ plan.graph.nodes)
    (isInterface : node.kind = .interface)
    (givesNested : (nested node).Gives invariant
      (Encloses plan.graph (plan.graph.constantNames node))) :
    (Interface.declare plan nested node).Gives invariant fun declaration =>
      Becomes plan.graph node [declaration] := by
  have arguments : ∀ method ∈ node.methods, ArgumentsApart method := by
    intro method listed
    obtain ⟨params, results⟩ := suited.unclashing.arguments node inGraph isInterface method listed
    refine ⟨fun field inside => ?_, params, results⟩
    exact (suited.plain.arguments node inGraph method listed field
      (List.mem_append_left _ inside)).starless
  obtain ⟨_, constantsClear⟩ := suited.constants inGraph (by simp [isInterface])
  have parts : node.partNames =
      node.methods.flatMap protocolNames ++ ["Client", "Server", "_new_client"] := by
    unfold Node.partNames
    rw [isInterface]
  unfold Interface.declare
  refine .of_bind (typing.internalOf node) fun internal named => ?_
  refine .of_bind (.of_keeps (frame.markDeclared _)) fun _ _ => ?_
  refine .of_bind givesNested fun inner encloses => ?_
  refine .of_bind (typing.bases node) ?_
  rintro ⟨clientBases, serverBases⟩ _
  refine .of_bind (typing.surfaces node internal [] node.methods) ?_
  rintro surfaces ⟨surfaced, stems, _⟩
  obtain ⟨⟨protocols, protocolsNearly⟩, client, server⟩ := within_surfaces surfaced stems arguments
    (suited.unclashing.contexts node inGraph isInterface) clientBases serverBases
  have newClientNearly : (Interface.newClient internal).NearlyApart :=
    .fixed ["server"] rfl (by decide)
  have others : NamedWithin ["Client", "Server", "_new_client"]
      [.class "Client" clientBases [] (surfaces.map Interface.Surface.client),
        .class "Server" serverBases [] (surfaces.flatMap Interface.Surface.server),
        Interface.newClient internal] := .of_nodup rfl (by decide)
  have otherEndings : ∀ name ∈ ["Client", "Server", "_new_client"],
      ending name ∉ protocolWords.map ending := by decide
  have ownEndings : ending moduleWord ∉ protocolWords.map ending := by decide
  refine .of_pure (.class named.1 named.2 (.class ?_ ?_))
  · rw [List.append_assoc]
    refine encloses.body (protocols.append others fun name isProtocol isOther => ?_) ?_ ?_
    · obtain ⟨method, _, isName⟩ := List.mem_flatMap.mp isProtocol
      exact otherEndings name isOther (ending_protocol_name isName)
    · refine List.forall_mem_append.mpr ⟨fun name isProtocol => ?_, by decide⟩
      obtain ⟨method, _, isName⟩ := List.mem_flatMap.mp isProtocol
      rw [Bool.eq_false_iff]
      intro ends
      apply ownEndings
      rw [← ending_of_ends_with (by decide) ends]
      exact ending_protocol_name isName
    · exact fun name listed isPart => constantsClear name listed (parts ▸ isPart)
  · simp only [List.forall_mem_append, List.forall_mem_cons, List.not_mem_nil, false_imp_iff,
      implies_true, and_true]
    exact ⟨⟨encloses.inner, protocolsNearly⟩, client, server, newClientNearly⟩

theorem nested_declarations_encloses (suited : Suited plan.graph)
    {declare : Node → Step Draft (List Declaration)}
    (gives : ∀ node ∈ plan.graph.nodes, (declare node).Gives invariant (Becomes plan.graph node))
    {node : Node} (inGraph : node ∈ plan.graph.nodes) (inner : node.kind ≠ .file) :
    (nestedDeclarations plan declare node).Gives invariant
      (Encloses plan.graph (plan.graph.constantNames node)) := by
  have each : (node.nested.mapM (nestedDeclaration plan declare node)).Gives invariant
      (List.Forall₂ (fun id block => ∃ inner, plan.graph.node? id = some inner ∧
        Becomes plan.graph inner block) node.nested) := by
    refine .of_mapM fun id _ => ?_
    unfold nestedDeclaration
    split
    · exact .of_fail _
    · rename_i nested found
      split
      · exact .of_pure ⟨nested, found, .nothing⟩
      · exact .imp (gives nested (Graph.mem_of_node? found)) fun _ becomes => ⟨nested, found, becomes⟩
  refine .of_bind each fun blocks become => .of_pure ?_
  exact .flatten (Lists.forall₂_filterMap become) (suited.constants inGraph inner).1

/-- What a node becomes binds names once, however deep declarations nest. -/
theorem declare_from_becomes (frame : Frame plan invariant)
    (typing : Typing plan invariant (fun _ => ClassNamed plan.graph) fun _ _ => True)
    (suited : Suited plan.graph)
    (bound : Nat) :
    ∀ node ∈ plan.graph.nodes, (declareFrom plan bound node).Gives invariant
      (Becomes plan.graph node) := by
  obtain ⟨entries, requested, built⟩ := suited.built
  induction bound with
  | zero => exact fun node _ => .of_fail _
  | succ bound induction =>
      intro node inGraph
      have nested : node.kind ≠ .file →
          (nestedDeclarations plan (declareFrom plan bound) node).Gives invariant
            (Encloses plan.graph (plan.graph.constantNames node)) :=
        fun inner => nested_declarations_encloses suited induction inGraph inner
      have declared : node.kind = .struct →
          (Struct.declare plan (nestedDeclarations plan (declareFrom plan bound))
            (declareFrom plan bound) node).Gives invariant fun declaration =>
              Becomes plan.graph node [declaration] := fun isStruct =>
        declare_struct_becomes frame typing suited inGraph isStruct (nested (by simp [isStruct])) induction
      unfold declareFrom
      dsimp only
      split
      · rename_i isGroup
        have isStruct := Graph.build_groups built node inGraph isGroup
        exact .of_bind (declared isStruct) fun declaration becomes => .of_pure becomes
      · unfold declareKind
        refine .of_bind (.of_keeps (frame.note _)) fun _ _ => ?_
        split
        · rename_i isStruct
          exact .of_bind (declared isStruct) fun declaration becomes => .of_pure becomes
        · rename_i isEnum
          exact .of_bind (declare_enum_becomes frame typing suited inGraph isEnum)
            fun declaration becomes => .of_pure becomes
        · rename_i isInterface
          exact .of_bind (declare_interface_becomes frame typing suited inGraph isInterface
            (nested (by simp [isInterface]))) fun declaration becomes => .of_pure becomes
        · rename_i isConst
          have constantBecomes : (constant plan node).Gives invariant fun declaration =>
              Becomes plan.graph node [declaration] :=
            .of_bind (typing.typeText .reader node.constType) fun type _ => .of_pure (.constant isConst)
          exact .of_bind constantBecomes fun declaration becomes => .of_pure becomes
        · exact .of_pure .nothing
        · exact .of_fail _
        · exact .of_fail _

abbrev AllNearlyApart (declarations : List Declaration) : Prop :=
  ∀ declaration ∈ declarations, declaration.NearlyApart

theorem declare_top_level_nearly_apart (frame : Frame plan invariant)
    (typing : Typing plan invariant (fun _ => ClassNamed plan.graph) fun _ _ => True)
    (suited : Suited plan.graph)
    {node : Node} (inGraph : node ∈ plan.graph.nodes) :
    (declareTopLevel plan node).Gives invariant AllNearlyApart := by
  have declared : (declareNode plan node).Gives invariant AllNearlyApart := by
    unfold declareNode
    split
    · exact .of_bind (.of_keeps (frame.note _)) fun _ _ => .of_fail _
    · exact .imp (declare_from_becomes frame typing suited _ node inGraph) fun block becomes =>
        becomes.encloses.inner
  unfold declareTopLevel
  refine .of_bind declared fun declarations nearly => ?_
  refine .of_bind (.mapM_flatten fun declaration listed => ?_)
    fun bound (all : AllNearlyApart bound.flatten) => .of_pure all
  have own : declaration.NearlyApart := nearly declaration listed
  unfold bindTopLevel
  split
  · exact .of_bind (.of_keeps (frame.bind _ _)) fun _ _ => .of_pure (List.forall_mem_singleton.mpr own)
  · refine .of_bind (.of_keeps (frame.bind _ _)) fun _ _ => ?_
    refine .of_bind (.of_keeps (frame.bind _ _)) fun _ _ => .of_pure ?_
    exact List.forall_mem_cons.mpr ⟨own, List.forall_mem_singleton.mpr .annotated⟩
  · exact .of_pure (List.forall_mem_singleton.mpr own)

theorem casts_nearly_apart (name view : String) (targets : List AnyPointer.Target) :
    NamedWithin [name] (AnyPointer.casts name view targets) ∧
      AllNearlyApart (AnyPointer.casts name view targets) := by
  refine ⟨within_overloads ?_, apart_overloads (by decide : (∀ name ∈ ["schema"], Starless name) ∧
    Free ["self"] ["schema"]) ?_⟩
  all_goals
    simp only [List.mem_append, List.mem_map, List.mem_singleton]
    rintro _ (⟨_, _, rfl⟩ | rfl)
    all_goals first | exact rfl | exact ⟨[], rfl⟩

theorem declare_any_pointer_nearly_apart (frame : Frame plan invariant) :
    (AnyPointer.declare plan).Gives invariant Declaration.NearlyApart := by
  unfold AnyPointer.declare
  refine .of_bind (.of_keeps frame.anyPointerTargets) fun targets _ => .of_pure ?_
  obtain ⟨structs, structsNearly⟩ := casts_nearly_apart "as_struct" ".Reader"
    (targets.filter fun target => !target.isInterface)
  obtain ⟨interfaces, interfacesNearly⟩ := casts_nearly_apart "as_interface" ".Client"
    (targets.filter AnyPointer.Target.isInterface)
  have others : NamedWithin ["as_list", "as_text"] [
      .method { name := "as_list", params := [{ name := "schema", type := "Any" }],
                returns := "Sequence[Any]" },
      .method { name := "as_text", returns := "str" }] := .of_nodup rfl (by decide)
  refine .class ((structs.append interfaces (by decide)).append others (by decide)).apart ?_
  simp only [List.forall_mem_append, List.forall_mem_cons, List.not_mem_nil, false_imp_iff,
    implies_true, and_true]
  exact ⟨⟨structsNearly, interfacesNearly⟩, .fixed ["schema"] rfl (by decide), .bare rfl⟩

theorem declare_file_nearly_apart (frame : Frame plan invariant)
    (typing : Typing plan invariant (fun _ => ClassNamed plan.graph) fun _ _ => True)
    (suited : Suited plan.graph) :
    (declareFile plan).Gives invariant AllNearlyApart := by
  unfold declareFile
  refine .of_get_bind fun draft _ => ?_
  refine .of_bind (.mapM_flatten fun node listed => ?_)
    fun blocks (all : AllNearlyApart blocks.flatten) => ?_
  · obtain ⟨found, _, _⟩ := mem_top_level_nodes listed
    exact declare_top_level_nearly_apart frame typing suited (Graph.mem_of_node? found)
  · refine .of_get_bind fun reached _ => ?_
    split
    · refine .of_bind (.of_keeps (frame.bind _ _)) fun _ _ => ?_
      refine .of_bind (declare_any_pointer_nearly_apart frame) fun anyPointer own => .of_pure ?_
      exact List.forall_mem_append.mpr ⟨all, List.forall_mem_singleton.mpr own⟩
    · exact .of_pure all

end Declaring

section Run

variable {graph : Graph} {registry : Registry} {file : Node} {declarations : List Declaration}

theorem Denoting.nodup_paths (denoting : Denoting graph registry file declarations)
    {entries : List (Option Node)} {requested : List Id}
    (built : Graph.build entries requested = .ok graph) (undotted : graph.Undotted)
    (apart : graph.FlattenedApart) (held : registry.Held graph) :
    ((moduleClasses "" declarations).map ClassStatement.path).Nodup := by
  obtain ⟨owners, distinct, isOwner, classes⟩ := denoting.classes
  have paths : List.Forall₂ Eq (owners.map fun node => registry.internal? node.id)
      ((moduleClasses "" declarations).map fun statement => some statement.path) := by
    rw [List.forall₂_map_left_iff, List.forall₂_map_right_iff]
    exact classes.imp fun _ _ made => made.1.path
  rw [List.forall₂_eq_eq_eq] at paths
  apply List.Nodup.of_map some
  rw [List.map_map]
  simp only [Function.comp_def]
  rw [← paths]
  refine List.Nodup.map_on (fun one inOne two inTwo same => ?_) distinct
  obtain ⟨oneFound, oneClass, oneFile⟩ := (isOwner one).mp inOne
  obtain ⟨twoFound, twoClass, twoFile⟩ := (isOwner two).mp inTwo
  obtain ⟨_, oneChain⟩ := Graph.scope_chain_of_file oneFound oneFile
  obtain ⟨_, twoChain⟩ := Graph.scope_chain_of_file twoFound twoFile
  obtain ⟨statement, _, classOf, _⟩ := Lists.exists_of_mem_left classes inOne
  exact held.eq_of_internal built undotted apart oneChain twoChain oneFound twoFound oneClass twoClass
    classOf.path (same ▸ classOf.path)

/-- In the stubs of a well-scoped schema with plain names that keep clear of each other and of the fixed
names, no class has two statements of one name, except for overloads and for a property with its
setter, and no method has two parameters of one name. -/
theorem scopes_bind_once {options : Options} {entries : List (Option Node)} {requested : List Id}
    (built : Graph.build entries requested = .ok graph) (wellScoped : graph.WellScoped)
    (plain : graph.PlainNames) (apart : graph.FlattenedApart) (unclashing : graph.Unclashing)
    {output : Output} (ran : (generate options graph).1 = .ok output) :
    ∃ plan resolved drafts registry, Completed options graph output plan resolved drafts registry ∧
      ∀ drafted ∈ drafts, ∃ declarations statements,
        Assembled plan registry drafted declarations statements ∧
        ∀ declaration ∈ declarations, declaration.BindsOnce := by
  obtain ⟨plan, resolved, drafts, registry, completed⟩ := completed_of_generate built ran
  refine ⟨plan, resolved, drafts, registry, completed, fun drafted member => ?_⟩
  obtain ⟨declarations, statements, assembled, denoting⟩ :=
    completed.denoting built wellScoped plain.undotted ran member
  obtain ⟨asked, prepared⟩ := completed.prepared
  obtain ⟨current, declared, fresh, declares⟩ :=
    (assembled.congr completed.aliases.symm completed.internal.symm).declares
  obtain ⟨_, _, _, rfl⟩ := completed.surveys
  have suited : Suited graph := ⟨⟨entries, requested, built⟩, wellScoped, plain, unclashing⟩
  have nearly := (declare_file_nearly_apart (standing_frame prepared.plan_located resolved drafted.file)
    (typing_class_named prepared.plan_located prepared.canonical plain.undotted) suited _ _ _ fresh
    declares).2
  have paths : ((moduleClasses "" declarations).map ClassStatement.path).Nodup :=
    (denoting.congr completed.aliases.symm completed.internal.symm).nodup_paths built plain.undotted
      apart prepared.held
  refine ⟨declarations, statements, assembled, fun declaration listed => ?_⟩
  exact (nearly declaration listed).bindsOnce
    (((module_classes_sublist listed).map ClassStatement.path).nodup paths)

end Run

def numbered (names : List String) : Graph where
  nodes := [
    aFile [2] [],
    { id := 2, kind := .struct, name := "S", displayName := "S", scope := 1,
      fields := names.map fun name => { name, kind := .slot, type := some { kind := .int32 } } }]
  requested := [1]

/-- A file with a struct that has a keyword for a field, an anonymous group and a nested constant, and
an interface whose method is named by a keyword too. -/
def workbench : Graph where
  nodes := [
    aFile [2, 5] [],
    { id := 2, kind := .struct, name := "Bench", displayName := "Bench", scope := 1, nested := [4],
      fields := [{ name := "class", kind := .slot, type := some { kind := .int32 } },
        { kind := .group, group := 3 }] },
    { id := 3, kind := .struct, isGroup := true, scope := 2,
      fields := [{ name := "vise", kind := .slot, type := some { kind := .text } }] },
    { id := 4, kind := .const, name := "legs", displayName := "legs", scope := 2,
      constType := some { kind := .int32 } },
    { id := 5, kind := .interface, name := "Saw", displayName := "Saw", scope := 1,
      methods := [{
        name := "from"
        params := [{ name := "edge", kind := .slot, type := some { kind := .int32 } }] }] }]
  requested := [1]

theorem workbench_unclashing : workbench.Unclashing where
  members := by
    have each : ∀ node ∈ workbench.nodes,
        ((Member.ofNode workbench node).toOption.all fun members => decide (
          (∀ one ∈ members, ∀ two ∈ members, one.name = two.name → one.field.name = two.field.name) ∧
            ∀ member ∈ members, member.name ∉ viewNames node)) = true := by decide +kernel
    intro node inGraph members flattened
    have shown := each node inGraph
    rw [flattened] at shown
    exact of_decide_eq_true shown
  enumerants := by decide +kernel
  arguments := by decide +kernel
  contexts := by decide +kernel
  constants := by decide +kernel

theorem scopes_bind_once_workbench :
    ∃ output plan resolved drafts registry,
      Completed {} workbench output plan resolved drafts registry ∧
      ∃ drafted ∈ drafts, drafted.file = aFile [2, 5] [] ∧ ∃ declarations statements,
        Assembled plan registry drafted declarations statements ∧
        ∀ declaration ∈ declarations, declaration.BindsOnce := by
  have built : Graph.build (workbench.nodes.map some) [1] = .ok workbench := rfl
  have plain : workbench.PlainNames := by constructor <;> decide +kernel
  have inFile : Graph.file workbench 1 = .ok (aFile [2, 5] []) := rfl
  obtain ⟨output, ran⟩ : ∃ output, (generate {} workbench).1 = .ok output :=
    generate_of_unobstructed rfl inFile (by decide +kernel)
  obtain ⟨plan, resolved, drafts, registry, completed, each⟩ :=
    scopes_bind_once built (by decide +kernel) plain (.of_nodup (by decide +kernel))
      workbench_unclashing ran
  obtain ⟨drafted, member, isFile⟩ := completed.drafted_of_mem List.mem_cons_self inFile
  exact ⟨output, plan, resolved, drafts, registry, completed, drafted, member, isFile,
    each drafted member⟩

/-- A field that goes by the name of the last parameter of every new message makes two parameters of
that name. -/
theorem kwargs_bound_twice :
    ∃ output stub statements declarations aliases declaration,
      Graph.build ((numbered ["kwargs"]).nodes.map some) [1] = .ok (numbered ["kwargs"]) ∧
      (numbered ["kwargs"]).PlainNames ∧
      (generate {} (numbered ["kwargs"])).1 = .ok output ∧ stub ∈ output.files ∧
      stub.content = renderLines (fileLines {} "a" statements (bodyLines declarations aliases)) ∧
      declaration ∈ declarations ∧ ¬ declaration.BindsOnce := by
  have seen : (((rehearse {} (numbered ["kwargs"]) (aFile [2] [])).outcome {}).1.toOption.any
      fun made => made.2.unobstructed && made.1.any Declaration.repeatsParameter) = true := by
    decide +kernel
  obtain ⟨⟨declarations, draft⟩, _, rehearsed, shown⟩ := Step.Returns.of_any seen
  rw [Bool.and_eq_true] at shown
  obtain ⟨free, repeats⟩ := shown
  obtain ⟨declaration, listed, twice⟩ := List.any_eq_true.mp repeats
  obtain ⟨output, stub, statements, ran, files, _, content, _⟩ :=
    generate_of_rehearsal rfl rfl rehearsed free
  exact ⟨output, stub, statements, declarations, _, declaration, rfl, by constructor <;> decide +kernel,
    ran, by simp [files], content, listed, Declaration.not_binds_once twice⟩

end SchemaStubs.Stub
