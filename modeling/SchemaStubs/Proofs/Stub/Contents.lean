import SchemaStubs.Proofs.Stub.ClassPlaces
import SchemaStubs.Proofs.Stub.Shapes

/-!
What stands in the declarations of a stub. The class of a node holds what its nested nodes and the
bodies of its groups are written as, and then the parts whose shapes depend on the kind of the node;
the top level holds what the nodes that the file lists are written as. Of each text of a type it is
said what is known of the texts that are written for what it stands for.
-/

namespace SchemaStubs.Stub

section Definitions

variable (typed : Meaning → String → Prop) (graph : Graph) (known : Id → Option String)
  (node : Node)

/-- What a node inside another one is written as. Its class is found by its path. -/
inductive Inside : List Declaration → Prop where
  | class {internal : String} {bases doc : List String} {body : List Declaration}
      (module : node.kind.hasModule = true) (held : known node.id = some internal) :
      Inside [.class (className internal) bases doc body]
  | const {type : String} (isConst : node.kind = .const)
      (holds : typed (.type .reader node.constType) type) :
      Inside [.annotated (safeName node.name) type]
  | nothing (unseen : node.kind = .annotationDecl) : Inside []

/-- What a node of the top level is written as. The module has a name of its own for a class. -/
inductive AtTop : List Declaration → Prop where
  | class {internal : String} {bases doc : List String} {body : List Declaration}
      (module : node.kind.hasModule = true) (held : known node.id = some internal) :
      AtTop [.class internal bases doc body, .annotated (safeName node.name) internal]
  | const {type : String} (isConst : node.kind = .const)
      (holds : typed (.type .reader node.constType) type) :
      AtTop [.annotated (safeName node.name) type]
  | nothing (unseen : node.kind = .annotationDecl) : AtTop []

def AreNested (blocks : List (List Declaration)) : Prop :=
  List.Forall₂ (fun id block => ∃ inner, graph.node? id = some inner ∧ Inside typed known inner block)
    node.nested blocks

inductive Holds (internal : String) : List Declaration → Prop where
  | struct {members : List Member} {nested groups : List (List Declaration)}
      {dict reader builder : Declaration} {makers : List Declaration} (isStruct : node.kind = .struct)
      (flattened : Member.ofNode graph node = .ok members)
      (areNested : AreNested typed graph known node nested)
      (bodies : List.Forall₂ (Inside typed known) (members.filterMap Member.group) groups)
      (isDict : Struct.IsDict typed members dict)
      (isReader : Struct.IsReader typed node internal members reader)
      (isBuilder : Struct.IsBuilder typed node internal members builder)
      (makes : if node.isGroup then makers = [] else Struct.AreMakers typed internal members makers) :
      Holds internal (nested.flatten ++ groups.flatten ++ [dict, reader, builder] ++ makers)
  | enum (isEnum : node.kind = .enum) :
      Holds internal (.typeAlias "Value" (literal node.enumerants) ::
        node.enumerants.map fun name => .annotated (safeName name) "int")
  | interface {nested : List (List Declaration)} {clientBases serverBases : List String}
      {surfaces : List Interface.Surface} (isInterface : node.kind = .interface)
      (areNested : AreNested typed graph known node nested)
      (areBases : Interface.AreBases typed node (clientBases, serverBases))
      (surfaced : List.Forall₂ (Interface.IsSurface typed internal) node.methods surfaces) :
      Holds internal (nested.flatten ++ surfaces.flatMap Interface.Surface.protocols ++ [
        .class "Client" clientBases [] (surfaces.map Interface.Surface.client),
        .class "Server" serverBases [] (surfaces.flatMap Interface.Surface.server),
        .method {
          name := "_new_client"
          params := [{ name := "server", type := internal ++ ".Server" }]
          returns := internal ++ ".Client" }])

end Definitions

variable {plan : Plan} {registry : Registry} {file node : Node} {named : Node → String → Prop}
  {typed : Meaning → String → Prop} {before after : Draft}

theorem Inside.imp {other : Meaning → String → Prop} {known : Id → Option String}
    {block : List Declaration}
    (const : node.kind = .const → ∀ text, typed (.type .reader node.constType) text →
      other (.type .reader node.constType) text)
    (inside : Inside typed known node block) : Inside other known node block := by
  cases inside with
  | «class» module held => exact .class module held
  | const isConst holds => exact .const isConst (const isConst _ holds)
  | nothing unseen => exact .nothing unseen

theorem AtTop.imp {other : Meaning → String → Prop} {known : Id → Option String}
    {block : List Declaration}
    (const : node.kind = .const → ∀ text, typed (.type .reader node.constType) text →
      other (.type .reader node.constType) text)
    (atTop : AtTop typed known node block) : AtTop other known node block := by
  cases atTop with
  | «class» module held => exact .class module held
  | const isConst holds => exact .const isConst (const isConst _ holds)
  | nothing unseen => exact .nothing unseen

theorem Inside.imp_of_module {other : Meaning → String → Prop} {known : Id → Option String}
    {block : List Declaration} (module : node.kind.hasModule = true)
    (inside : Inside typed known node block) : Inside other known node block := by
  refine inside.imp fun isConst => ?_
  rw [isConst] at module
  cases module

theorem declare_from_inside (scene : Scene plan registry)
    (typing : Typing plan (Standing registry file) named typed) (bound : Nat)
    (inGraph : node ∈ plan.graph.nodes) :
    (declareFrom plan bound node).Gives (Standing registry file) (Inside typed registry.internal? node) := by
  obtain ⟨entries, requested, built⟩ := scene.built
  intro before declarations after standing returns
  refine ⟨((standing_frame scene.located registry file).declareFrom bound node).returns returns
    standing, ?_⟩
  obtain ⟨_, _, declared⟩ := declare_from_returns returns
  cases declared with
  | struct isStruct begins declares =>
      obtain ⟨internal, _, _, _, _, _, parts, rfl⟩ := declare_struct_returns declares
      have kind : node.kind = .struct := isStruct.elim (Graph.build_groups built node inGraph) id
      exact .class (by rw [kind]; rfl)
        ((begins.standing scene.located standing).internal? node.id ▸ parts.identified)
  | enum _ isEnum begins declares =>
      obtain ⟨internal, identified, _, _, rfl⟩ := declare_enum_returns declares
      exact .class (by rw [isEnum]; rfl)
        ((begins.standing scene.located standing).internal? node.id ▸ identified)
  | interface _ isInterface begins declares =>
      obtain ⟨internal, _, _, _, _, parts, rfl⟩ := declare_interface_returns declares
      exact .class (by rw [isInterface]; rfl)
        ((begins.standing scene.located standing).internal? node.id ▸ parts.identified)
  | const _ isConst begins writes =>
      have starts := begins.standing scene.located standing
      exact .const isConst (typing.typeText .reader node.constType _ _ _ starts writes).2
  | nothing _ unseen _ => exact .nothing unseen

theorem nested_declarations_are_nested (scene : Scene plan registry)
    (typing : Typing plan (Standing registry file) named typed) (bound : Nat)
    (found : plan.graph.node? node.id = some node) :
    (nestedDeclarations plan (declareFrom plan bound) node).Gives (Standing registry file)
      fun inner => ∃ blocks, AreNested typed plan.graph registry.internal? node blocks ∧
        inner = blocks.flatten := by
  rw [nested_declarations_eq]
  refine .of_bind (.of_mapM fun id listed => ?_) fun blocks nested => .of_pure ⟨blocks, nested, rfl⟩
  unfold nestedDeclaration
  split
  · exact .of_fail _
  · rename_i inner innerFound
    rw [if_neg (by simp [(scene.nested_single found listed innerFound).1])]
    exact .imp (declare_from_inside scene typing bound (Graph.mem_of_node? innerFound))
      fun block inside => ⟨inner, innerFound, inside⟩

theorem StructParts.holds (scene : Scene plan registry)
    (typing : Typing plan (Standing registry file) named typed) {bound : Nat}
    (found : plan.graph.node? node.id = some node) (isStruct : node.kind = .struct)
    (standing : Standing registry file before) {internal : String} {members : List Member}
    {inner groups views extra : List Declaration}
    (parts : StructParts plan (nestedDeclarations plan (declareFrom plan bound))
      (declareFrom plan bound) node before after internal members inner groups views extra) :
    Holds typed plan.graph registry.internal? node internal (inner ++ groups ++ views ++ extra) := by
  have frame := standing_frame scene.located registry file
  obtain ⟨marked, nestedDone, groupsDone, viewsDone, marks, nests, ⟨blocks, bodies, rfl⟩, viewing,
    messages⟩ := parts.made
  have marking := (frame.markDeclared _).returns marks standing
  have ⟨nesting, areNested⟩ : Standing registry file nestedDone ∧
      ∃ blocks, AreNested typed plan.graph registry.internal? node blocks ∧ inner = blocks.flatten := by
    split at nests
    · rename_i isGroup
      obtain ⟨rfl, rfl⟩ := nests
      refine ⟨marking, [], ?_, rfl⟩
      unfold AreNested
      rw [scene.wellScoped.groups node (Graph.mem_of_node? found) isGroup]
      exact .nil
    · exact nested_declarations_are_nested scene typing bound found _ _ _ marking nests
  obtain ⟨nested, areNested, rfl⟩ := areNested
  have each : ∀ body ∈ members.filterMap Member.group, (declareFrom plan bound body).Gives
      (Standing registry file) (Inside typed registry.internal? body) := by
    intro body listed
    obtain ⟨member, isMember, isBody⟩ := List.mem_filterMap.mp listed
    obtain ⟨_, _, shown⟩ := mem_of_node_from parts.flattened (Graph.mem_of_node? found) isMember
    exact declare_from_inside scene typing bound (Graph.mem_of_node? (shown body isBody).2)
  obtain ⟨grouping, areBodies⟩ := Step.Gives.of_mapM each _ _ _ nesting bodies
  obtain ⟨viewed, dict, reader, builder, rfl, isDict, isReader, isBuilder⟩ :=
    typing.views node internal members _ _ _ grouping viewing
  refine .struct isStruct parts.flattened areNested areBodies isDict isReader isBuilder ?_
  split at messages
  · rename_i isGroup
    rw [if_pos isGroup]
    exact messages.1
  · rename_i single
    obtain ⟨message, makes, rfl⟩ := messages
    rw [if_neg single]
    exact ⟨message, (typing.newMessage internal members _ _ _ viewed makes).2, rfl⟩

theorem InterfaceParts.holds (scene : Scene plan registry)
    (typing : Typing plan (Standing registry file) named typed) {bound : Nat}
    (found : plan.graph.node? node.id = some node) (isInterface : node.kind = .interface)
    (standing : Standing registry file before) {internal : String} {inner : List Declaration}
    {clientBases serverBases : List String} {surfaces : List Interface.Surface}
    (parts : InterfaceParts plan (nestedDeclarations plan (declareFrom plan bound)) node before after
      internal inner clientBases serverBases surfaces) :
    Holds typed plan.graph registry.internal? node internal
      (inner ++ surfaces.flatMap Interface.Surface.protocols ++
        [.class "Client" clientBases [] (surfaces.map Interface.Surface.client),
          .class "Server" serverBases [] (surfaces.flatMap Interface.Surface.server),
          Interface.newClient internal]) := by
  obtain ⟨marked, nestedDone, based, marks, nests, bases, surfacing⟩ := parts.made
  have marking := ((standing_frame scene.located registry file).markDeclared _).returns marks standing
  obtain ⟨nesting, nested, areNested, rfl⟩ :=
    nested_declarations_are_nested scene typing bound found _ _ _ marking nests
  obtain ⟨basing, areBases⟩ := typing.bases node _ _ _ nesting bases
  obtain ⟨_, surfaced, _⟩ := typing.surfaces node internal [] node.methods _ _ _ basing surfacing
  exact .interface isInterface areNested areBases surfaced

theorem Made.holds (scene : Scene plan registry)
    (typing : Typing plan (Standing registry file) named typed) {marked : List Id}
    {statement : ClassStatement} (made : Made plan registry file marked node statement) :
    Holds typed plan.graph registry.internal? node statement.path statement.body := by
  obtain ⟨entries, requested, built⟩ := scene.built
  obtain ⟨bound, before, after, standing, returns, _⟩ := made.declares
  have path := made.path
  obtain ⟨outer, name, bases, doc, body⟩ := statement
  obtain ⟨less, rfl, declared⟩ := declare_from_returns returns
  have same : ∀ {start : Draft} {internal : String}, Begins node before start →
      start.registry.internal? node.id = some internal → internal = outer := by
    intro start internal begins held
    rw [(begins.standing scene.located standing).internal?, path] at held
    exact (Option.some.inj held).symm
  cases declared with
  | struct isStruct begins declares =>
      have kind : node.kind = .struct :=
        isStruct.elim (Graph.build_groups built node (Graph.mem_of_node? made.found)) id
      obtain ⟨internal, _, _, _, _, _, parts, shape⟩ := declare_struct_returns declares
      obtain ⟨_, rfl, rfl, rfl⟩ := Declaration.class.inj shape
      rw [← same begins parts.identified]
      exact parts.holds scene typing made.found kind (begins.standing scene.located standing)
  | enum _ isEnum begins declares =>
      obtain ⟨_, _, _, _, shape⟩ := declare_enum_returns declares
      obtain ⟨_, rfl, rfl, rfl⟩ := Declaration.class.inj shape
      exact .enum isEnum
  | interface _ isInterface begins declares =>
      obtain ⟨internal, _, _, _, _, parts, shape⟩ := declare_interface_returns declares
      obtain ⟨_, rfl, rfl, rfl⟩ := Declaration.class.inj shape
      rw [← same begins parts.identified]
      exact parts.holds scene typing made.found isInterface (begins.standing scene.located standing)

/-- A node of the top level stands there as it would stand inside another one. -/
theorem declare_top_level_at_top (scene : Scene plan registry)
    (typing : Typing plan (Standing registry file) named typed)
    (found : plan.graph.node? node.id = some node) (place : plan.graph.node? node.scope = some file)
    (isFile : file.kind = .file) :
    (declareTopLevel plan node).Gives (Standing registry file) (AtTop typed registry.internal? node) := by
  intro before block after standing returns
  obtain ⟨entries, requested, built⟩ := scene.built
  refine ⟨((standing_frame scene.located registry file).declareTopLevel node).returns returns
    standing, ?_⟩
  obtain ⟨declarations, middle, blocks, declares, binds, rfl⟩ := declare_top_level_returns returns
  obtain ⟨single, within⟩ := declare_node_returns declares
  obtain ⟨_, inside⟩ := declare_from_inside scene typing _ (Graph.mem_of_node? found) _ _ _ standing within
  cases inside with
  | @«class» internal bases doc body module held =>
      -- nothing is around the class, so its name is all of its path
      have named : plan.graph.isAnonymousGroup file = false :=
        Graph.is_anonymous_group_of_file isFile (Graph.build_groups built file (Graph.mem_of_node? place))
      obtain ⟨path, name⟩ := scene.class_path found
        ⟨module, by simp [Graph.isAnonymousGroup, single]⟩ (.direct place named)
        (.plain (by rw [isFile]; rfl)) held
      have top : className internal = internal := name.trans path.symm
      rw [top] at binds
      simp only [List.mapM_cons, List.mapM_nil, bindTopLevel, Step.Returns.bind_iff,
        Step.Returns.pure_iff] at binds
      obtain ⟨_, _, ⟨_, _, _, _, _, _, rfl, rfl⟩, _, _, ⟨rfl, rfl⟩, rfl, rfl⟩ := binds
      exact .class module held
  | const isConst holds =>
      simp only [List.mapM_cons, List.mapM_nil, bindTopLevel, Step.Returns.bind_iff,
        Step.Returns.pure_iff] at binds
      obtain ⟨_, _, ⟨_, _, _, rfl, rfl⟩, _, _, ⟨rfl, rfl⟩, rfl, rfl⟩ := binds
      exact .const isConst holds
  | nothing unseen =>
      rw [List.mapM_nil] at binds
      obtain ⟨rfl, rfl⟩ := Step.Returns.pure_iff.mp binds
      exact .nothing unseen

theorem declare_file_at_top (scene : Scene plan registry)
    (typing : Typing plan (Standing registry file) named typed)
    (found : plan.graph.node? file.id = some file) (isFile : file.kind = .file)
    (standing : Standing registry file before) {declarations : List Declaration}
    (returns : (declareFile plan).Returns before declarations after) :
    ∃ blocks extra reached, declarations = blocks.flatten ++ extra ∧
      List.Forall₂ (AtTop typed registry.internal?) (topLevelNodes plan file.id) blocks ∧
      Standing registry file reached ∧ Appended plan file.id reached extra after := by
  obtain ⟨blocks, reached, extra, declares, appended, rfl⟩ := declare_file_returns returns
  rw [standing.ofFile] at declares appended
  have each : ∀ node ∈ topLevelNodes plan file.id, (declareTopLevel plan node).Gives
      (Standing registry file) (AtTop typed registry.internal? node) := by
    intro node listed
    obtain ⟨nodeFound, _, inFile⟩ := mem_top_level_nodes listed
    exact declare_top_level_at_top scene typing nodeFound (inFile ▸ found) isFile
  obtain ⟨stands, atTop⟩ := Step.Gives.of_mapM each _ _ _ standing declares
  exact ⟨blocks, extra, reached, rfl, atTop, stands, appended⟩

end SchemaStubs.Stub
