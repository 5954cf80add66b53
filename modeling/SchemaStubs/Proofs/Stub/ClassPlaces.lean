import SchemaStubs.Proofs.Stub.ClassParts
import SchemaStubs.Proofs.Stub.Flattening
import SchemaStubs.Proofs.Stub.ModuleNames

/-!
Where the classes of nodes stand. The declarations of a node hold one class for each node with a
class at and under it, in the order of the declarations, and the path of that class is the
identifier of its node. Identifiers come from the scopes around a node and classes from what stands
inside one, so the two meet at the home of a node: the class that it is put into once anonymous
groups are flattened.
-/

namespace SchemaStubs

theorem Graph.Preorder.parts {graph : Graph} {ids order : List Id} (preorder : graph.Preorder ids order) :
    ∃ orders : List (List Id), order = orders.flatten ∧
      List.Forall₂ (fun id part => graph.Preorder [id] part) ids orders := by
  induction preorder with
  | nil => exact ⟨[], rfl, .nil⟩
  | cons found under _ _ induction =>
      obtain ⟨orders, rfl, related⟩ := induction
      exact ⟨_ :: orders, rfl, .cons (by simpa using Preorder.cons found under .nil) related⟩

namespace Stub

/-- A run on a well-scoped graph whose names have no points, with its identifiers. -/
structure Scene (plan : Plan) (registry : Registry) : Prop where
  built : ∃ entries requested, Graph.build entries requested = .ok plan.graph
  wellScoped : plan.graph.WellScoped
  undotted : plan.graph.Undotted
  located : plan.Located
  canonical : registry.Canonical plan.graph

structure Marking (registry : Registry) (file : Node) (id : Id) (draft : Draft) : Prop extends
    Standing registry file draft where
  marked : id ∈ draft.registry.referenced

theorem marking_frame {plan : Plan} (located : plan.Located) (registry : Registry) (file : Node)
    (id : Id) : Frame plan (Marking registry file id) where
  targets target reference known := (located target reference known).1
  markReferenced other draft marking := by
    refine { marking with marked := ?_ }
    show id ∈ if other ∈ draft.registry.referenced then _ else _
    split
    · exact marking.marked
    · exact List.mem_append_left _ marking.marked
  anyPointer _ marking := { marking with }
  importAliases _ _ _ roles _ _ _ _ :=
    import_aliases_keeps (fun _ marking => marking.resolved)
      (fun _ _ marking _ => { marking with }) (fun _ _ _ _ marking _ _ => { marking with }) roles _
  note _ _ marking := { marking with }
  markDeclared _ _ marking := { marking with }
  bind _ _ := bind_keeps fun _ _ _ marking => { marking with }
  getAlias := get_alias_keeps fun _ marking => marking.resolved

variable {plan : Plan} {registry : Registry} {file : Node} {before after : Draft}

theorem referenced_subset {α : Type} {step : Step Draft α} {value : α} (located : plan.Located)
    (keeps : ∀ {invariant : Draft → Prop}, Frame plan invariant → step.Keeps invariant)
    (standing : Standing registry file before) (returns : step.Returns before value after) :
    before.registry.referenced ⊆ after.registry.referenced := by
  intro id marked
  exact ((keeps (marking_frame located registry file id)).returns returns ⟨standing, marked⟩).marked

structure Made (plan : Plan) (registry : Registry) (file : Node) (marked : List Id) (node : Node)
    (statement : ClassStatement) : Prop where
  found : plan.graph.node? node.id = some node
  hasClass : plan.graph.HasClass node
  path : registry.internal? node.id = some statement.path
  name : statement.name = node.segment (Registry.groupName plan.graph node)
  declares : ∃ bound before after, Standing registry file before ∧
    (declareFrom plan bound node).Returns before
      [.class statement.name statement.bases statement.doc statement.body] after ∧
    after.registry.referenced ⊆ marked

theorem Made.mono {marked more : List Id} {node : Node} {statement : ClassStatement}
    (made : Made plan registry file marked node statement) (subset : marked ⊆ more) :
    Made plan registry file more node statement := by
  obtain ⟨bound, before, after, standing, declares, within⟩ := made.declares
  exact { made with declares := ⟨bound, before, after, standing, declares, List.Subset.trans within subset⟩ }

def Places (plan : Plan) (registry : Registry) (file : Node) (marked : List Id) (outer : String)
    (order : List Id) (declarations : List Declaration) : Prop :=
  List.Forall₂ (Made plan registry file marked) (plan.graph.classNodes order)
    (moduleClasses outer declarations)

theorem Places.mono {marked more : List Id} {outer : String} {order : List Id}
    {declarations : List Declaration}
    (places : Places plan registry file marked outer order declarations) (subset : marked ⊆ more) :
    Places plan registry file more outer order declarations :=
  List.Forall₂.imp (fun _ _ made => made.mono subset) places

theorem Places.append {marked : List Id} {outer : String} {order others : List Id}
    {declarations more : List Declaration}
    (first : Places plan registry file marked outer order declarations)
    (second : Places plan registry file marked outer others more) :
    Places plan registry file marked outer (order ++ others) (declarations ++ more) := by
  unfold Places
  rw [Graph.class_nodes_append, module_classes_append]
  exact List.rel_append first second

theorem mapM_places {α : Type} {body : α → Step Draft (List Declaration)} {items : List α}
    {outer : String} {leads : α → List Id → Prop} (located : plan.Located)
    (keeps : ∀ item {invariant : Draft → Prop}, Frame plan invariant → (body item).Keeps invariant)
    (each : ∀ item ∈ items, ∀ order before block after, leads item order →
      Standing registry file before → (body item).Returns before block after →
      Places plan registry file after.registry.referenced outer order block)
    {orders : List (List Id)} (related : List.Forall₂ leads items orders)
    {blocks : List (List Declaration)} (standing : Standing registry file before)
    (returns : (items.mapM body).Returns before blocks after) :
    Places plan registry file after.registry.referenced outer orders.flatten blocks.flatten := by
  induction related generalizing before blocks with
  | nil =>
      rw [List.mapM_nil] at returns
      obtain ⟨rfl, _⟩ := Step.Returns.pure_iff.mp returns
      exact .nil
  | @cons item order items orders first _ induction =>
      rw [List.mapM_cons] at returns
      simp only [Step.Returns.bind_iff] at returns
      obtain ⟨block, middle, here, more, _, later, last⟩ := returns
      obtain ⟨rfl, rfl⟩ := Step.Returns.pure_iff.mp last
      have stands := (keeps item (standing_frame located registry file)).returns here standing
      have subset := referenced_subset located
        (fun frame => .of_mapM fun other _ => keeps other frame) stands later
      rw [List.flatten_cons, List.flatten_cons]
      refine .append ((each item List.mem_cons_self order _ _ _ first standing here).mono subset) ?_
      exact induction (fun other member => each other (List.mem_cons_of_mem _ member)) stands later

theorem Places.plain {marked : List Id} {outer : String} {declarations : List Declaration}
    (plain : moduleClasses outer declarations = []) :
    Places plan registry file marked outer [] declarations := by
  unfold Places
  rw [plain]
  exact .nil

theorem Places.append_plain {marked : List Id} {outer : String} {order : List Id}
    {declarations more : List Declaration}
    (places : Places plan registry file marked outer order declarations)
    (plain : moduleClasses outer more = []) :
    Places plan registry file marked outer order (declarations ++ more) := by
  unfold Places
  rwa [module_classes_append, plain, List.append_nil]

section Tree

variable {node home : Node} {outer internal : String}

/-- What is declared as a struct has a class, unless it is an anonymous group. -/
theorem Scene.has_class_struct (scene : Scene plan registry)
    (found : plan.graph.node? node.id = some node) (isStruct : node.isGroup = true ∨ node.kind = .struct)
    (named : plan.graph.isAnonymousGroup node = false) : plan.graph.HasClass node := by
  obtain ⟨_, _, built⟩ := scene.built
  refine ⟨?_, named⟩
  rcases isStruct with isGroup | isStruct
  · rw [Graph.build_groups built node (Graph.mem_of_node? found) isGroup]
    rfl
  · rw [isStruct]
    rfl

/-- A node that stands in a home is known behind the path of the home. -/
theorem Scene.class_path (scene : Scene plan registry) (found : plan.graph.node? node.id = some node)
    (hasClass : plan.graph.HasClass node) (inHome : plan.graph.Home node home)
    (homeIs : plan.graph.Identifies home outer) (held : registry.internal? node.id = some internal) :
    internal = Registry.qualify outer (node.segment (Registry.groupName plan.graph node)) ∧
      className internal = node.segment (Registry.groupName plan.graph node) := by
  obtain ⟨entries, requested, built⟩ := scene.built
  obtain ⟨same, sameFound, identified⟩ := scene.canonical node.id internal held
  rw [found] at sameFound
  cases sameFound
  obtain ⟨parent, parentIs, rfl⟩ := identified.split inHome hasClass (Graph.build_groups built)
  rw [parentIs.unique homeIs]
  exact ⟨rfl, Registry.after_last_qualify (scene.undotted.segment (Graph.mem_of_node? found)
    (Graph.kind_ne_file_of_has_module hasClass.1))⟩

theorem Scene.identifies (scene : Scene plan registry) (found : plan.graph.node? node.id = some node)
    (held : registry.internal? node.id = some internal) : plan.graph.Identifies node internal := by
  obtain ⟨same, sameFound, identified⟩ := scene.canonical node.id internal held
  rw [found] at sameFound
  cases sameFound
  exact identified

theorem Scene.single (scene : Scene plan registry) (found : plan.graph.node? node.id = some node)
    (other : node.kind ≠ .struct) : node.isGroup = false := by
  obtain ⟨entries, requested, built⟩ := scene.built
  by_contra group
  exact other (Graph.build_groups built node (Graph.mem_of_node? found) (by simpa using group))

theorem Scene.childless (scene : Scene plan registry) (found : plan.graph.node? node.id = some node)
    (leaf : node.kind ≠ .file ∧ node.kind ≠ .struct ∧ node.kind ≠ .interface) :
    node.children = [] := by
  obtain ⟨entries, requested, built⟩ := scene.built
  apply List.eq_nil_iff_forall_not_mem.mpr
  intro id under
  obtain ⟨child, childFound, _, inNode⟩ :=
    scene.wellScoped.child built (Graph.mem_of_node? found) under
  rcases Graph.build_scope_kind built (Graph.mem_of_node? childFound) inNode with
    isFile | isStruct | isInterface
  · exact leaf.1 isFile
  · exact leaf.2.1 isStruct
  · exact leaf.2.2 isInterface

/-- A nested declaration is no group: a group stands under its scope as the body of a field. -/
theorem Scene.nested_single (scene : Scene plan registry)
    (found : plan.graph.node? node.id = some node) {id : Id} (listed : id ∈ node.nested)
    {inner : Node} (innerFound : plan.graph.node? id = some inner) :
    inner.isGroup = false ∧ plan.graph.node? inner.scope = some node := by
  obtain ⟨entries, requested, built⟩ := scene.built
  have member := Graph.mem_of_node? found
  obtain ⟨same, sameFound, notFile, inNode⟩ :=
    scene.wellScoped.child built member (List.mem_append_left _ listed)
  rw [innerFound] at sameFound
  cases sameFound
  refine ⟨?_, inNode⟩
  by_contra group
  obtain ⟨scope, scopeFound, place⟩ :=
    scene.wellScoped.inScope inner (Graph.mem_of_node? innerFound) notFile
  rw [inNode] at scopeFound
  cases scopeFound
  rw [if_pos (by simpa using group), Graph.id_of_node? innerFound] at place
  have once := (scene.wellScoped.forest built).once node member
  exact (List.nodup_append.mp once).2.2 id listed id place.2 rfl

theorem Places.ofClass (scene : Scene plan registry) {bound : Nat} {bases doc : List String}
    {body : List Declaration} {below : List Id} (found : plan.graph.node? node.id = some node)
    (hasClass : plan.graph.HasClass node) (inHome : plan.graph.Home node home)
    (homeIs : plan.graph.Identifies home outer) (held : registry.internal? node.id = some internal)
    (standing : Standing registry file before)
    (returns : (declareFrom plan bound node).Returns before
      [.class (className internal) bases doc body] after)
    (inside : Places plan registry file after.registry.referenced internal below body) :
    Places plan registry file after.registry.referenced outer
      ((if node.kind = .file then [] else [node.id]) ++ below ++ [])
      [.class (className internal) bases doc body] := by
  obtain ⟨path, name⟩ := scene.class_path found hasClass inHome homeIs held
  have module : Text.endsWith moduleWord (className internal) = true := by
    rw [name]
    exact node.segment_ends_with _
  unfold Places
  rw [if_neg (Graph.kind_ne_file_of_has_module hasClass.1), List.append_nil, List.singleton_append,
    Graph.class_nodes_cons found, if_pos hasClass, module_classes_module module, name, ← path]
  rw [name] at returns
  refine .cons ⟨found, hasClass, held, rfl, bound, before, after, standing, returns, ?_⟩ inside
  exact List.Subset.refl _

theorem Places.leaf {marked : List Id} {declarations : List Declaration}
    (found : plan.graph.node? node.id = some node) (inner : node.kind ≠ .file)
    (classless : ¬plan.graph.HasClass node) (plain : moduleClasses outer declarations = []) :
    Places plan registry file marked outer ((if node.kind = .file then [] else [node.id]) ++ [] ++ [])
      declarations := by
  unfold Places
  rw [if_neg inner, List.append_nil, List.append_nil, Graph.class_nodes_cons found, if_neg classless,
    plain]
  exact .nil

/-- What is declared within a bound is placed; so it is known of the nodes inside another one. -/
def PlacesWithin (plan : Plan) (registry : Registry) (file : Node) (bound : Nat) : Prop :=
  ∀ {node home : Node} {outer : String} {order : List Id} {before after : Draft}
    {declarations : List Declaration}, plan.graph.node? node.id = some node →
    plan.graph.isAnonymousGroup node = false → plan.graph.Home node home →
    plan.graph.Identifies home outer → Standing registry file before →
    (declareFrom plan bound node).Returns before declarations after →
    plan.graph.Preorder [node.id] order →
    Places plan registry file after.registry.referenced outer order declarations

variable {bound : Nat} {order : List Id}

theorem nested_declarations_places (scene : Scene plan registry)
    (within : PlacesWithin plan registry file bound)
    (found : plan.graph.node? node.id = some node) (named : plan.graph.isAnonymousGroup node = false)
    (identified : plan.graph.Identifies node internal) (standing : Standing registry file before)
    {inner : List Declaration} (preorder : plan.graph.Preorder node.nested order)
    (returns : (nestedDeclarations plan (declareFrom plan bound) node).Returns before inner after) :
    Places plan registry file after.registry.referenced internal order inner := by
  rw [nested_declarations_eq, Step.Returns.bind_iff] at returns
  obtain ⟨blocks, _, declares, last⟩ := returns
  obtain ⟨rfl, rfl⟩ := Step.Returns.pure_iff.mp last
  obtain ⟨orders, rfl, related⟩ := preorder.parts
  refine mapM_places scene.located ?_ ?_ related standing declares
  · exact fun id _ frame => Frame.nestedDeclaration (frame.declareFrom bound) node id
  · intro id listed part before block after ordered stands step
    unfold nestedDeclaration at step
    split at step
    · exact (Step.Returns.fail_iff.mp step).elim
    · rename_i nested nestedFound
      obtain ⟨single, inNode⟩ := scene.nested_single found listed nestedFound
      rw [if_neg (by simp [single])] at step
      have sameId := Graph.id_of_node? nestedFound
      refine within (sameId ▸ nestedFound) ?_ (.direct inNode named) identified stands step
        (sameId ▸ ordered)
      simp [Graph.isAnonymousGroup, single]

/-- The named groups that the members of a struct show are placed in its class. -/
theorem groups_places (scene : Scene plan registry)
    (within : PlacesWithin plan registry file bound)
    (found : plan.graph.node? node.id = some node) (named : plan.graph.isAnonymousGroup node = false)
    (identified : plan.graph.Identifies node internal) (standing : Standing registry file before)
    {members : List Member} (flattened : Member.ofNode plan.graph node = .ok members)
    (preorder : plan.graph.Preorder node.groupBodies order) {blocks : List (List Declaration)}
    (returns : ((members.filterMap Member.group).mapM (declareFrom plan bound)).Returns before blocks
      after) :
    Places plan registry file after.registry.referenced internal order blocks.flatten := by
  obtain ⟨entries, requested, built⟩ := scene.built
  obtain ⟨orders, related, same⟩ := of_node_from_groups scene.wellScoped built flattened
    (Graph.mem_of_node? found) (fun body inNode => .direct inNode named) preorder
  unfold Places
  rw [same]
  refine mapM_places scene.located (fun body _ frame => frame.declareFrom bound body) ?_ related
    standing returns
  rintro body _ part before block after ⟨placed, ordered⟩ stands step
  exact within placed.found placed.hasClass.2 placed.inHome identified stands step ordered

theorem declare_struct_places (scene : Scene plan registry)
    (within : PlacesWithin plan registry file bound) {nestedOrder groupOrder : List Id}
    (found : plan.graph.node? node.id = some node) (named : plan.graph.isAnonymousGroup node = false)
    (identified : plan.graph.Identifies node internal) (standing : Standing registry file before)
    (inNested : plan.graph.Preorder node.nested nestedOrder)
    (inGroups : plan.graph.Preorder node.groupBodies groupOrder) {members : List Member}
    {inner groups views extra : List Declaration}
    (parts : StructParts plan (nestedDeclarations plan (declareFrom plan bound))
      (declareFrom plan bound) node before after internal members inner groups views extra) :
    Places plan registry file after.registry.referenced internal (nestedOrder ++ groupOrder)
      (inner ++ groups ++ views ++ extra) := by
  have frame := standing_frame scene.located registry file
  obtain ⟨marked, nestedDone, groupsDone, viewsDone, marks, nests, ⟨blocks, bodies, rfl⟩, viewing,
    messages⟩ := parts.made
  have starts := (frame.markDeclared _).returns marks standing
  -- a group nests nothing
  have ⟨nesting, placedNested⟩ : Standing registry file nestedDone ∧
      Places plan registry file nestedDone.registry.referenced internal nestedOrder inner := by
    split at nests
    · rename_i isGroup
      obtain ⟨rfl, rfl⟩ := nests
      rw [scene.wellScoped.groups node (Graph.mem_of_node? found) isGroup] at inNested
      cases inNested
      exact ⟨starts, .nil⟩
    · exact ⟨(Frame.nestedDeclarations (frame.declareFrom bound) node).returns nests starts,
        nested_declarations_places scene within found named identified starts inNested nests⟩
  have grouping := (Step.Keeps.of_mapM fun body _ => frame.declareFrom bound body).returns bodies
    nesting
  have viewed := (frame.views node internal members).returns viewing grouping
  have afterNested := referenced_subset scene.located
    (fun frame => .of_mapM fun body _ => frame.declareFrom bound body) nesting bodies
  have afterGroups := referenced_subset scene.located
    (fun frame => frame.views node internal members) grouping viewing
  have ⟨afterViews, extraPlain⟩ : viewsDone.registry.referenced ⊆ after.registry.referenced ∧
      moduleClasses internal extra = [] := by
    split at messages
    · obtain ⟨rfl, rfl⟩ := messages
      exact ⟨List.Subset.refl _, rfl⟩
    · obtain ⟨message, makes, rfl⟩ := messages
      refine ⟨referenced_subset scene.located (fun frame => frame.newMessage internal members)
        viewed makes, module_classes_of_plain ?_⟩
      intro declaration member
      simp only [List.mem_cons, List.not_mem_nil, or_false] at member
      rcases member with rfl | rfl | rfl
      · exact new_message_returns makes
      · rfl
      · rfl
  obtain ⟨attributes, reader, builder, rfl, shows, readerPlain, builderPlain⟩ :=
    views_returns viewing
  have placedGroups := groups_places scene within found named identified nesting parts.flattened
    inGroups bodies
  refine .append_plain (.append_plain ?_ ?_) extraPlain
  · refine .append (placedNested.mono ?_) (placedGroups.mono (List.Subset.trans afterGroups afterViews))
    exact List.Subset.trans afterNested (List.Subset.trans afterGroups afterViews)
  · exact module_classes_views (plain_of_shows shows) readerPlain builderPlain

theorem declare_interface_places (scene : Scene plan registry)
    (within : PlacesWithin plan registry file bound)
    (found : plan.graph.node? node.id = some node) (named : plan.graph.isAnonymousGroup node = false)
    (identified : plan.graph.Identifies node internal) (standing : Standing registry file before)
    (inNested : plan.graph.Preorder node.nested order) {inner : List Declaration}
    {clientBases serverBases : List String} {surfaces : List Interface.Surface}
    (parts : InterfaceParts plan (nestedDeclarations plan (declareFrom plan bound)) node before after
      internal inner clientBases serverBases surfaces) :
    Places plan registry file after.registry.referenced internal order
      (inner ++ surfaces.flatMap Interface.Surface.protocols ++
        [.class "Client" clientBases [] (surfaces.map Interface.Surface.client),
          .class "Server" serverBases [] (surfaces.flatMap Interface.Surface.server),
          Interface.newClient internal]) := by
  have frame := standing_frame scene.located registry file
  obtain ⟨marked, nestedDone, based, marks, nests, bases, surfacing⟩ := parts.made
  have starts := (frame.markDeclared _).returns marks standing
  have nesting := (Frame.nestedDeclarations (frame.declareFrom bound) node).returns nests starts
  have basing := (frame.bases node).returns bases nesting
  have afterNested := referenced_subset scene.located (fun frame => frame.bases node) nesting bases
  have afterBases := referenced_subset scene.located
    (fun frame => frame.surfaces node internal [] node.methods) basing surfacing
  have surfaced := surfaces_returns surfacing
  have placed := nested_declarations_places scene within found named identified starts inNested nests
  refine .append_plain (.append_plain (placed.mono (List.Subset.trans afterNested afterBases)) ?_) ?_
  · exact module_classes_protocols surfaced
  · have clients : Plain (surfaces.map Interface.Surface.client) := by
      intro declaration member
      obtain ⟨surface, listed, rfl⟩ := List.mem_map.mp member
      obtain ⟨_, _, parts⟩ := Lists.exists_of_mem_left surfaced.flip listed
      exact parts.client
    have servers : Plain (surfaces.flatMap Interface.Surface.server) := by
      intro declaration member
      obtain ⟨surface, listed, inside⟩ := List.mem_flatMap.mp member
      obtain ⟨_, _, parts⟩ := Lists.exists_of_mem_left surfaced.flip listed
      exact parts.server declaration inside
    rw [module_classes_cons, module_classes_class_of_plain (by decide) clients, module_classes_cons,
      module_classes_class_of_plain (by decide) servers]
    rfl

theorem declare_from_places (scene : Scene plan registry) (bound : Nat) :
    PlacesWithin plan registry file bound := by
  induction bound with
  | zero =>
      intro node home outer order before after declarations _ _ _ _ _ returns
      exact (Step.Returns.fail_iff.mp returns).elim
  | succ bound induction =>
      intro node home outer order before after declarations found named inHome homeIs standing
        returns preorder
      obtain ⟨_, same, declared⟩ := declare_from_returns returns
      cases same
      cases preorder with
      | @cons _ other _ below _ otherFound under next =>
        rw [found] at otherFound
        cases otherFound
        cases next
        cases declared with
        | struct isStruct begins declares =>
            have hasClass := scene.has_class_struct found isStruct named
            have starts := begins.standing scene.located standing
            obtain ⟨internal, members, inner, groups, views, extra, parts, rfl⟩ :=
              declare_struct_returns declares
            have held := starts.internal? node.id ▸ parts.identified
            obtain ⟨_, _, rfl, inNested, inGroups⟩ := Graph.Preorder.split under
            refine .ofClass scene found hasClass inHome homeIs held standing returns ?_
            exact declare_struct_places scene induction found named (scene.identifies found held)
              starts inNested inGroups parts
        | enum single isEnum begins declares =>
            obtain ⟨internal, identified, _, _, rfl⟩ := declare_enum_returns declares
            have held := (begins.standing scene.located standing).internal? node.id ▸ identified
            rw [scene.childless found (by simp [isEnum])] at under
            cases under
            refine .ofClass scene found ⟨by rw [isEnum]; rfl, named⟩ inHome homeIs held standing
              returns ?_
            exact .plain (module_classes_of_plain (by simp [Declaration.isClass]))
        | interface single isInterface begins declares =>
            have starts := begins.standing scene.located standing
            obtain ⟨internal, inner, clientBases, serverBases, surfaces, parts, rfl⟩ :=
              declare_interface_returns declares
            have held := starts.internal? node.id ▸ parts.identified
            obtain ⟨_, _, rfl, inNested, inGroups⟩ := Graph.Preorder.split under
            unfold Node.groupBodies at inGroups
            rw [scene.wellScoped.fields node (Graph.mem_of_node? found) (by simp [isInterface])]
              at inGroups
            cases inGroups
            refine .ofClass scene found ⟨by rw [isInterface]; rfl, named⟩ inHome homeIs held standing
              returns ?_
            rw [List.append_nil]
            exact declare_interface_places scene induction found named (scene.identifies found held)
              starts inNested parts
        | const single isConst begins typed =>
            rw [scene.childless found (by simp [isConst])] at under
            cases under
            exact .leaf found (by simp [isConst]) (by simp [Graph.HasClass, isConst, NodeKind.hasModule])
              rfl
        | nothing single unseen begins =>
            rw [scene.childless found (by simp [unseen])] at under
            cases under
            exact .leaf found (by simp [unseen]) (by simp [Graph.HasClass, unseen, NodeKind.hasModule])
              rfl

end Tree

theorem Scene.declaration_order_eq (scene : Scene plan registry)
    (found : plan.graph.node? file.id = some file) (isFile : file.kind = .file) :
    (∀ id ∈ file.nested, plan.graph.Preorder [id]
      (declarationsFrom plan.graph (plan.graph.size + 1) id)) ∧
    declarationOrder plan.graph file.id =
      file.nested.flatMap (declarationsFrom plan.graph (plan.graph.size + 1)) := by
  obtain ⟨entries, requested, built⟩ := scene.built
  have forest := scene.wellScoped.forest built
  have children : file.children = file.nested := by
    unfold Node.children Node.groupBodies
    rw [scene.wellScoped.fields file (Graph.mem_of_node? found) (by simp [isFile])]
    simp
  have each : ∀ id ∈ file.nested, plan.graph.Preorder [id]
      (declarationsFrom plan.graph (plan.graph.size + 1) id) := by
    intro id listed
    obtain ⟨inner, innerFound, notFile, inFile⟩ :=
      forest.child file (Graph.mem_of_node? found) id (children ▸ listed)
    have shallow : plan.graph.size < plan.graph.size + 1 + [inner].length := by
      simp only [List.length_cons, List.length_nil]
      omega
    exact declarations_from_preorder forest innerFound (.up notFile inFile (.file isFile)) shallow
  refine ⟨each, ?_⟩
  have below := Graph.Preorder.of_flatMap each
  have whole : plan.graph.Preorder [file.id] ((if file.kind = .file then [] else [file.id]) ++
      file.nested.flatMap (declarationsFrom plan.graph (plan.graph.size + 1)) ++ []) :=
    .cons found (children.symm ▸ below) .nil
  rw [(declaration_order_preorder forest found isFile).unique whole, if_pos isFile]
  simp

/-- The nodes of the top level are what the file lists, in the order of the walk. -/
theorem Scene.top_level_perm (scene : Scene plan registry) (distinct : plan.order.Nodup)
    (found : plan.graph.node? file.id = some file) (isFile : file.kind = .file)
    (closed : ∀ id ∈ file.nested, id ∈ plan.order) :
    ((topLevelNodes plan file.id).map Node.id).Perm file.nested := by
  obtain ⟨entries, requested, built⟩ := scene.built
  have member := Graph.mem_of_node? found
  have once : file.nested.Nodup :=
    (List.nodup_append.mp ((scene.wellScoped.forest built).once file member)).1
  refine (List.perm_ext_iff_of_nodup (nodup_top_level_nodes distinct file.id) once).mpr fun id => ?_
  constructor
  · intro listed
    obtain ⟨node, inTop, rfl⟩ := List.mem_map.mp listed
    obtain ⟨nodeFound, notFile, inFile⟩ := mem_top_level_nodes inTop
    obtain ⟨scope, scopeFound, place⟩ :=
      scene.wellScoped.inScope node (Graph.mem_of_node? nodeFound) notFile
    rw [inFile, found] at scopeFound
    cases scopeFound
    split at place
    · rw [isFile] at place
      cases place.1
    · exact place
  · intro listed
    obtain ⟨inner, innerFound, notFile, inFile⟩ :=
      scene.wellScoped.child built member (List.mem_append_left _ listed)
    have sameScope := Graph.id_of_node? inFile
    refine List.mem_map.mpr ⟨inner, List.mem_filter.mpr ⟨?_, ?_⟩, Graph.id_of_node? innerFound⟩
    · exact List.mem_filterMap.mpr ⟨id, closed id listed, innerFound⟩
    · simp [notFile, sameScope]

theorem Scene.mem_top_level (scene : Scene plan registry) (distinct : plan.order.Nodup)
    (found : plan.graph.node? file.id = some file) (isFile : file.kind = .file)
    (closed : ∀ id ∈ file.nested, id ∈ plan.order) {id : Id} (listed : id ∈ file.nested) {node : Node}
    (nodeFound : plan.graph.node? id = some node) : node ∈ topLevelNodes plan file.id := by
  have inIds := (scene.top_level_perm distinct found isFile closed).symm.subset listed
  obtain ⟨other, inTop, rfl⟩ := List.mem_map.mp inIds
  rw [(mem_top_level_nodes inTop).1] at nodeFound
  cases nodeFound
  exact inTop

theorem declare_top_level_places (scene : Scene plan registry) {node : Node} {order : List Id}
    (found : plan.graph.node? node.id = some node) (place : plan.graph.node? node.scope = some file)
    (isFile : file.kind = .file) (standing : Standing registry file before)
    {block : List Declaration} (preorder : plan.graph.Preorder [node.id] order)
    (returns : (declareTopLevel plan node).Returns before block after) :
    Places plan registry file after.registry.referenced "" order block := by
  obtain ⟨entries, requested, built⟩ := scene.built
  obtain ⟨declarations, middle, blocks, declares, binds, rfl⟩ := declare_top_level_returns returns
  obtain ⟨single, within⟩ := declare_node_returns declares
  have stands := ((standing_frame scene.located registry file).declareNode node).returns declares
    standing
  have named : plan.graph.isAnonymousGroup file = false :=
    Graph.is_anonymous_group_of_file isFile (Graph.build_groups built file (Graph.mem_of_node? place))
  have places := declare_from_places scene _ found (by simp [Graph.isAnonymousGroup, single])
    (.direct place named) (.plain (by rw [isFile]; rfl)) standing within preorder
  have subset := referenced_subset scene.located
    (fun frame => .of_mapM fun declaration _ => frame.bindTopLevel node declaration) stands binds
  unfold Places
  rw [bind_top_levels_returns binds]
  exact places.mono subset

/-- The declarations of a stub are those of its top level, with at most the class for pointers to
anything behind them. -/
theorem declare_file_blocks (located : plan.Located) (standing : Standing registry file before)
    {declarations : List Declaration}
    (returns : (declareFile plan).Returns before declarations after) :
    ∃ blocks reached extra, ((topLevelNodes plan file.id).mapM (declareTopLevel plan)).Returns before
        blocks reached ∧ reached.registry.referenced ⊆ after.registry.referenced ∧
      declarations = blocks.flatten ++ extra ∧ moduleClasses "" extra = [] := by
  have frame := standing_frame located registry file
  obtain ⟨blocks, reached, extra, declares, appended, rfl⟩ := declare_file_returns returns
  rw [standing.ofFile] at declares appended
  have stands := (Step.Keeps.of_mapM fun node _ => frame.declareTopLevel node).returns declares
    standing
  refine ⟨blocks, reached, extra, declares, ?_, rfl, ?_⟩
  · cases appended with
    | pointers _ binds declaresAny =>
        have bound := (frame.bind _ _).returns binds stands
        have afterBind := referenced_subset located (fun frame => frame.bind _ _) stands binds
        have afterAny := referenced_subset located (fun frame => frame.declareAnyPointer) bound
          declaresAny
        exact List.Subset.trans afterBind afterAny
    | nothing _ => exact List.Subset.refl _
  · cases appended with
    | pointers _ _ declaresAny => exact declare_any_pointer_plain declaresAny
    | nothing _ => rfl

/-- The declarations of a stub hold one class for each node of its file that has one. -/
theorem declare_file_places (scene : Scene plan registry) (distinct : plan.order.Nodup)
    (found : plan.graph.node? file.id = some file) (isFile : file.kind = .file)
    (closed : ∀ id ∈ file.nested, id ∈ plan.order) (standing : Standing registry file before)
    {declarations : List Declaration}
    (returns : (declareFile plan).Returns before declarations after) :
    ∃ order, order.Perm (declarationOrder plan.graph file.id) ∧
      Places plan registry file after.registry.referenced "" order declarations := by
  obtain ⟨each, whole⟩ := scene.declaration_order_eq found isFile
  have listed := scene.top_level_perm distinct found isFile closed
  let listing := declarationsFrom plan.graph (plan.graph.size + 1)
  refine ⟨((topLevelNodes plan file.id).map fun node => listing node.id).flatten, ?_, ?_⟩
  · rw [whole, ← List.flatMap_def]
    have whole := listed.flatMap_right listing
    rwa [List.flatMap_map] at whole
  obtain ⟨blocks, reached, extra, declares, subset, rfl, plain⟩ :=
    declare_file_blocks scene.located standing returns
  have related : List.Forall₂ (fun node order => order = listing node.id)
      (topLevelNodes plan file.id)
      ((topLevelNodes plan file.id).map fun node => listing node.id) := by
    rw [List.forall₂_map_right_iff]
    exact List.forall₂_same.mpr fun _ _ => rfl
  refine .append_plain (.mono ?_ subset) plain
  refine mapM_places scene.located (fun node _ frame => frame.declareTopLevel node) ?_ related
    standing declares
  rintro node inTop _ before block after rfl begins step
  obtain ⟨nodeFound, _, inFile⟩ := mem_top_level_nodes inTop
  have inNested := listed.subset (List.mem_map_of_mem inTop)
  exact declare_top_level_places scene nodeFound (inFile ▸ found) isFile begins
    (each node.id inNested) step

end Stub

end SchemaStubs
