import SchemaStubs.Proofs.Walk.Stages

/-!
The edges of a walk, taken apart by the nodes they lead from. A declaration has edges in an order of
its own: first those to its nested declarations, then those of its members as they are written. The
visits of a walk interleave, and an edge is recorded only after the visit of its target; still, the
edges from one node are those of its declaration, in that order and each once.
-/

namespace SchemaStubs

/-- The edges from a node for types at places of one kind, type by type: the edge to the node that a
type refers to, and behind it those of its brand. A list stands for its element. -/
inductive TypeEdges (source : Id) : Via → List SchemaType → List Edge → Prop where
  | nil {via : Via} : TypeEdges source via [] []
  | reference {via : Via} {type : SchemaType} {rest : List SchemaType} {bindings more : List Edge}
      (refers : type.isReference = true) (bound : TypeEdges source .brand type.brand bindings)
      (later : TypeEdges source via rest more) :
      TypeEdges source via (type :: rest) (⟨source, via, type.target⟩ :: (bindings ++ more))
  | element {via : Via} {type element : SchemaType} {rest : List SchemaType} {edges : List Edge}
      (isList : type.kind = .list) (held : type.element = some element)
      (inner : TypeEdges source via (element :: rest) edges) :
      TypeEdges source via (type :: rest) edges
  | value {via : Via} {type : SchemaType} {rest : List SchemaType} {edges : List Edge}
      (plain : type.isReference = false) (bare : type.kind = .list → type.element = none)
      (later : TypeEdges source via rest edges) : TypeEdges source via (type :: rest) edges

inductive FieldEdges (source : Id) (field : Field) : List Edge → Prop where
  | group (isGroup : field.isGroup = true) :
      FieldEdges source field [⟨source, .group, field.group⟩]
  | slot {edges : List Edge} (isSlot : field.isGroup = false)
      (typed : TypeEdges source .field field.type.toList edges) : FieldEdges source field edges

inductive MethodEdges (source : Id) (method : Method) : List Edge → Prop where
  | intro {params results : List Edge}
      (given : TypeEdges source .param (method.params.flatMap fun field => field.type.toList) params)
      (got : TypeEdges source .result (method.results.flatMap fun field => field.type.toList) results) :
      MethodEdges source method (params ++ results)

inductive MemberEdges (node : Node) : List Edge → Prop where
  | struct {blocks : List (List Edge)} (isStruct : node.kind = .struct)
      (fields : List.Forall₂ (FieldEdges node.id) node.fields blocks) :
      MemberEdges node blocks.flatten
  | interface {blocks : List (List Edge)} (isInterface : node.kind = .interface)
      (methods : List.Forall₂ (MethodEdges node.id) node.methods blocks) :
      MemberEdges node
        (node.superclasses.map (fun target => ⟨node.id, .superclass, target⟩) ++ blocks.flatten)
  | const {edges : List Edge} (isConst : node.kind = .const)
      (typed : TypeEdges node.id .const node.constType.toList edges) : MemberEdges node edges
  | other (noStruct : node.kind ≠ .struct) (noInterface : node.kind ≠ .interface)
      (noConst : node.kind ≠ .const) : MemberEdges node []

/-- The edges from a node: to its nested declarations, and then for its members. -/
inductive NodeEdges (node : Node) : List Edge → Prop where
  | intro {members : List Edge} (within : MemberEdges node members) :
      NodeEdges node (node.nested.map (fun target => ⟨node.id, .nested, target⟩) ++ members)

def Dependency.edge (source : Id) (dependency : Dependency) : Edge :=
  ⟨source, dependency.via, dependency.target⟩

/-- By induction on the derivation, with the dependencies of the types side by side. -/
theorem TypeEdges.eq {source : Id} {via : Via} {types : List SchemaType} {edges : List Edge}
    (listed : TypeEdges source via types edges) :
    edges = (types.flatMap (SchemaType.dependencies via)).map (Dependency.edge source) := by
  induction listed with
  | nil => rfl
  | reference refers _ _ bound later =>
      obtain ⟨wanted, known⟩ := Option.isSome_iff_exists.mp refers
      rw [List.flatMap_cons, SchemaType.dependencies_of_reference known,
        SchemaType.brand_dependencies_eq, List.map_append, List.map_cons, ← bound, ← later]
      rfl
  | element isList held _ inner =>
      rw [List.flatMap_cons, SchemaType.dependencies_of_list isList held, ← List.flatMap_cons]
      exact inner
  | value plain bare _ later =>
      rw [List.flatMap_cons, SchemaType.dependencies_of_value plain bare, List.nil_append]
      exact later

theorem TypeEdges.exists_cons {source : Id} {via : Via} {type : SchemaType}
    {rest : List SchemaType} {more : List Edge} (later : TypeEdges source via rest more) :
    ∃ edges, TypeEdges source via (type :: rest) edges := by
  induction type using SchemaType.parts_induction generalizing via rest more with
  | reference type wanted known inner =>
      have refers : type.isReference = true := by simp [SchemaType.isReference, known]
      have bound : ∀ brand ⊆ type.brand, ∃ bindings, TypeEdges source .brand brand bindings := by
        intro brand inBrand
        induction brand with
        | nil => exact ⟨[], .nil⟩
        | cons argument others induction =>
            obtain ⟨_, behind⟩ := induction (List.subset_of_cons_subset inBrand)
            exact inner argument (inBrand List.mem_cons_self) behind
      obtain ⟨bindings, bound⟩ := bound type.brand (List.Subset.refl _)
      exact ⟨_, .reference refers bound later⟩
  | element type part isList held inner =>
      obtain ⟨edges, listed⟩ := inner later
      exact ⟨edges, .element isList held listed⟩
  | value type plain bare => exact ⟨_, .value plain bare later⟩

theorem type_edges_iff {source : Id} {via : Via} {types : List SchemaType} {edges : List Edge} :
    TypeEdges source via types edges ↔
      edges = (types.flatMap (SchemaType.dependencies via)).map (Dependency.edge source) := by
  constructor
  · exact TypeEdges.eq
  · rintro rfl
    obtain ⟨edges, listed⟩ : ∃ edges, TypeEdges source via types edges := by
      induction types with
      | nil => exact ⟨[], .nil⟩
      | cons type rest induction =>
          obtain ⟨_, later⟩ := induction
          exact later.exists_cons
    rw [← listed.eq]
    exact listed

theorem field_edges_iff {source : Id} {field : Field} {edges : List Edge} :
    FieldEdges source field edges ↔ edges = field.dependencies.map (Dependency.edge source) := by
  unfold Field.dependencies
  constructor
  · rintro (isGroup | ⟨isSlot, typed⟩)
    · rw [if_pos isGroup]
      rfl
    · rw [if_neg (by simp [isSlot]), Field.type_dependencies_eq]
      exact typed.eq
  · intro same
    split at same
    · rename_i isGroup
      subst same
      exact .group isGroup
    · rename_i isSlot
      rw [Field.type_dependencies_eq] at same
      exact .slot (by simpa using isSlot) (type_edges_iff.mpr same)

theorem method_edges_iff {source : Id} {method : Method} {edges : List Edge} :
    MethodEdges source method edges ↔ edges = method.dependencies.map (Dependency.edge source) := by
  have together : ∀ (via : Via) (fields : List Field),
      fields.flatMap (Field.typeDependencies via) =
        (fields.flatMap fun field => field.type.toList).flatMap (SchemaType.dependencies via) := by
    intro via fields
    rw [List.flatMap_assoc]
    exact List.flatMap_congr fun field _ => field.type_dependencies_eq via
  unfold Method.dependencies
  rw [List.map_append, together, together]
  constructor
  · rintro ⟨given, got⟩
    rw [given.eq, got.eq]
  · rintro rfl
    exact .intro (type_edges_iff.mpr rfl) (type_edges_iff.mpr rfl)

theorem forall₂_edges_iff {α : Type} {source : Id} {relates : α → List Edge → Prop}
    (dependencies : α → List Dependency)
    (each : ∀ part edges, relates part edges ↔
      edges = (dependencies part).map (Dependency.edge source))
    {parts : List α} {blocks : List (List Edge)} :
    List.Forall₂ relates parts blocks ↔
      blocks = parts.map fun part => (dependencies part).map (Dependency.edge source) := by
  constructor
  · intro related
    induction related with
    | nil => rfl
    | cons first _ induction => rw [List.map_cons, ← (each _ _).mp first, ← induction]
  · rintro rfl
    rw [List.forall₂_map_right_iff, List.forall₂_same]
    exact fun part _ => (each part _).mpr rfl

theorem member_edges_iff {node : Node} {edges : List Edge} :
    MemberEdges node edges ↔ edges = node.memberDependencies.map (Dependency.edge node.id) := by
  have ofFields := @forall₂_edges_iff Field node.id (FieldEdges node.id) Field.dependencies
    (fun _ _ => field_edges_iff) node.fields
  have ofMethods := @forall₂_edges_iff Method node.id (MethodEdges node.id) Method.dependencies
    (fun _ _ => method_edges_iff) node.methods
  have ofStruct : node.kind = .struct → node.memberDependencies.map (Dependency.edge node.id) =
      (node.fields.map fun field => field.dependencies.map (Dependency.edge node.id)).flatten := by
    intro isStruct
    rw [Node.memberDependencies, isStruct, List.map_flatMap, List.flatMap_def]
  have ofInterface : node.kind = .interface →
      node.memberDependencies.map (Dependency.edge node.id) =
        node.superclasses.map (fun target => ⟨node.id, .superclass, target⟩) ++
        (node.methods.map fun method => method.dependencies.map (Dependency.edge node.id)).flatten := by
    intro isInterface
    rw [Node.memberDependencies, isInterface, List.map_append, List.map_map, List.map_flatMap,
      List.flatMap_def]
    rfl
  constructor
  · intro listed
    cases listed with
    | struct isStruct fields => rw [ofStruct isStruct, ofFields.mp fields]
    | interface isInterface methods => rw [ofInterface isInterface, ofMethods.mp methods]
    | const isConst typed =>
        rw [Node.member_dependencies_of_const isConst]
        exact typed.eq
    | other noStruct noInterface noConst =>
        rw [Node.member_dependencies_of_other noStruct noInterface noConst]
        rfl
  · rintro rfl
    by_cases isStruct : node.kind = .struct
    · rw [ofStruct isStruct]
      exact .struct isStruct (ofFields.mpr rfl)
    · by_cases isInterface : node.kind = .interface
      · rw [ofInterface isInterface]
        exact .interface isInterface (ofMethods.mpr rfl)
      · by_cases isConst : node.kind = .const
        · rw [Node.member_dependencies_of_const isConst]
          exact .const isConst (type_edges_iff.mpr rfl)
        · rw [Node.member_dependencies_of_other isStruct isInterface isConst]
          exact .other isStruct isInterface isConst

theorem node_edges_iff {node : Node} {edges : List Edge} :
    NodeEdges node edges ↔ edges = node.dependencies.map (Dependency.edge node.id) := by
  unfold Node.dependencies
  rw [List.map_append, List.map_map]
  constructor
  · rintro ⟨within⟩
    rw [member_edges_iff.mp within]
    rfl
  · rintro rfl
    exact .intro (member_edges_iff.mpr rfl)

namespace Walk

def edgesFrom (walk : Walk) (id : Id) : List Edge :=
  walk.edges.filter fun edge => edge.source == id

/-- How far the edges from a node have come: there are none before its visit, those of the
dependencies followed so far while it is under way, and all of them when it is complete. -/
inductive Account (graph : Graph) (frames : List Frame) (id : Id) :
    Progress → List Edge → Prop where
  | unseen : Account graph frames id .unseen []
  | underWay {frame : Frame} (member : frame ∈ frames) (same : frame.node.id = id) :
      Account graph frames id .underWay (frame.followed.map (Dependency.edge id))
  | complete {node : Node} (found : graph.node? id = some node) :
      Account graph frames id .complete (node.dependencies.map (Dependency.edge id))

theorem Account.mono {graph : Graph} {frames others : List Frame} {id : Id} {progress : Progress}
    {edges : List Edge} (account : Account graph frames id progress edges)
    (kept : ∀ frame ∈ frames, frame.node.id = id → frame ∈ others) :
    Account graph others id progress edges := by
  cases account with
  | unseen => exact .unseen
  | underWay member same => exact .underWay (kept _ member same) same
  | complete found => exact .complete found

theorem Account.eq_nil {graph : Graph} {frames : List Frame} {id : Id} {edges : List Edge}
    (account : Account graph frames id .unseen edges) : edges = [] := by
  cases account
  rfl

theorem Account.no_under_way {graph : Graph} {id : Id} {edges : List Edge}
    (account : Account graph [] id .underWay edges) : False := by
  cases account with
  | underWay member _ => cases member

theorem Account.eq_followed {graph : Graph} {frames : List Frame} {frame : Frame}
    {edges : List Edge} (account : Account graph frames frame.node.id .underWay edges)
    (member : frame ∈ frames) (distinct : (frames.map fun frame => frame.node.id).Nodup) :
    edges = frame.followed.map (Dependency.edge frame.node.id) := by
  cases account with
  | underWay other same => rw [List.inj_on_of_nodup_map distinct other member same]

theorem Account.eq_dependencies {graph : Graph} {frames : List Frame} {id : Id}
    {edges : List Edge} (account : Account graph frames id .complete edges) :
    ∃ node, graph.node? id = some node ∧ edges = node.dependencies.map (Dependency.edge id) := by
  cases account with
  | complete found => exact ⟨_, found, rfl⟩

structure Accounted (graph : Graph) (frames : List Frame) (walk : Walk) : Prop where
  account : ∀ id, Account graph frames id (walk.progressOf id) (walk.edgesFrom id)
  found : ∀ frame ∈ frames, graph.node? frame.node.id = some frame.node
  underWay : ∀ frame ∈ frames, walk.progressOf frame.node.id = .underWay
  distinct : (frames.map fun frame => frame.node.id).Nodup
  order_iff : ∀ id, id ∈ walk.order ↔ walk.progressOf id ≠ .unseen

namespace Accounted

variable {graph : Graph} {frames : List Frame} {before after : Walk}

theorem start (graph : Graph) (registry : Registry) : Accounted graph [] { registry } where
  account _ := .unseen
  found := by simp
  underWay := by simp
  distinct := List.nodup_nil
  order_iff := by
    intro id
    simp [progressOf, Table.get?]

/-- The registry, the references and the nodes awaited have no part in it. -/
theorem blind {walk : Walk} (holds : Accounted graph frames walk) (references : Table Id Reference)
    (awaited : List Id) (registry : Registry) :
    Accounted graph frames { walk with references, awaited, registry } :=
  ⟨holds.account, holds.found, holds.underWay, holds.distinct, holds.order_iff⟩

theorem enter (holds : Accounted graph frames before) {node : Node}
    (found : graph.node? node.id = some node) (unseen : before.progressOf node.id = .unseen)
    (returns : (enter graph node.id).Returns before () after) :
    Accounted graph (⟨node, []⟩ :: frames) after := by
  have marked := enter_marks returns
  obtain ⟨internal, registry, _, rfl⟩ := enter_returns returns
  have apart : ∀ frame ∈ frames, frame.node.id ≠ node.id := by
    intro frame member same
    have underWay := holds.underWay frame member
    rw [same, unseen] at underWay
    cases underWay
  constructor
  case account =>
    intro id
    rw [marked id]
    by_cases same : id = node.id
    · subst same
      have none : before.edgesFrom node.id = [] := (unseen ▸ holds.account node.id).eq_nil
      rw [if_pos rfl]
      change Account graph _ node.id .underWay (before.edgesFrom node.id)
      rw [none]
      exact .underWay List.mem_cons_self rfl
    · rw [if_neg same]
      exact (holds.account id).mono fun frame member _ => List.mem_cons_of_mem _ member
  case found =>
    intro frame member
    rcases List.mem_cons.mp member with rfl | earlier
    · exact found
    · exact holds.found frame earlier
  case underWay =>
    intro frame member
    rw [marked]
    rcases List.mem_cons.mp member with rfl | earlier
    · exact if_pos rfl
    · rw [if_neg (apart frame earlier)]
      exact holds.underWay frame earlier
  case distinct =>
    rw [List.map_cons, List.nodup_cons]
    refine ⟨fun member => ?_, holds.distinct⟩
    obtain ⟨frame, listed, same⟩ := List.mem_map.mp member
    exact apart frame listed same
  case order_iff =>
    intro id
    rw [marked id]
    by_cases same : id = node.id
    · simp [same]
    · simp [same, holds.order_iff]

theorem close {source target : Node} {followed : List Dependency} {dependency : Dependency}
    {middle : Walk} (holds : Accounted graph (⟨source, followed⟩ :: frames) before)
    (aimed : dependency.target = target.id)
    (refreshed : (refresh graph source.id dependency.via target).Returns before () middle)
    (recorded : (recordEdge ⟨source.id, dependency.via, target.id⟩).Returns middle () after) :
    Accounted graph (⟨source, followed ++ [dependency]⟩ :: frames) after := by
  have keeps : (refresh graph source.id dependency.via target).Keeps
      (Accounted graph (⟨source, followed⟩ :: frames)) :=
    refresh_keeps _ _ _ fun _ _ _ _ kept => kept.blind _ _ _
  have holds := keeps.returns refreshed holds
  cases Step.Returns.modify_iff.mp recorded
  have distinct := List.nodup_cons.mp holds.distinct
  have underWay := holds.underWay ⟨source, followed⟩ List.mem_cons_self
  have here : middle.edgesFrom source.id = followed.map (Dependency.edge source.id) :=
    (underWay ▸ holds.account source.id).eq_followed List.mem_cons_self holds.distinct
  constructor
  case account =>
    intro id
    by_cases same : id = source.id
    · subst same
      have whole : edgesFrom { middle with
          edges := middle.edges ++ [⟨source.id, dependency.via, target.id⟩] } source.id =
          (followed ++ [dependency]).map (Dependency.edge source.id) := by
        rw [List.map_append, ← here]
        simp [edgesFrom, Dependency.edge, aimed]
      rw [whole]
      change Account graph _ source.id (middle.progressOf source.id) _
      rw [underWay]
      exact .underWay List.mem_cons_self rfl
    · have whole : edgesFrom { middle with
          edges := middle.edges ++ [⟨source.id, dependency.via, target.id⟩] } id =
          middle.edgesFrom id := by
        simp [edgesFrom, Ne.symm same]
      rw [whole]
      refine (holds.account id).mono fun frame member found => ?_
      rcases List.mem_cons.mp member with rfl | earlier
      · exact absurd found.symm same
      · exact List.mem_cons_of_mem _ earlier
  case found =>
    intro frame member
    rcases List.mem_cons.mp member with rfl | earlier
    · exact holds.found ⟨source, followed⟩ List.mem_cons_self
    · exact holds.found frame (List.mem_cons_of_mem _ earlier)
  case underWay =>
    intro frame member
    rcases List.mem_cons.mp member with rfl | earlier
    · exact underWay
    · exact holds.underWay frame (List.mem_cons_of_mem _ earlier)
  case distinct => exact holds.distinct
  case order_iff => exact holds.order_iff

theorem leave {node : Node}
    (holds : Accounted graph (⟨node, node.dependencies⟩ :: frames) before)
    (returns : (leave graph node).Returns before () after) : Accounted graph frames after := by
  unfold Walk.leave setProgress at returns
  rw [Step.Returns.bind_iff] at returns
  obtain ⟨_, middle, marks, settles⟩ := returns
  refine (settle_keeps node fun _ _ _ _ kept => kept.blind _ _ _).returns settles ?_
  cases Step.Returns.modify_iff.mp marks
  have marked := fun id => progress_of_set before node.id id .complete
  have distinct := List.nodup_cons.mp holds.distinct
  have underWay := holds.underWay ⟨node, node.dependencies⟩ List.mem_cons_self
  have here : before.edgesFrom node.id = node.dependencies.map (Dependency.edge node.id) :=
    (underWay ▸ holds.account node.id).eq_followed List.mem_cons_self holds.distinct
  have apart : ∀ frame ∈ frames, frame.node.id ≠ node.id := fun frame member same =>
    distinct.1 (List.mem_map.mpr ⟨frame, member, same⟩)
  constructor
  case account =>
    intro id
    rw [marked id]
    by_cases same : id = node.id
    · subst same
      rw [if_pos rfl]
      change Account graph _ node.id .complete (before.edgesFrom node.id)
      rw [here]
      exact .complete (holds.found _ List.mem_cons_self)
    · rw [if_neg same]
      refine (holds.account id).mono fun frame member found => ?_
      rcases List.mem_cons.mp member with rfl | earlier
      · exact absurd found.symm same
      · exact earlier
  case found => exact fun frame member => holds.found frame (List.mem_cons_of_mem _ member)
  case underWay =>
    intro frame member
    rw [marked, if_neg (apart frame member)]
    exact holds.underWay frame (List.mem_cons_of_mem _ member)
  case distinct => exact distinct.2
  case order_iff =>
    intro id
    rw [marked id]
    by_cases same : id = node.id
    · subst same
      simp [holds.order_iff, underWay]
    · simp [same, holds.order_iff]

end Accounted

theorem accounted_carries (graph : Graph) (roots : List Id) :
    Carries graph roots fun frames _ walk => Accounted graph frames walk where
  enter holds _ found unseen returns := holds.enter found unseen returns
  mention holds _ returns :=
    (mention_keeps _ fun _ _ kept => kept.blind _ _ _).returns returns holds
  close holds _ aimed _ _ _ refreshed recorded := holds.close aimed refreshed recorded
  leave holds returns := holds.leave returns
  note holds := holds.blind _ _ _

/-- After a walk that succeeded, whatever the registry held before, each node met has the edges of its
declaration and no others, in their order, and a node that was not met has none. -/
theorem run_lists_edges {graph : Graph} {registry : Registry} {roots : List Id} {walk : Walk}
    (returns : (run graph roots).Returns { registry } () walk) :
    (∀ id, id ∈ walk.order ↔ walk.progressOf id = .complete) ∧
    (∀ id ∈ walk.order, ∃ node, graph.node? id = some node ∧
      ∀ edges, NodeEdges node edges ↔ edges = walk.edges.filter fun edge => edge.source == id) ∧
    ∀ id, id ∉ walk.order → walk.edges.filter (fun edge => edge.source == id) = [] := by
  obtain ⟨holds, _, _⟩ := (accounted_carries graph roots).run (fun _ isRoot => isRoot)
    (Accounted.start graph registry) returns
  have complete : ∀ id, id ∈ walk.order ↔ walk.progressOf id = .complete := by
    intro id
    have account := holds.account id
    rw [holds.order_iff]
    cases progress : walk.progressOf id with
    | unseen => simp
    | underWay => exact (progress ▸ account).no_under_way.elim
    | complete => simp
  refine ⟨complete, ?_, ?_⟩
  · intro id met
    obtain ⟨node, found, edges⟩ := ((complete id).mp met ▸ holds.account id).eq_dependencies
    refine ⟨node, found, fun other => ?_⟩
    rw [node_edges_iff, Graph.id_of_node? found, ← edges]
    rfl
  · intro id missing
    have unseen : walk.progressOf id = .unseen := by
      by_contra seen
      exact missing ((holds.order_iff id).mpr seen)
    exact (unseen ▸ holds.account id).eq_nil

/-- A generic struct that lists itself with a list, a text and itself for its parts, beside a group
with a tool. -/
def workshop : Graph where
  nodes := [
    { id := 1, kind := .file, name := "shop.capnp", displayName := "shop.capnp", nested := [2, 4] },
    { id := 2, kind := .struct, name := "Crate", displayName := "shop.capnp:Crate", scope := 1
      parameters := ["T", "U", "V"]
      fields := [
        { name := "crates", type := some { kind := .list, element := some {
          kind := .struct, target := 2, brand := [
            { kind := .list, element := some { kind := .interface, target := 4 } },
            { kind := .text }, { kind := .struct, target := 2 }] } } },
        { name := "lid", kind := .group, group := 3 }] },
    { id := 3, kind := .struct, isGroup := true, name := "lid", displayName := "shop.capnp:Crate.lid"
      scope := 2
      fields := [{ name := "tool", type := some { kind := .interface, target := 4 } }] },
    { id := 4, kind := .interface, name := "Tool", displayName := "shop.capnp:Tool", scope := 1
      methods := [{
        name := "pack"
        params := [{ name := "into", type := some { kind := .struct, target := 2 } }] }] }]
  requested := [1]

theorem run_lists_edges_workshop :
    ((run workshop [1]).outcome {}).1 = .ok () ∧
    ((run workshop [1]).outcome {}).2.order = [1, 2, 4, 3] ∧
    ∃ node, workshop.node? 2 = some node ∧
      NodeEdges node [⟨2, .field, 2⟩, ⟨2, .brand, 4⟩, ⟨2, .brand, 2⟩, ⟨2, .group, 3⟩] := by
  have succeeded : ((run workshop [1]).outcome {}).1 = .ok () := by decide +kernel
  have order : ((run workshop [1]).outcome {}).2.order = [1, 2, 4, 3] := by decide +kernel
  have recorded : ((run workshop [1]).outcome {}).2.edges.filter (fun edge => edge.source == 2) =
      [⟨2, .field, 2⟩, ⟨2, .brand, 4⟩, ⟨2, .brand, 2⟩, ⟨2, .group, 3⟩] := by decide +kernel
  have returns : (run workshop [1]).Returns {} () ((run workshop [1]).outcome {}).2 := by
    unfold Step.Returns
    rw [← succeeded]
  have member : (2 : Id) ∈ ((run workshop [1]).outcome {}).2.order := by rw [order]; simp
  obtain ⟨node, found, edges⟩ := (run_lists_edges returns).2.1 2 member
  exact ⟨succeeded, order, node, found, (edges _).mpr recorded.symm⟩

end Walk

end SchemaStubs
