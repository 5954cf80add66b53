import SchemaStubs.Proofs.Naming.Distinct
import SchemaStubs.Proofs.Schema.Forest
import SchemaStubs.Stub.Member

/-!
The members of a struct. They are its fields in order, with what an anonymous group holds in the place
of the group, at whatever depth. The bodies of the named groups among them are taken in the order of the
declarations, and each has the struct as its home.
-/

namespace SchemaStubs

namespace Graph

variable {graph : Graph}

def classNodes (graph : Graph) (ids : List Id) : List Node :=
  (ids.filterMap graph.node?).filter fun node => decide (graph.HasClass node)

@[simp] theorem class_nodes_nil (graph : Graph) : graph.classNodes [] = [] := rfl

theorem class_nodes_append (graph : Graph) (ids others : List Id) :
    graph.classNodes (ids ++ others) = graph.classNodes ids ++ graph.classNodes others := by
  simp [classNodes]

theorem class_nodes_cons {id : Id} {node : Node} (found : graph.node? id = some node)
    (ids : List Id) : graph.classNodes (id :: ids) =
      (if graph.HasClass node then [node] else []) ++ graph.classNodes ids := by
  unfold classNodes
  rw [List.filterMap_cons_some found, List.filter_cons]
  by_cases hasClass : graph.HasClass node <;> simp [hasClass]

theorem mem_class_nodes_iff {ids : List Id} {node : Node} :
    node ∈ graph.classNodes ids ↔
      (∃ id ∈ ids, graph.node? id = some node) ∧ graph.HasClass node := by
  simp [classNodes, List.mem_filter, List.mem_filterMap]

theorem Preorder.split {ids others order : List Id} (preorder : Preorder graph (ids ++ others) order) :
    ∃ first second, order = first ++ second ∧ Preorder graph ids first ∧
      Preorder graph others second := by
  induction ids generalizing order with
  | nil => exact ⟨[], order, rfl, .nil, preorder⟩
  | cons id rest induction =>
      cases preorder with
      | cons found under next =>
          obtain ⟨first, second, rfl, inRest, inOthers⟩ := induction next
          exact ⟨_, second, (List.append_assoc _ _ _).symm, .cons found under inRest, inOthers⟩

variable {entries : List (Option Node)} {requested : List Id}

theorem WellScoped.groupField (wellScoped : graph.WellScoped)
    (built : build entries requested = .ok graph) {parent body : Node} {field : Field}
    (member : parent ∈ graph.nodes) (listed : field ∈ parent.fields) (isGroup : field.isGroup = true)
    (found : graph.node? field.group = some body) :
    body.isGroup = true ∧ graph.node? body.scope = some parent ∧
      graph.groupField? body.id = some field := by
  have isStruct := wellScoped.isStruct member listed
  have checked := (Node.check_ok ((build_ok built).2.2.2.2 parent member)).2.2.2
  obtain ⟨same, sameFound, _, bodyGroup⟩ := Node.check_members_group checked isStruct listed isGroup
  have bodyFound : findNode? graph.nodes field.group = some body := found
  rw [bodyFound] at sameFound
  cases sameFound
  have inBodies : field.group ∈ parent.groupBodies :=
    List.mem_map.mpr ⟨field, List.mem_filter.mpr ⟨listed, isGroup⟩, rfl⟩
  obtain ⟨node, nodeFound, _, inParent⟩ :=
    wellScoped.child built member (List.mem_append_right _ inBodies)
  rw [found] at nodeFound
  cases nodeFound
  refine ⟨bodyGroup, inParent, ?_⟩
  have sameId := id_of_node? found
  have bodyAgain : graph.node? body.id = some body := by
    rw [sameId]
    exact found
  unfold groupField?
  simp only [bodyAgain, inParent, bodyGroup, Option.bind_eq_bind, Option.bind_some, Bool.not_true,
    Bool.false_eq_true, if_false]
  -- no other field has the same body
  have distinct : ((parent.fields.filter Field.isGroup).map Field.group).Nodup :=
    (List.nodup_append.mp ((wellScoped.forest built).once parent member)).2.1
  rcases first : parent.fields.find? (fun other => other.isGroup && other.group == body.id)
    with _ | other
  · have missed := List.find?_eq_none.mp first field listed
    simp [isGroup, sameId] at missed
  · have matched := List.find?_some first
    simp only [Bool.and_eq_true, beq_iff_eq] at matched
    have alike := List.inj_on_of_nodup_map distinct
      (List.mem_filter.mpr ⟨List.mem_of_find?_eq_some first, matched.1⟩)
      (List.mem_filter.mpr ⟨listed, isGroup⟩) (matched.2.trans sameId)
    rw [first, alike]

end Graph

namespace Stub

variable {graph : Graph} {entries : List (Option Node)} {requested : List Id}

/-- The body of a named group whose class stands in the class of its home. -/
structure GroupIn (graph : Graph) (home body : Node) : Prop where
  found : graph.node? body.id = some body
  isGroup : body.isGroup = true
  hasClass : graph.HasClass body
  inHome : graph.Home body home

theorem check_names_ok_iff {seen : List (String × Id)} {members : List Member} :
    Member.checkNames seen members = .ok () ↔
      (members.map fun member => member.field.name).Nodup ∧
        ∀ member ∈ members, member.field.name ∉ seen.map Prod.fst := by
  induction members generalizing seen with
  | nil => simp [Member.checkNames]
  | cons first rest induction =>
      have missing : seen.lookup first.field.name = none ↔ first.field.name ∉ seen.map Prod.fst := by
        rw [List.lookup_eq_none_iff, List.mem_map]
        push Not
        refine forall₂_congr fun entry _ => ?_
        rw [bne_iff_ne, ne_comm]
      rw [List.map_cons, List.nodup_cons, List.forall_mem_cons]
      unfold Member.checkNames
      split
      · rename_i owner found
        refine ⟨nofun, ?_⟩
        rintro ⟨_, new, _⟩
        rw [missing.mpr new] at found
        cases found
      · rename_i new
        rw [induction, List.map_cons]
        constructor
        · rintro ⟨distinct, apart⟩
          refine ⟨⟨fun again => ?_, distinct⟩, missing.mp new, fun other listed known => ?_⟩
          · obtain ⟨other, listed, same⟩ := List.mem_map.mp again
            exact apart other listed (same ▸ List.mem_cons_self)
          · exact apart other listed (List.mem_cons_of_mem _ known)
        · rintro ⟨⟨own, distinct⟩, _, apart⟩
          refine ⟨distinct, fun other listed known => ?_⟩
          rcases List.mem_cons.mp known with same | earlier
          · exact own (List.mem_map.mpr ⟨other, listed, same⟩)
          · exact apart other listed earlier

/-- Within a bound, the members of a node are those of its fields in order, all with names of their
own. -/
theorem of_node_from_succ_ok_iff {bound : Nat} {node : Node} {members : List Member} :
    Member.ofNodeFrom graph (bound + 1) node = .ok members ↔
      (∃ lists, List.Forall₂ (fun field list =>
          Member.ofField graph (Member.ofNodeFrom graph bound) node field = .ok list) node.fields lists ∧
        members = lists.flatten) ∧
      (members.map fun member => member.field.name).Nodup := by
  unfold Member.ofNodeFrom
  simp only [except_bind_ok]
  constructor
  · rintro ⟨lists, made, ⟨⟩, checked, same⟩
    cases same
    exact ⟨⟨lists, except_mapM_related made, rfl⟩, (check_names_ok_iff.mp checked).1⟩
  · rintro ⟨⟨lists, related, rfl⟩, distinct⟩
    exact ⟨lists, except_mapM_of_related related, (), check_names_ok_iff.mpr ⟨distinct, by simp⟩, rfl⟩

theorem nodup_field_names {bound : Nat} {node : Node} {members : List Member}
    (flattened : Member.ofNodeFrom graph bound node = .ok members) :
    (members.map fun member => member.field.name).Nodup := by
  cases bound with
  | zero => cases flattened
  | succ less => exact (of_node_from_succ_ok_iff.mp flattened).2

/-- The flattening of some fields of a node: a slot and a named group are members as they stand, and an
anonymous group, which is in no union and has none, stands for the flattening of its own fields. -/
inductive Flattens (graph : Graph) : Node → List Field → List Member → Prop where
  | nil {owner : Node} : Flattens graph owner [] []
  | slot {owner : Node} {field : Field} {rest : List Field} {members : List Member}
      (plain : field.isGroup = false) (others : Flattens graph owner rest members) :
      Flattens graph owner (field :: rest) ({ field, owner } :: members)
  | named {owner body : Node} {field : Field} {rest : List Field} {members : List Member}
      (isGroup : field.isGroup = true) (named : field.name ≠ "")
      (found : graph.node? field.group = some body) (others : Flattens graph owner rest members) :
      Flattens graph owner (field :: rest) ({ field, owner, group := some body } :: members)
  | anonymous {owner body : Node} {field : Field} {rest : List Field} {parts members : List Member}
      (isGroup : field.isGroup = true) (unnamed : field.name = "")
      (found : graph.node? field.group = some body) (single : body.hasUnion = false)
      (outside : field.ordinal ≤ 0) (inside : Flattens graph body body.fields parts)
      (others : Flattens graph owner rest members) :
      Flattens graph owner (field :: rest) (parts ++ members)

namespace Flattens

/-- What a field stands for goes in front of what the other fields stand for. -/
theorem of_of_field {inner : Node → Except Fault (List Member)} {owner : Node} {field : Field}
    {rest : List Field} {list members : List Member}
    (shown : Member.ofField graph inner owner field = .ok list)
    (sound : ∀ body parts, inner body = .ok parts → Flattens graph body body.fields parts)
    (others : Flattens graph owner rest members) :
    Flattens graph owner (field :: rest) (list ++ members) := by
  unfold Member.ofField at shown
  split at shown
  · rename_i plain
    cases shown
    exact .slot (by simpa using plain) others
  · rename_i notPlain
    have isGroup : field.isGroup = true := by simpa using notPlain
    split at shown
    · cases shown
    · rename_i body found
      split at shown
      · rename_i notAnonymous
        cases shown
        exact .named isGroup (by simpa [Field.isAnonymous, isGroup] using notAnonymous) found others
      · rename_i isAnonymous
        split at shown
        · cases shown
        · rename_i apart
          simp only [Bool.or_eq_true, decide_eq_true_eq, not_or, Bool.not_eq_true] at apart
          exact .anonymous isGroup (by simpa [Field.isAnonymous, isGroup] using isAnonymous) found
            apart.1 (Int.not_lt.mp apart.2) (sound body list shown) others

theorem of_of_fields {inner : Node → Except Fault (List Member)} {owner : Node} {fields : List Field}
    {lists : List (List Member)}
    (shown : List.Forall₂ (fun field list => Member.ofField graph inner owner field = .ok list) fields
      lists)
    (sound : ∀ body parts, inner body = .ok parts → Flattens graph body body.fields parts) :
    Flattens graph owner fields lists.flatten := by
  induction shown with
  | nil => exact .nil
  | cons first _ induction => exact of_of_field first sound induction

theorem of_of_node_from {bound : Nat} {node : Node} {members : List Member}
    (flattened : Member.ofNodeFrom graph bound node = .ok members) :
    Flattens graph node node.fields members := by
  induction bound generalizing node members with
  | zero => cases flattened
  | succ bound induction =>
      obtain ⟨⟨lists, shown, rfl⟩, _⟩ := of_node_from_succ_ok_iff.mp flattened
      exact of_of_fields shown fun body parts inside => induction inside

theorem mem {owner : Node} {fields : List Field} {members : List Member}
    (flattens : Flattens graph owner fields members) (inGraph : owner ∈ graph.nodes)
    (listed : fields ⊆ owner.fields) : ∀ member ∈ members,
      member.owner ∈ graph.nodes ∧ member.field ∈ member.owner.fields ∧
        ∀ body, member.group = some body →
          member.field.isGroup = true ∧ graph.node? member.field.group = some body := by
  induction flattens with
  | nil => simp
  | slot _ _ induction =>
      obtain ⟨first, others⟩ := List.cons_subset.mp listed
      refine List.forall_mem_cons.mpr ⟨⟨inGraph, first, ?_⟩, induction inGraph others⟩
      exact fun _ none => nomatch none
  | named isGroup _ found _ induction =>
      obtain ⟨first, others⟩ := List.cons_subset.mp listed
      refine List.forall_mem_cons.mpr ⟨⟨inGraph, first, ?_⟩, induction inGraph others⟩
      rintro _ ⟨⟩
      exact ⟨isGroup, found⟩
  | anonymous _ _ found _ _ _ _ inside others =>
      exact List.forall_mem_append.mpr ⟨inside (Graph.mem_of_node? found) (List.Subset.refl _),
        others inGraph (List.subset_of_cons_subset listed)⟩

theorem part {owner : Node} {fields : List Field} {members : List Member}
    (flattens : Flattens graph owner fields members) {field : Field} (listed : field ∈ fields) :
    ∃ parts, Flattens graph owner [field] parts ∧ parts ⊆ members := by
  induction flattens with
  | nil => cases listed
  | slot plain _ induction =>
      rcases List.mem_cons.mp listed with rfl | later
      · exact ⟨_, .slot plain .nil, List.cons_subset_cons _ (List.nil_subset _)⟩
      · obtain ⟨parts, shown, subset⟩ := induction later
        exact ⟨parts, shown, List.subset_cons_of_subset _ subset⟩
  | named isGroup named found _ induction =>
      rcases List.mem_cons.mp listed with rfl | later
      · exact ⟨_, .named isGroup named found .nil, List.cons_subset_cons _ (List.nil_subset _)⟩
      · obtain ⟨parts, shown, subset⟩ := induction later
        exact ⟨parts, shown, List.subset_cons_of_subset _ subset⟩
  | anonymous isGroup unnamed found single outside inside _ _ others =>
      rcases List.mem_cons.mp listed with rfl | later
      · refine ⟨_, .anonymous isGroup unnamed found single outside inside .nil, ?_⟩
        rw [List.append_nil]
        exact List.subset_append_left _ _
      · obtain ⟨parts, shown, subset⟩ := others later
        exact ⟨parts, shown, List.subset_append_of_subset_right _ subset⟩

end Flattens

theorem mem_of_node_from {bound : Nat} {node : Node} {members : List Member}
    (flattened : Member.ofNodeFrom graph bound node = .ok members) (inGraph : node ∈ graph.nodes)
    {member : Member} (listed : member ∈ members) :
    member.owner ∈ graph.nodes ∧ member.field ∈ member.owner.fields ∧
      ∀ body, member.group = some body →
        member.field.isGroup = true ∧ graph.node? member.field.group = some body :=
  (Flattens.of_of_node_from flattened).mem inGraph (List.Subset.refl _) member listed

def HoldsClasses (graph : Graph) (home : Node) (bodies : List Node) (below : List Id) : Prop :=
  ∃ orders, List.Forall₂ (fun body order => GroupIn graph home body ∧
      graph.Preorder [body.id] order) bodies orders ∧
    graph.classNodes below = graph.classNodes orders.flatten

theorem HoldsClasses.append {home : Node} {bodies others : List Node} {below more : List Id}
    (first : HoldsClasses graph home bodies below) (second : HoldsClasses graph home others more) :
    HoldsClasses graph home (bodies ++ others) (below ++ more) := by
  obtain ⟨orders, placed, same⟩ := first
  obtain ⟨rest, morePlaced, moreSame⟩ := second
  refine ⟨orders ++ rest, List.rel_append placed morePlaced, ?_⟩
  rw [List.flatten_append, Graph.class_nodes_append, Graph.class_nodes_append, same, moreSame]

/-- One field at a time: a slot holds no class, a named group those of its body, and an anonymous group
those that its own members show. -/
theorem Flattens.groups (wellScoped : graph.WellScoped)
    (built : Graph.build entries requested = .ok graph) {owner home : Node} {fields : List Field}
    {members : List Member} (flattens : Flattens graph owner fields members)
    (inGraph : owner ∈ graph.nodes) (listed : fields ⊆ owner.fields)
    (inside : ∀ body, graph.node? body.scope = some owner → graph.Home body home) {below : List Id}
    (preorder : graph.Preorder ((fields.filter Field.isGroup).map Field.group) below) :
    HoldsClasses graph home (members.filterMap Member.group) below := by
  induction flattens generalizing below with
  | nil =>
      cases preorder
      exact ⟨[], .nil, rfl⟩
  | @slot owner field rest members plain _ induction =>
      rw [List.filter_cons_of_neg (by simp [plain])] at preorder
      exact induction inGraph (List.subset_of_cons_subset listed) inside preorder
  | @named owner body field rest members isGroup named found _ induction =>
      obtain ⟨first, others⟩ := List.cons_subset.mp listed
      obtain ⟨bodyGroup, inOwner, fieldOf⟩ :=
        wellScoped.groupField built inGraph first isGroup found
      have isStruct := Graph.build_groups built body (Graph.mem_of_node? found) bodyGroup
      have sameId := Graph.id_of_node? found
      rw [List.filter_cons_of_pos isGroup, List.map_cons, ← List.singleton_append] at preorder
      obtain ⟨here, after, rfl, inField, inRest⟩ := preorder.split
      have placed : GroupIn graph home body := by
        refine ⟨sameId ▸ found, bodyGroup, ⟨?_, ?_⟩, inside body inOwner⟩
        · rw [isStruct]
          rfl
        · simp [Graph.isAnonymousGroup, fieldOf, Field.isAnonymous, named]
      have shown : HoldsClasses graph home [body] here :=
        ⟨[here], .cons ⟨placed, sameId ▸ inField⟩ .nil, by rw [List.flatten_singleton]⟩
      exact shown.append (induction inGraph others inside inRest)
  | @anonymous owner body field rest parts members isGroup unnamed found _ _ _ _ flattened induction =>
      obtain ⟨first, others⟩ := List.cons_subset.mp listed
      obtain ⟨bodyGroup, inOwner, fieldOf⟩ :=
        wellScoped.groupField built inGraph first isGroup found
      have isStruct := Graph.build_groups built body (Graph.mem_of_node? found) bodyGroup
      rw [List.filter_cons_of_pos isGroup, List.map_cons] at preorder
      cases preorder with
      | cons bodyFound under next =>
          rw [found] at bodyFound
          cases bodyFound
          have anonymous : graph.isAnonymousGroup body = true := by
            simp [Graph.isAnonymousGroup, bodyGroup, fieldOf, Field.isAnonymous, isGroup, unnamed]
          unfold Node.children at under
          rw [wellScoped.groups body (Graph.mem_of_node? found) bodyGroup, List.nil_append] at under
          have shown := flattened (Graph.mem_of_node? found) (List.Subset.refl _)
            (fun part inBody => .through inBody anonymous (inside body inOwner)) under
          rw [List.filterMap_append]
          refine .append ?_ (induction inGraph others inside next)
          -- the group itself has no class
          obtain ⟨orders, placed, same⟩ := shown
          have noClass : ¬graph.HasClass body := by simp [Graph.HasClass, anonymous]
          refine ⟨orders, placed, ?_⟩
          rw [isStruct, if_neg (by decide), List.singleton_append, Graph.class_nodes_cons found,
            if_neg noClass, List.nil_append, same]

/-- The classes under the groups of a node are those of the named groups that its members show. -/
theorem of_node_from_groups (wellScoped : graph.WellScoped)
    (built : Graph.build entries requested = .ok graph) {bound : Nat} {node home : Node}
    {members : List Member} (flattened : Member.ofNodeFrom graph bound node = .ok members)
    (member : node ∈ graph.nodes)
    (inside : ∀ body, graph.node? body.scope = some node → graph.Home body home) {below : List Id}
    (preorder : graph.Preorder node.groupBodies below) :
    HoldsClasses graph home (members.filterMap Member.group) below :=
  (Flattens.of_of_node_from flattened).groups wellScoped built member (List.Subset.refl _) inside preorder

end Stub

end SchemaStubs
