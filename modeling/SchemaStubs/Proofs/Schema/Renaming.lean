import Mathlib.Logic.Equiv.Basic
import SchemaStubs.Naming.Registry
import SchemaStubs.Proofs.Lists
import SchemaStubs.Proofs.Lockstep
import SchemaStubs.Proofs.Schema.Accepted

/-!
Other names for the nodes of a schema. A relabeling gives every identifier another one, different ones to
different ones, and leaves zero, which no node has, as it is. What a graph is asked about a node has the
same answer about the renamed node of a renamed graph.
-/

namespace SchemaStubs

structure Relabeling where
  name : Id → Id
  injective : Function.Injective name
  zero : name 0 = 0

namespace Relabeling

instance : CoeFun Relabeling fun _ => Id → Id where
  coe := name

def refl : Relabeling where
  name := id
  injective := Function.injective_id
  zero := rfl

def swap (one two : Id) (oneInner : one ≠ 0) (twoInner : two ≠ 0) : Relabeling where
  name := Equiv.swap one two
  injective := (Equiv.swap one two).injective
  zero := Equiv.swap_apply_of_ne_of_ne oneInner.symm twoInner.symm

variable (anew : Relabeling)

@[simp] theorem refl_apply (id : Id) : refl id = id :=
  rfl

@[simp] theorem eq_iff {one two : Id} : anew one = anew two ↔ one = two :=
  anew.injective.eq_iff

@[simp] theorem beq_eq {one two : Id} : (anew one == anew two) = (one == two) := by
  rw [Bool.eq_iff_iff, beq_iff_eq, beq_iff_eq, anew.eq_iff]

@[simp] theorem eq_zero_iff {id : Id} : anew id = 0 ↔ id = 0 := by
  conv_lhs => rw [← anew.zero, anew.eq_iff]

@[simp] theorem mem_map_iff {id : Id} {ids : List Id} : anew id ∈ ids.map anew ↔ id ∈ ids :=
  List.mem_map_of_injective anew.injective

end Relabeling

/-! Renamed declarations -/

mutual

def SchemaType.rename (anew : Relabeling) : SchemaType → SchemaType
  | ⟨kind, none, target, brand, scope, index⟩ =>
      ⟨kind, none, anew target, renameBrand anew brand, anew scope, index⟩
  | ⟨kind, some element, target, brand, scope, index⟩ =>
      ⟨kind, some (element.rename anew), anew target, renameBrand anew brand,
        anew scope, index⟩

def renameBrand (anew : Relabeling) : List SchemaType → List SchemaType
  | [] => []
  | type :: rest => type.rename anew :: renameBrand anew rest

end

@[simp] theorem SchemaType.rename_kind (anew : Relabeling) (type : SchemaType) :
    (type.rename anew).kind = type.kind := by
  rcases type with ⟨kind, _ | element, target, brand, scope, index⟩ <;> simp [rename]

def Field.rename (anew : Relabeling) (field : Field) : Field :=
  { field with type := field.type.map (SchemaType.rename anew), group := anew field.group }

def Method.rename (anew : Relabeling) (method : Method) : Method :=
  { method with
    params := method.params.map (Field.rename anew)
    results := method.results.map (Field.rename anew) }

def Node.rename (anew : Relabeling) (node : Node) : Node :=
  { node with
    id := anew node.id
    scope := anew node.scope
    nested := node.nested.map anew
    fields := node.fields.map (Field.rename anew)
    methods := node.methods.map (Method.rename anew)
    superclasses := node.superclasses.map anew
    constType := node.constType.map (SchemaType.rename anew) }

section Projections

variable (anew : Relabeling)

@[simp] theorem Field.rename_name (field : Field) : (field.rename anew).name = field.name := rfl
@[simp] theorem Field.rename_kind (field : Field) : (field.rename anew).kind = field.kind := rfl
@[simp] theorem Field.rename_doc (field : Field) : (field.rename anew).doc = field.doc := rfl
@[simp] theorem Field.rename_ordinal (field : Field) :
    (field.rename anew).ordinal = field.ordinal := rfl
@[simp] theorem Field.rename_type (field : Field) :
    (field.rename anew).type = field.type.map (SchemaType.rename anew) := rfl
@[simp] theorem Field.rename_group (field : Field) :
    (field.rename anew).group = anew field.group := rfl
@[simp] theorem Field.rename_is_group (field : Field) :
    (field.rename anew).isGroup = field.isGroup := rfl
@[simp] theorem Field.rename_is_anonymous (field : Field) :
    (field.rename anew).isAnonymous = field.isAnonymous := rfl
@[simp] theorem Method.rename_name (method : Method) : (method.rename anew).name = method.name := rfl
@[simp] theorem Method.rename_doc (method : Method) : (method.rename anew).doc = method.doc := rfl
@[simp] theorem Method.rename_params (method : Method) :
    (method.rename anew).params = method.params.map (Field.rename anew) := rfl
@[simp] theorem Method.rename_results (method : Method) :
    (method.rename anew).results = method.results.map (Field.rename anew) := rfl
@[simp] theorem Node.rename_id (node : Node) : (node.rename anew).id = anew node.id := rfl
@[simp] theorem Node.rename_kind (node : Node) : (node.rename anew).kind = node.kind := rfl
@[simp] theorem Node.rename_is_group (node : Node) :
    (node.rename anew).isGroup = node.isGroup := rfl
@[simp] theorem Node.rename_name (node : Node) : (node.rename anew).name = node.name := rfl
@[simp] theorem Node.rename_display_name (node : Node) :
    (node.rename anew).displayName = node.displayName := rfl
@[simp] theorem Node.rename_scope (node : Node) :
    (node.rename anew).scope = anew node.scope := rfl
@[simp] theorem Node.rename_nested (node : Node) :
    (node.rename anew).nested = node.nested.map anew := rfl
@[simp] theorem Node.rename_fields (node : Node) :
    (node.rename anew).fields = node.fields.map (Field.rename anew) := rfl
@[simp] theorem Node.rename_union_size (node : Node) :
    (node.rename anew).unionSize = node.unionSize := rfl
@[simp] theorem Node.rename_has_union (node : Node) :
    (node.rename anew).hasUnion = node.hasUnion := rfl
@[simp] theorem Node.rename_enumerants (node : Node) :
    (node.rename anew).enumerants = node.enumerants := rfl
@[simp] theorem Node.rename_methods (node : Node) :
    (node.rename anew).methods = node.methods.map (Method.rename anew) := rfl
@[simp] theorem Node.rename_superclasses (node : Node) :
    (node.rename anew).superclasses = node.superclasses.map anew := rfl
@[simp] theorem Node.rename_const_type (node : Node) :
    (node.rename anew).constType = node.constType.map (SchemaType.rename anew) := rfl
@[simp] theorem Node.rename_doc (node : Node) : (node.rename anew).doc = node.doc := rfl

end Projections

/-! Where every node keeps its name -/

mutual

theorem SchemaType.rename_refl (type : SchemaType) : type.rename .refl = type := by
  match type with
  | ⟨kind, none, target, brand, scope, index⟩ =>
      simp [SchemaType.rename, rename_brand_refl brand]
  | ⟨kind, some element, target, brand, scope, index⟩ =>
      simp [SchemaType.rename, element.rename_refl, rename_brand_refl brand]

theorem rename_brand_refl (brand : List SchemaType) : renameBrand .refl brand = brand := by
  match brand with
  | [] => rfl
  | type :: rest => rw [renameBrand, type.rename_refl, rename_brand_refl rest]

end

theorem Field.rename_refl (field : Field) : field.rename .refl = field := by
  simp [rename, funext SchemaType.rename_refl]

theorem Method.rename_refl (method : Method) : method.rename .refl = method := by
  simp [rename, funext Field.rename_refl]

theorem Node.rename_refl (node : Node) : node.rename .refl = node := by
  have ids : Relabeling.refl.name = fun id => id := rfl
  simp [rename, ids, funext SchemaType.rename_refl, funext Field.rename_refl,
    funext Method.rename_refl]

/-! What is found in renamed nodes -/

def FoundRenamed (anew : Relabeling) (ones twos : List Node) : Prop :=
  ∀ id, findNode? twos (anew id) = (findNode? ones id).map (Node.rename anew)

theorem found_renamed_map (anew : Relabeling) (nodes : List Node) :
    FoundRenamed anew nodes (nodes.map (Node.rename anew)) := by
  intro id
  exact Lists.find?_image (fun node => by simp) nodes

/-- Nodes with identifiers of their own are found wherever they stand. -/
theorem found_renamed_of_perm {ones twos : List Node} (perm : ones.Perm twos)
    (distinct : (ones.map Node.id).Nodup) : FoundRenamed .refl ones twos := by
  intro id
  have same : findNode? twos id = findNode? ones id := by
    rcases found : findNode? ones id with _ | node
    · have missing := List.find?_eq_none.mp found
      exact List.find?_eq_none.mpr fun node member => missing node (perm.mem_iff.mpr member)
    · have member := perm.mem_iff.mp (List.mem_of_find?_eq_some found)
      have again := Graph.node?_of_mem (show ((⟨twos, []⟩ : Graph).nodes.map Node.id).Nodup from
        (perm.map Node.id).nodup_iff.mp distinct) member
      rwa [show node.id = id by simpa using List.find?_some found] at again
  rw [Relabeling.refl_apply, same, funext Node.rename_refl, Option.map_id']

section Checks

variable {anew : Relabeling} {ones twos : List Node}

mutual

theorem SchemaType.check_rename (owner : Id) (type : SchemaType) :
    Alike id (type.check owner) ((type.rename anew).check (anew owner)) := by
  match type with
  | ⟨kind, element, target, brand, scope, index⟩ =>
      have inner := check_brand_rename owner brand
      have held : ∀ inside, element = some inside →
          Alike id (inside.check owner) ((inside.rename anew).check (anew owner)) := by
        intro inside _
        exact inside.check_rename owner
      cases kind <;> cases element <;>
        simp only [SchemaType.rename, SchemaType.check, Relabeling.eq_zero_iff] <;>
        first
          | exact .ok ()
          | exact .error _ _
          | exact held _ rfl
          | exact .of_ite Iff.rfl (fun _ => .error _ _) fun _ => by first | exact inner | exact .ok ()

theorem check_brand_rename (owner : Id) (brand : List SchemaType) :
    Alike id (checkBrand owner brand) (checkBrand (anew owner) (renameBrand anew brand)) := by
  match brand with
  | [] => exact .ok ()
  | type :: rest => exact .of_bind (type.check_rename owner) fun _ _ => check_brand_rename owner rest

end

/-- What is there of a field or a constant has a type that is checked alike. -/
theorem check_typed_rename (owner : Id) (type : Option SchemaType) (fault fault' : Fault) :
    Alike id
      (match type with
        | none => .error fault
        | some type => type.check owner)
      (match type.map (SchemaType.rename anew) with
        | none => .error fault'
        | some type => type.check (anew owner)) := by
  cases type with
  | none => exact .error fault fault'
  | some type => exact type.check_rename owner

variable (found : FoundRenamed anew ones twos)

include found

theorem check_field_rename (node : Node) (field : Field) :
    Alike id (node.checkField ones field) ((node.rename anew).checkField twos (field.rename anew)) := by
  unfold Node.checkField
  rw [Field.rename_kind, Field.rename_group, found field.group]
  split
  · exact .of_ite Iff.rfl (fun _ => .error _ _) fun _ => check_typed_rename _ _ _ _
  · exact .of_ite Iff.rfl (fun _ => .error _ _) fun _ => check_typed_rename _ _ _ _
  · cases findNode? ones field.group with
    | none => exact .error _ _
    | some body => exact .of_ite Iff.rfl (fun _ => .ok ()) fun _ => .error _ _
  · exact .error _ _

theorem check_fields_from_rename (node : Node) (seen : List Int) (fields : List Field) :
    Alike id (node.checkFieldsFrom ones seen fields)
      ((node.rename anew).checkFieldsFrom twos seen (fields.map (Field.rename anew))) := by
  induction fields generalizing seen with
  | nil => exact .ok seen
  | cons field rest induction =>
      refine .of_bind (check_field_rename found node field) fun _ _ => ?_
      refine .of_ite Iff.rfl (fun _ => .error _ _) fun _ => ?_
      refine .of_ite Iff.rfl (fun _ => induction seen) fun _ => ?_
      exact .of_ite Iff.rfl (fun _ => .error _ _) fun _ => induction _

omit found in
theorem check_enumerants_rename (node : Node) (index : Nat) (enumerants : List String) :
    Alike id (node.checkEnumerants index enumerants)
      ((node.rename anew).checkEnumerants index enumerants) := by
  induction enumerants generalizing index with
  | nil => exact .ok ()
  | cons name rest induction =>
      exact .of_ite Iff.rfl (fun _ => .error _ _) fun _ => induction (index + 1)

omit found in
theorem check_method_rename (node : Node) (method : Method) :
    Alike id (node.checkMethod method) ((node.rename anew).checkMethod (method.rename anew)) := by
  refine .of_ite Iff.rfl (fun _ => .error _ _) fun _ => ?_
  rw [Method.rename_params, Method.rename_results, ← List.map_append]
  refine .of_forM fun field _ => ?_
  unfold Node.checkParameter
  rw [Field.rename_type]
  cases field.type with
  | none => exact .error _ _
  | some type => exact .of_ite Iff.rfl (fun _ => .error _ _) fun _ => type.check_rename node.id

theorem check_scope_rename (node : Node) :
    Alike id (node.checkScope ones) ((node.rename anew).checkScope twos) := by
  unfold Node.checkScope
  refine .of_ite Iff.rfl (fun _ => ?_) fun _ => ?_
  · exact .of_ite anew.eq_zero_iff (fun _ => .ok ()) fun _ => .error _ _
  · rw [Node.rename_scope, found node.scope]
    cases findNode? ones node.scope with
    | none => exact .error _ _
    | some scope =>
        dsimp only [Option.map_some]
        rw [Node.rename_kind]
        split
        · exact .error _ _
        · exact .error _ _
        · exact .error _ _
        · exact .ok ()

theorem check_nested_rename (node : Node) (nested : Id) :
    Alike id (node.checkNested ones nested) ((node.rename anew).checkNested twos (anew nested)) := by
  unfold Node.checkNested
  rw [found nested]
  cases findNode? ones nested with
  | none => exact .error _ _
  | some child => exact .of_ite anew.eq_iff (fun _ => .ok ()) fun _ => .error _ _

theorem check_members_rename (node : Node) :
    Alike id (node.checkMembers ones) ((node.rename anew).checkMembers twos) := by
  unfold Node.checkMembers
  rw [Node.rename_kind]
  split
  · refine .of_bind (check_fields_from_rename found node [] node.fields) fun _ _ => ?_
    refine .of_ite Iff.rfl (fun _ => .error _ _) fun _ => ?_
    exact .of_ite Iff.rfl (fun _ => .error _ _) fun _ => .ok ()
  · exact check_enumerants_rename node 0 node.enumerants
  · exact .of_forM fun method _ => check_method_rename node method
  · exact check_typed_rename node.id node.constType _ _
  · exact .ok ()

/-- A renamed node is accepted among renamed nodes where it was accepted before. -/
theorem check_node_rename (node : Node) :
    Alike id (node.check ones) ((node.rename anew).check twos) := by
  unfold Node.check
  dsimp only
  refine .of_ite Iff.rfl (fun _ => .error _ _) fun _ => ?_
  refine .of_ite Iff.rfl (fun _ => .error _ _) fun _ => ?_
  refine .of_bind (check_scope_rename found node) fun _ _ => ?_
  refine .of_ite Iff.rfl (fun _ => .error _ _) fun _ => ?_
  refine .of_bind (.of_forM fun nested _ => check_nested_rename found node nested) fun _ _ => ?_
  exact check_members_rename found node

end Checks

/-! Graphs -/

/-- The nodes of the second graph are those of the first with other names, in whatever order, and its
requests are renamed alike. -/
structure Graph.Renamed (anew : Relabeling) (one two : Graph) : Prop where
  found : FoundRenamed anew one.nodes two.nodes
  size : two.size = one.size
  requested : two.requested = one.requested.map anew

namespace Graph

theorem check_requested_rename {anew : Relabeling} {ones twos : List Node}
    (found : FoundRenamed anew ones twos) (id : Id) :
    Alike (·) (checkRequested ones id) (checkRequested twos (anew id)) := by
  unfold checkRequested
  rw [found id]
  cases findNode? ones id with
  | none => exact .error _ _
  | some node => exact .of_ite Iff.rfl (fun _ => .ok ()) fun _ => .error _ _

theorem collect_rename (anew : Relabeling) (index : Nat) (seen : List Id) (entries : List (Option Node)) :
    Alike (List.map (Node.rename anew)) (collect index seen entries)
      (collect index (seen.map anew) (entries.map (Option.map (Node.rename anew)))) := by
  induction entries generalizing index seen with
  | nil => exact .ok []
  | cons entry rest induction =>
      cases entry with
      | none => exact .error _ _
      | some node =>
          refine .of_ite anew.eq_zero_iff (fun _ => .error _ _) fun _ => ?_
          refine .of_ite anew.mem_map_iff (fun _ => .error _ _) fun _ => ?_
          exact .of_bind (induction (index + 1) (node.id :: seen)) fun others _ => .ok _

def rename (anew : Relabeling) (graph : Graph) : Graph where
  nodes := graph.nodes.map (Node.rename anew)
  requested := graph.requested.map anew

theorem renamed_rename (anew : Relabeling) (graph : Graph) : graph.Renamed anew (graph.rename anew) where
  found := found_renamed_map anew graph.nodes
  size := List.length_map _
  requested := rfl

/-- A schema with other names is accepted if the schema is, and gives the graph with other names. -/
theorem build_rename (anew : Relabeling) (entries : List (Option Node)) (requested : List Id) :
    Alike (rename anew) (build entries requested)
      (build (entries.map (Option.map (Node.rename anew))) (requested.map anew)) := by
  unfold build
  refine .of_bind (collect_rename anew 0 [] entries) fun nodes _ => ?_
  have found := found_renamed_map anew nodes
  refine .of_ite (by simp) (fun _ => .error _ _) fun _ => ?_
  refine .of_bind (.of_forM fun id _ => check_requested_rename found id) fun _ _ => ?_
  exact .of_bind (.of_forM fun node _ => check_node_rename found node) fun _ _ =>
    .ok (⟨nodes, requested⟩ : Graph)

/-- A schema whose nodes stand in another order is accepted too, and gives the same graph but for the
order. -/
theorem build_perm {entries others : List (Option Node)} (perm : entries.Perm others)
    {requested : List Id} {one : Graph} (built : build entries requested = .ok one) :
    ∃ two, build others requested = .ok two ∧ one.Renamed .refl two := by
  obtain ⟨collected, rfl, asked, files, checked⟩ := build_ok built
  obtain ⟨given, rfl, named, apart, distinct⟩ := collect_eq_ok_iff.mp collected
  -- all entries are present, so those in another order are those of other nodes
  obtain ⟨again, rfl, moved⟩ : ∃ again : List Node, others = again.map some ∧ given.Perm again := by
    have present : ∀ entry ∈ others, entry.isSome = true := by
      intro entry member
      obtain ⟨node, _, rfl⟩ := List.mem_map.mp (perm.mem_iff.mpr member)
      rfl
    refine ⟨others.filterMap fun entry => entry, ?_, ?_⟩
    · rw [List.map_filterMap_some_eq_filter_map_isSome, List.map_id', List.filter_eq_self.mpr present]
    · simpa [List.filterMap_map] using perm.filterMap fun entry => entry
  have collects : collect 0 [] (again.map some) = .ok (again.map Node.withNames) :=
    collect_eq_ok_iff.mpr ⟨again, rfl, rfl, fun node member => apart node (moved.mem_iff.mpr member),
      (moved.map Node.id).nodup_iff.mp distinct⟩
  have nodes : one.nodes.Perm (again.map Node.withNames) := named ▸ moved.map Node.withNames
  have found := found_renamed_of_perm nodes (collect_ids collected).1
  let two : Graph := ⟨again.map Node.withNames, one.requested⟩
  refine ⟨two, build_eq_ok_iff.mpr ⟨collects, rfl, asked, fun id member => ?_, fun node member => ?_⟩,
    found, nodes.length_eq.symm, (List.map_id _).symm⟩
  · exact (check_requested_rename found id).eq_ok (files id member)
  · have passed := (check_node_rename found node).eq_ok (checked node (nodes.mem_iff.mpr member))
    rwa [Node.rename_refl] at passed

namespace Renamed

variable {anew : Relabeling} {one two : Graph} (renamed : one.Renamed anew two)

include renamed

theorem node? (id : Id) : two.node? (anew id) = (one.node? id).map (Node.rename anew) :=
  renamed.found id

theorem lookup (source source' id : Id) :
    Alike (Node.rename anew) (one.lookup source id) (two.lookup source' (anew id)) := by
  unfold Graph.lookup
  rw [renamed.node? id]
  cases one.node? id with
  | none => exact .error _ _
  | some node => exact .ok node

theorem fileFrom (start start' : Id) (bound : Nat) (node : Node) :
    Alike (Node.rename anew) (one.fileFrom start bound node)
      (two.fileFrom start' bound (node.rename anew)) := by
  induction bound generalizing node with
  | zero => exact .of_ite Iff.rfl (fun _ => .ok node) fun _ => .error _ _
  | succ bound induction =>
      refine .of_ite Iff.rfl (fun _ => .ok node) fun _ => ?_
      exact .of_bind (renamed.lookup _ _ node.scope) fun scope _ => induction scope

theorem file (id : Id) : Alike (Node.rename anew) (one.file id) (two.file (anew id)) := by
  unfold Graph.file
  rw [renamed.size]
  exact .of_bind (renamed.lookup _ _ id) fun node _ => renamed.fileFrom _ _ _ node

theorem scopesFrom (start start' : Id) (bound : Nat) (node : Node) :
    Alike (List.map (Node.rename anew)) (one.scopesFrom start bound node)
      (two.scopesFrom start' bound (node.rename anew)) := by
  induction bound generalizing node with
  | zero => exact .of_ite Iff.rfl (fun _ => .ok []) fun _ => .error _ _
  | succ bound induction =>
      refine .of_ite Iff.rfl (fun _ => .ok []) fun _ => ?_
      refine .of_bind (renamed.lookup _ _ node.scope) fun scope _ => ?_
      refine .of_bind (induction scope) fun outer _ => .of_ok ?_
      rw [Node.rename_kind]
      split <;> rfl

theorem ancestors (id : Id) :
    Alike (List.map (Node.rename anew)) (one.ancestors id) (two.ancestors (anew id)) := by
  unfold Graph.ancestors
  rw [renamed.size]
  refine .of_bind (renamed.lookup _ _ id) fun node _ => ?_
  exact .of_bind (renamed.scopesFrom _ _ _ node) fun scopes _ => .of_ok List.map_reverse.symm

theorem groupField? (id : Id) :
    two.groupField? (anew id) = (one.groupField? id).map (Field.rename anew) := by
  unfold Graph.groupField?
  rw [renamed.node? id]
  cases one.node? id with
  | none => rfl
  | some node =>
      dsimp only [Option.map_some, Option.bind_eq_bind, Option.bind_some]
      rw [Node.rename_is_group, Node.rename_scope, renamed.node? node.scope]
      split
      · rfl
      · cases one.node? node.scope with
        | none => rfl
        | some parent =>
            dsimp only [Option.map_some, Option.bind_some]
            rw [Node.rename_fields]
            exact Lists.find?_image (fun field => by simp) parent.fields

theorem isAnonymousGroup (node : Node) :
    two.isAnonymousGroup (node.rename anew) = one.isAnonymousGroup node := by
  unfold Graph.isAnonymousGroup
  rw [Node.rename_is_group, Node.rename_id, renamed.groupField? node.id, Option.any_map]
  rfl

theorem groupName (node : Node) :
    Registry.groupName two (node.rename anew) = Registry.groupName one node := by
  unfold Registry.groupName
  rw [Node.rename_id, renamed.groupField? node.id, Option.map_map]
  rfl

end Renamed

end Graph

end SchemaStubs
