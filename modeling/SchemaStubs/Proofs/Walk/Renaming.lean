import SchemaStubs.Proofs.Naming.Renaming
import SchemaStubs.Walk.Visit

/-!
A walk over a schema whose nodes have other names. It meets the renamed nodes in the same order, follows
the renamed edges and leaves the renamed references, or fails where the walk over the schema fails.
-/

namespace SchemaStubs

section Dependencies

variable (anew : Relabeling)

def Dependency.rename (dependency : Dependency) : Dependency :=
  { dependency with target := anew dependency.target }

mutual

theorem SchemaType.dependencies_rename (via : Via) (type : SchemaType) :
    (type.rename anew).dependencies via = (type.dependencies via).map (Dependency.rename anew) := by
  match type with
  | ⟨kind, element, target, brand, scope, index⟩ =>
      have inner := brand_dependencies_rename brand
      have held : ∀ inside, element = some inside →
          (inside.rename anew).dependencies via =
            (inside.dependencies via).map (Dependency.rename anew) := by
        intro inside _
        exact inside.dependencies_rename via
      cases kind <;> cases element <;>
        simp only [SchemaType.rename, SchemaType.dependencies, TypeKind.target?, inner] <;>
        first
          | rfl
          | exact held _ rfl

theorem brand_dependencies_rename (brand : List SchemaType) :
    brandDependencies (renameBrand anew brand) =
      (brandDependencies brand).map (Dependency.rename anew) := by
  match brand with
  | [] => rfl
  | type :: rest =>
      rw [renameBrand, brandDependencies, brandDependencies, List.map_append,
        type.dependencies_rename .brand, brand_dependencies_rename rest]

end

theorem Field.type_dependencies_rename (via : Via) (field : Field) :
    (field.rename anew).typeDependencies via =
      (field.typeDependencies via).map (Dependency.rename anew) := by
  unfold typeDependencies
  rw [rename_type]
  cases field.type with
  | none => rfl
  | some type => exact type.dependencies_rename anew via

theorem Field.dependencies_rename (field : Field) :
    (field.rename anew).dependencies = field.dependencies.map (Dependency.rename anew) := by
  unfold dependencies
  rw [rename_is_group]
  split
  · rfl
  · exact field.type_dependencies_rename anew .field

theorem flatMap_rename {α : Type} {rename : α → α} {parts : α → List Dependency}
    (each : ∀ item, parts (rename item) = (parts item).map (Dependency.rename anew)) (items : List α) :
    (items.map rename).flatMap parts = (items.flatMap parts).map (Dependency.rename anew) := by
  rw [List.flatMap_map, List.map_flatMap]
  exact congrArg (List.flatMap · items) (funext each)

theorem Method.dependencies_rename (method : Method) :
    (method.rename anew).dependencies = method.dependencies.map (Dependency.rename anew) := by
  unfold dependencies
  rw [rename_params, rename_results, List.map_append,
    flatMap_rename anew (Field.type_dependencies_rename anew .param),
    flatMap_rename anew (Field.type_dependencies_rename anew .result)]

theorem Node.dependencies_rename (node : Node) :
    (node.rename anew).dependencies = node.dependencies.map (Dependency.rename anew) := by
  have members : (node.rename anew).memberDependencies =
      node.memberDependencies.map (Dependency.rename anew) := by
    unfold memberDependencies
    rw [rename_kind]
    split
    · exact flatMap_rename anew (Field.dependencies_rename anew) node.fields
    · rw [rename_superclasses, rename_methods, List.map_append, List.map_map, List.map_map,
        flatMap_rename anew (Method.dependencies_rename anew)]
      rfl
    · rw [rename_const_type]
      cases node.constType with
      | none => rfl
      | some type => exact type.dependencies_rename anew .const
    · rfl
  unfold dependencies
  rw [members, rename_nested, List.map_append, List.map_map, List.map_map]
  rfl

end Dependencies

variable (anew : Relabeling)

def Reference.rename (reference : Reference) : Reference :=
  { reference with target := anew reference.target, file := anew reference.file }

/-- A reference whose file is not known yet has no file under other names either. -/
theorem Reference.rename_new (target : Id) (kind : NodeKind) :
    ({ target, kind } : Reference).rename anew = { target := anew target, kind } := by
  simp [rename, anew.zero]

def Edge.rename (edge : Edge) : Edge :=
  { edge with source := anew edge.source, target := anew edge.target }

namespace Walk

def rename (walk : Walk) : Walk where
  registry := walk.registry.rename anew
  progress := walk.progress.translate anew id
  order := walk.order.map anew
  edges := walk.edges.map (Edge.rename anew)
  references := walk.references.translate anew (Reference.rename anew)
  awaited := walk.awaited.map anew

def Follows (one two : Walk) : Prop :=
  ∃ journal, two = { one.rename anew with registry := { one.registry.rename anew with journal } }

section Answers

variable {anew} {one two : Walk} (follows : Follows anew one two)

include follows

theorem Follows.registry : Registry.Follows anew one.registry two.registry := by
  obtain ⟨journal, rfl⟩ := follows
  exact ⟨journal, rfl⟩

theorem Follows.progressOf (target : Id) : two.progressOf (anew target) = one.progressOf target := by
  obtain ⟨journal, rfl⟩ := follows
  exact congrArg (Option.getD · Progress.unseen)
    ((Table.get?_translate anew.injective one.progress target).trans (congrFun Option.map_id _))

theorem Follows.reference? (target : Id) :
    two.reference? (anew target) = (one.reference? target).map (Reference.rename anew) := by
  obtain ⟨journal, rfl⟩ := follows
  exact Table.get?_translate anew.injective one.references target

theorem Follows.pendingTargets : two.pendingTargets = one.pendingTargets.map anew := by
  have pending : ∀ target, two.isPending (anew target) = one.isPending target := by
    intro target
    unfold isPending
    rw [follows.reference?, Option.any_map]
    rfl
  have edges : two.edges.map Edge.target = (one.edges.map Edge.target).map anew := by
    obtain ⟨journal, rfl⟩ := follows
    change (one.edges.map (Edge.rename anew)).map Edge.target = _
    rw [List.map_map, List.map_map]
    rfl
  unfold Walk.pendingTargets
  rw [edges]
  exact Lists.filter_image pending _

end Answers

section Steps

open Step

variable {anew} {graph graph' : Graph}

theorem lockstep_modify {change change' : Walk → Walk}
    (each : ∀ walk registry, change' { walk.rename anew with registry } =
      { (change walk).rename anew with registry })
    (same : ∀ walk, (change walk).registry = walk.registry) :
    Lockstep (Follows anew) id (modify change : Step Walk Unit) (modify change') := by
  refine .of_modify fun one two follows => ?_
  obtain ⟨journal, rfl⟩ := follows
  exact ⟨journal, by rw [each, same]⟩

theorem lockstep_in_registry {α : Type} {image : α → α} {step step' : Step Registry α}
    (steps : Lockstep (Registry.Follows anew) image step step') :
    Lockstep (Follows anew) image (inRegistry step) (inRegistry step') := by
  refine .of_on_part steps (fun _ _ follows => follows.registry) ?_
  rintro one _ reached _ ⟨journal, rfl⟩ ⟨later, rfl⟩
  exact ⟨later, rfl⟩

theorem lockstep_note (event event' : Journal.Event) :
    Lockstep (Follows anew) id (note event) (note event') :=
  lockstep_in_registry (Registry.lockstep_note event event')

theorem lockstep_set_progress (target : Id) (progress : Progress) :
    Lockstep (Follows anew) id (setProgress target progress) (setProgress (anew target) progress) :=
  lockstep_modify (fun walk registry =>
    congrArg (fun table => ({ walk.rename anew with progress := table, registry } : Walk))
      (Table.set_translate anew.injective walk.progress target progress)) fun _ => rfl

theorem lockstep_set_reference (reference : Reference) :
    Lockstep (Follows anew) id (setReference reference) (setReference (reference.rename anew)) :=
  lockstep_modify (fun walk registry =>
    congrArg (fun table => ({ walk.rename anew with references := table, registry } : Walk))
      (Table.set_translate anew.injective walk.references reference.target reference)) fun _ => rfl

theorem lockstep_record_edge (edge : Edge) :
    Lockstep (Follows anew) id (recordEdge edge) (recordEdge (edge.rename anew)) := by
  refine lockstep_modify (fun walk registry => ?_) fun _ => rfl
  have appended : walk.edges.map (Edge.rename anew) ++ [edge.rename anew] =
      (walk.edges ++ [edge]).map (Edge.rename anew) := by simp
  exact congrArg (fun edges => ({ walk.rename anew with edges, registry } : Walk)) appended

variable (renamed : graph.Renamed anew graph')

include renamed

theorem lockstep_locate (node : Node) :
    Lockstep (Follows anew) (Reference.rename anew) (locate graph node)
      (locate graph' (node.rename anew)) := by
  refine .of_get_bind fun one two follows => ?_
  refine .of_bind (.of_of_except (renamed.file node.id)) fun file => .of_pure ?_
  rw [Node.rename_id, follows.registry.internal?]
  rfl

theorem lockstep_settle (node : Node) :
    Lockstep (Follows anew) id (settle graph node) (settle graph' (node.rename anew)) := by
  refine .of_get_bind fun one two follows => ?_
  have waits : (node.rename anew).id ∈ two.awaited ↔ node.id ∈ one.awaited := by
    obtain ⟨journal, rfl⟩ := follows
    exact anew.mem_map_iff
  refine .of_ite waits (fun _ => ?_) fun _ => .of_pure rfl
  refine .of_bind (.of_set ?_) fun _ => .of_bind (lockstep_locate renamed node) fun reference =>
    .of_bind (lockstep_set_reference reference) fun _ => lockstep_note _ _
  obtain ⟨journal, rfl⟩ := follows
  have left : (one.awaited.map anew).filter (fun target => target != anew node.id) =
      (one.awaited.filter fun target => target != node.id).map anew :=
    Lists.filter_image (fun target => by simp [bne]) one.awaited
  exact ⟨journal, congrArg (fun awaited => ({ one.rename anew with
    awaited, registry := { one.registry.rename anew with journal } } : Walk)) left⟩

omit renamed in
theorem lockstep_postpone (source : Id) (via : Via) (target : Node) (reference : Reference) :
    Lockstep (Follows anew) id (postpone source via target reference)
      (postpone (anew source) via (target.rename anew) (reference.rename anew)) := by
  refine .of_bind (lockstep_note _ _) fun _ => ?_
  refine .of_ite Iff.rfl (fun _ => .of_pure rfl) fun _ => ?_
  refine .of_bind (lockstep_set_reference { reference with pending := true }) fun _ => ?_
  refine lockstep_modify (fun walk registry => ?_) fun _ => rfl
  have appended : walk.awaited.map anew ++ [anew target.id] = (walk.awaited ++ [target.id]).map anew := by
    simp
  exact congrArg (fun awaited => ({ walk.rename anew with awaited, registry } : Walk)) appended

theorem target_of_rename (source : Id) (dependency : Dependency) :
    Alike (Node.rename anew) (targetOf graph source dependency)
      (targetOf graph' (anew source) (dependency.rename anew)) := by
  unfold targetOf
  rw [show (dependency.rename anew).target = anew dependency.target from rfl,
    renamed.node? dependency.target]
  cases graph.node? dependency.target with
  | none => exact .error _ _
  | some target =>
      dsimp only [Option.map_some, Dependency.rename]
      split
      · exact .ok target
      · exact .of_ite Iff.rfl (fun _ => .ok target) fun _ => .error _ _

omit renamed in
theorem lockstep_mention (target : Node) :
    Lockstep (Follows anew) id (mention target) (mention (target.rename anew)) := by
  refine .of_get_bind fun one two follows => ?_
  refine .of_ite ?_ (fun _ => ?_) fun _ => .of_pure rfl
  · rw [Node.rename_id, follows.reference?, Option.isNone_map]
  · rw [Node.rename_id, Node.rename_kind, ← Reference.rename_new]
    exact lockstep_set_reference _

theorem lockstep_refresh (source : Id) (via : Via) (target : Node) :
    Lockstep (Follows anew) id (refresh graph source via target)
      (refresh graph' (anew source) via (target.rename anew)) := by
  refine .of_get_bind fun one two follows => ?_
  rw [Node.rename_id, follows.progressOf, follows.reference?]
  have first : ((one.reference? target.id).map (Reference.rename anew)).getD
      { target := anew target.id, kind := target.kind } =
        ((one.reference? target.id).getD { target := target.id, kind := target.kind }).rename anew := by
    rw [← Reference.rename_new, Option.getD_map]
  dsimp only
  rw [Node.rename_kind, first]
  split
  · refine .of_ite anew.eq_zero_iff (fun _ => ?_) fun _ => .of_pure rfl
    exact .of_bind (lockstep_locate renamed target) fun located => lockstep_set_reference located
  · exact lockstep_postpone source via target _
  · exact .of_pure rfl

theorem lockstep_follow {visit visit' : Id → Step Walk Unit}
    (visits : ∀ target, Lockstep (Follows anew) id (visit target) (visit' (anew target))) (source : Id)
    (dependency : Dependency) :
    Lockstep (Follows anew) id (follow graph visit source dependency)
      (follow graph' visit' (anew source) (dependency.rename anew)) := by
  refine .of_bind (.of_of_except (target_of_rename renamed source dependency)) fun target => ?_
  refine .of_bind (lockstep_mention target) fun _ => .of_bind (visits target.id) fun _ => ?_
  refine .of_bind (lockstep_refresh renamed source dependency.via target) fun _ => ?_
  exact lockstep_record_edge ⟨source, dependency.via, target.id⟩

theorem lockstep_enter (target : Id) :
    Lockstep (Follows anew) id (enter graph target) (enter graph' (anew target)) := by
  have met : Lockstep (Follows anew) id
      (modify fun walk => { walk with order := walk.order ++ [target] } : Step Walk Unit)
      (modify fun walk => { walk with order := walk.order ++ [anew target] }) := by
    refine lockstep_modify (fun walk registry => ?_) fun _ => rfl
    have appended : walk.order.map anew ++ [anew target] = (walk.order ++ [target]).map anew := by simp
    exact congrArg (fun order => ({ walk.rename anew with order, registry } : Walk)) appended
  refine .of_bind (lockstep_set_progress target .underWay) fun _ => .of_bind met fun _ => ?_
  exact .of_bind (lockstep_in_registry (Registry.lockstep_register renamed target)) fun _ => .of_pure rfl

theorem lockstep_leave (node : Node) :
    Lockstep (Follows anew) id (leave graph node) (leave graph' (node.rename anew)) :=
  .of_bind (lockstep_set_progress node.id .complete) fun _ => lockstep_settle renamed node

theorem lockstep_visit_from (bound : Nat) (target : Id) :
    Lockstep (Follows anew) id (visitFrom graph bound target) (visitFrom graph' bound (anew target)) := by
  induction bound generalizing target with
  | zero => exact .of_pure rfl
  | succ bound induction =>
      refine .of_get_bind fun one two follows => ?_
      rw [follows.progressOf]
      refine .of_ite Iff.rfl (fun _ => .of_pure rfl) fun _ => ?_
      rw [renamed.node? target]
      cases graph.node? target with
      | none => exact .of_fail _ _
      | some node =>
          dsimp only [Option.map_some]
          rw [Node.dependencies_rename]
          have followed := Lockstep.of_forM fun dependency (_ : dependency ∈ node.dependencies) =>
            lockstep_follow renamed induction target dependency
          exact .of_bind (lockstep_enter renamed target) fun _ => .of_bind followed fun _ =>
            lockstep_leave renamed node

/-- A walk from renamed roots meets the renamed nodes, or both walks fail. -/
theorem lockstep_run (roots : List Id) :
    Lockstep (Follows anew) id (run graph roots) (run graph' (roots.map anew)) := by
  refine .of_bind (.of_forM fun root _ => ?_) fun _ => .of_get_bind fun one two follows => ?_
  · unfold visitRoot
    rw [renamed.node? root]
    cases graph.node? root with
    | none => exact .of_fail _ _
    | some node =>
        unfold visit
        rw [renamed.size]
        exact lockstep_visit_from renamed _ root
  · rw [follows.pendingTargets]
    cases one.pendingTargets with
    | nil => exact lockstep_note _ _
    | cons target rest => exact .of_fail _ _

end Steps

end Walk

end SchemaStubs
