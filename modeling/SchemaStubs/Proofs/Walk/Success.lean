import SchemaStubs.Proofs.Naming.Registration
import SchemaStubs.Proofs.Walk.Edges
import SchemaStubs.Proofs.Walk.Kinds
import SchemaStubs.Proofs.Walk.References

/-!
When a walk succeeds. All that the roots lead to has to be there and to be of the kind that it is
mentioned as, and no two classes on the paths to these nodes may have one name in one scope. Nothing
else stops a walk, and none of it is passed over behind a circle or in a brand: a walk that succeeds
has followed every dependency of every node that it met.
-/

namespace SchemaStubs

/-- The nodes that a type refers to exist and are of its kind, those of its brand and of its elements
included. -/
inductive SchemaType.Resolves (graph : Graph) : SchemaType → Prop where
  | reference {type : SchemaType} {wanted : NodeKind} {target : Node}
      (refers : type.kind.target? = some wanted) (found : graph.node? type.target = some target)
      (fits : target.kind = wanted) (bound : ∀ argument ∈ type.brand, Resolves graph argument) :
      Resolves graph type
  | element {type element : SchemaType} (isList : type.kind = .list)
      (held : type.element = some element) (inner : Resolves graph element) : Resolves graph type
  | value {type : SchemaType} (plain : type.isReference = false)
      (bare : type.kind = .list → type.element = none) : Resolves graph type

def Node.types (node : Node) : List SchemaType :=
  match node.kind with
  | .struct => (node.fields.filter fun field => !field.isGroup).filterMap Field.type
  | .interface => node.methods.flatMap fun method =>
      (method.params ++ method.results).filterMap Field.type
  | .const => node.constType.toList
  | _ => []

namespace Graph

def Holds (graph : Graph) (kind : NodeKind) (id : Id) : Prop :=
  ∃ node, graph.node? id = some node ∧ node.kind = kind

/-- All that a node mentions exists and is of the kind that the mention asks for. -/
structure Resolves (graph : Graph) (node : Node) : Prop where
  nested : ∀ id ∈ node.nested, (graph.node? id).isSome
  groups : node.kind = .struct → ∀ field ∈ node.fields, field.isGroup = true →
    graph.Holds .struct field.group
  superclasses : node.kind = .interface → ∀ id ∈ node.superclasses, graph.Holds .interface id
  types : ∀ type ∈ node.types, type.Resolves graph

/-- Some root leads to a node. -/
def Reaches (graph : Graph) (roots : List Id) (id : Id) : Prop :=
  ∃ root ∈ roots, Relation.ReflTransGen graph.DependsOn root id

theorem fits_iff_holds {graph : Graph} {via : Via} {target : Id} {wanted : NodeKind} :
    Walk.Fits graph ⟨via, target, some wanted⟩ ↔ graph.Holds wanted target := by
  simp [Walk.Fits, Holds]

theorem fits_iff_isSome {graph : Graph} {via : Via} {target : Id} :
    Walk.Fits graph ⟨via, target, none⟩ ↔ (graph.node? target).isSome := by
  simp [Walk.Fits, Option.isSome_iff_exists]

end Graph

namespace SchemaType

variable {graph : Graph}

theorem Resolves.fits {type : SchemaType} (resolves : type.Resolves graph) (via : Via) :
    ∀ dependency ∈ type.dependencies via, Walk.Fits graph dependency := by
  induction resolves generalizing via with
  | reference refers found fits _ bound =>
      rw [dependencies_of_reference refers, brand_dependencies_eq, List.forall_mem_cons]
      refine ⟨Graph.fits_iff_holds.mpr ⟨_, found, fits⟩, fun dependency member => ?_⟩
      obtain ⟨argument, listed, inside⟩ := List.mem_flatMap.mp member
      exact bound argument listed .brand dependency inside
  | element isList held _ inner =>
      rw [dependencies_of_list isList held]
      exact inner via
  | value plain bare =>
      rw [dependencies_of_value plain bare]
      simp

theorem resolves_of_fits {type : SchemaType} {via : Via}
    (fit : ∀ dependency ∈ type.dependencies via, Walk.Fits graph dependency) :
    type.Resolves graph := by
  induction type using parts_induction generalizing via with
  | reference type wanted refers inner =>
      rw [dependencies_of_reference refers, brand_dependencies_eq, List.forall_mem_cons] at fit
      obtain ⟨target, found, isWanted⟩ := Graph.fits_iff_holds.mp fit.1
      refine .reference refers found isWanted fun argument listed => ?_
      refine @inner argument listed .brand fun dependency inside => ?_
      exact fit.2 dependency (List.mem_flatMap.mpr ⟨argument, listed, inside⟩)
  | element type part isList held inner =>
      rw [dependencies_of_list isList held] at fit
      exact .element isList held (inner fit)
  | value type plain bare => exact .value plain bare

theorem resolves_iff_fits (via : Via) {type : SchemaType} :
    type.Resolves graph ↔ ∀ dependency ∈ type.dependencies via, Walk.Fits graph dependency :=
  ⟨fun resolves => resolves.fits via, resolves_of_fits⟩

end SchemaType

namespace Graph

variable {graph : Graph}

theorem resolves_fields_iff (via : Via) {fields : List Field} :
    (∀ type ∈ fields.filterMap Field.type, type.Resolves graph) ↔
      ∀ field ∈ fields, ∀ dependency ∈ field.typeDependencies via, Walk.Fits graph dependency := by
  simp only [List.mem_filterMap, forall_exists_index, and_imp, Node.mem_type_dependencies_iff]
  constructor
  · intro resolves field listed dependency type typed inside
    exact (resolves type field listed typed).fits via dependency inside
  · intro fit type field listed typed
    exact (SchemaType.resolves_iff_fits via).mpr fun dependency inside =>
      fit field listed dependency type typed inside

theorem resolves_struct_iff {node : Node} (isStruct : node.kind = .struct) :
    ((∀ field ∈ node.fields, field.isGroup = true → graph.Holds .struct field.group) ∧
        ∀ type ∈ node.types, type.Resolves graph) ↔
      ∀ dependency ∈ node.memberDependencies, Walk.Fits graph dependency := by
  rw [Node.types, Node.memberDependencies, isStruct]
  dsimp only
  rw [resolves_fields_iff .field, List.forall_mem_flatMap]
  simp only [List.mem_filter, Bool.not_eq_true', and_imp]
  constructor
  · rintro ⟨groups, slots⟩ field listed dependency inside
    unfold Field.dependencies at inside
    split at inside
    · rename_i isGroup
      cases List.mem_singleton.mp inside
      exact fits_iff_holds.mpr (groups field listed isGroup)
    · rename_i isSlot
      exact slots field listed (by simpa using isSlot) dependency inside
  · intro fit
    constructor
    · intro field listed isGroup
      refine fits_iff_holds.mp (fit field listed ⟨.group, field.group, some .struct⟩ ?_)
      simp [Field.dependencies, isGroup]
    · intro field listed isSlot dependency inside
      exact fit field listed dependency (by simpa [Field.dependencies, isSlot] using inside)

theorem resolves_interface_iff {node : Node} (isInterface : node.kind = .interface) :
    ((∀ id ∈ node.superclasses, graph.Holds .interface id) ∧
        ∀ type ∈ node.types, type.Resolves graph) ↔
      ∀ dependency ∈ node.memberDependencies, Walk.Fits graph dependency := by
  rw [Node.types, Node.memberDependencies, isInterface]
  dsimp only
  rw [List.forall_mem_append, List.forall_mem_map]
  refine and_congr (forall₂_congr fun id _ => fits_iff_holds.symm) ?_
  simp only [List.forall_mem_flatMap, Method.dependencies, List.filterMap_append,
    List.forall_mem_append]
  exact forall₂_congr fun method _ => and_congr (resolves_fields_iff .param)
    (resolves_fields_iff .result)

theorem resolves_iff_fits {node : Node} :
    graph.Resolves node ↔ ∀ dependency ∈ node.dependencies, Walk.Fits graph dependency := by
  have members : ((node.kind = .struct → ∀ field ∈ node.fields, field.isGroup = true →
        graph.Holds .struct field.group) ∧
      (node.kind = .interface → ∀ id ∈ node.superclasses, graph.Holds .interface id) ∧
      ∀ type ∈ node.types, type.Resolves graph) ↔
      ∀ dependency ∈ node.memberDependencies, Walk.Fits graph dependency := by
    by_cases isStruct : node.kind = .struct
    · rw [← resolves_struct_iff isStruct]
      simp [isStruct]
    · by_cases isInterface : node.kind = .interface
      · rw [← resolves_interface_iff isInterface]
        simp [isInterface]
      · by_cases isConst : node.kind = .const
        · rw [Node.member_dependencies_of_const isConst, Node.types, isConst, List.forall_mem_flatMap]
          simp [SchemaType.resolves_iff_fits .const]
        · rw [Node.member_dependencies_of_other isStruct isInterface isConst, Node.types]
          split <;> simp_all
  unfold Node.dependencies
  rw [List.forall_mem_append, List.forall_mem_map, ← members]
  simp only [fits_iff_isSome]
  constructor
  · rintro ⟨nested, groups, superclasses, types⟩
    exact ⟨nested, groups, superclasses, types⟩
  · rintro ⟨nested, groups, superclasses, types⟩
    exact ⟨nested, groups, superclasses, types⟩

end Graph

namespace Walk

variable {graph : Graph} {roots : List Id}

theorem Fits.target_of_ok {dependency : Dependency} (fits : Fits graph dependency) (source : Id) :
    ∃ target, targetOf graph source dependency = .ok target ∧
      graph.node? target.id = some target ∧ target.id = dependency.target := by
  obtain ⟨target, found, wantedKind⟩ := fits
  have same := Graph.id_of_node? found
  refine ⟨target, ?_, same ▸ found, same⟩
  unfold targetOf
  rw [found]
  dsimp only
  split
  · rfl
  · rename_i wanted asked
    rw [if_pos (wantedKind wanted asked)]

section Sufficiency

variable {invariant : Registry → Prop}

/-- Where all that a node leads to resolves and can be registered, its visit succeeds, whatever the
bound on its depth. -/
theorem visit_from_succeeds (ends : graph.ScopesEnd)
    (resolves : ∀ node, graph.node? node.id = some node → graph.Reaches roots node.id →
      graph.Resolves node)
    (registers : ∀ node, graph.node? node.id = some node → graph.Reaches roots node.id →
      (Registry.register graph node.id).Succeeds invariant)
    (blind : ∀ registry journal, invariant registry → invariant { registry with journal })
    {bound : Nat} {id : Id} {node : Node} (found : graph.node? id = some node)
    (reached : graph.Reaches roots id) :
    (visitFrom graph bound id).Succeeds fun walk => invariant walk.registry := by
  have quiet : ∀ (walk : Walk) (references : Table Id Reference) (awaited : List Id)
      (journal : List Journal.Event), invariant walk.registry →
      invariant { walk.registry with journal } := fun walk _ _ => blind walk.registry
  induction bound generalizing id node with
  | zero => exact .of_pure _
  | succ bound induction =>
      have same := Graph.id_of_node? found
      subst same
      unfold visitFrom visitWith
      refine .of_get_bind fun walk _ => ?_
      split
      · exact .of_pure _
      · rw [found]
        have enters : (enter graph node.id).Succeeds fun walk => invariant walk.registry := by
          refine .of_bind (.of_modify fun _ kept => kept) fun _ => ?_
          refine .of_bind (.of_modify fun _ kept => kept) fun _ => ?_
          refine .of_bind (.of_on_part (registers node found reached) ?_ ?_) fun _ => .of_pure _
          · exact fun _ start => start
          · exact fun _ _ _ ends => ends
        refine .of_bind enters fun _ => .of_bind (.of_forM fun dependency member => ?_) fun _ => ?_
        · -- the target of a dependency is there, is reached and, by induction, is visited
          have fits := Graph.resolves_iff_fits.mp (resolves node found reached) dependency member
          obtain ⟨target, passed, targetFound, aimed⟩ := fits.target_of_ok node.id
          obtain ⟨root, isRoot, leads⟩ := reached
          have depends : graph.DependsOn node.id target.id :=
            Graph.depends_on_iff.mpr ⟨node, dependency, found, member, aimed.symm⟩
          refine .of_check passed (.of_bind ?_ fun _ => .of_bind ?_ fun _ => .of_bind ?_ fun _ => ?_)
          · unfold mention
            refine .of_get_bind fun _ _ => ?_
            split
            · exact .of_modify fun _ kept => kept
            · exact .of_pure _
          · exact induction targetFound ⟨root, isRoot, leads.tail depends⟩
          · exact .of_fails_as (refresh_fails_as ends targetFound) (refresh_keeps _ _ _ quiet)
          · exact .of_modify fun _ kept => kept
        · refine .of_bind (.of_modify fun _ kept => kept) fun _ => ?_
          exact .of_fails_as (settle_fails_as ends found) (settle_keeps node quiet)

theorem visit_roots_succeeds (ends : graph.ScopesEnd)
    (found : ∀ root ∈ roots, (graph.node? root).isSome)
    (resolves : ∀ node, graph.node? node.id = some node → graph.Reaches roots node.id →
      graph.Resolves node)
    (apart : graph.Apart (graph.Reaches roots)) :
    ∃ walk, (roots.forM (visitRoot graph)).Returns {} () walk := by
  have visits : (roots.forM (visitRoot graph)).Succeeds fun walk =>
      Registry.Owned graph (fun node => graph.HasClass node ∧
        ∃ id, graph.Reaches roots id ∧ graph.OnPath id node) walk.registry := by
    refine .of_forM fun root isRoot => ?_
    obtain ⟨node, met⟩ := Option.isSome_iff_exists.mp (found root isRoot)
    unfold visitRoot
    rw [met]
    refine visit_from_succeeds ends resolves ?_ ?_ met ⟨root, isRoot, .refl⟩
    · intro other otherFound reached
      exact Registry.register_succeeds ends apart reached otherFound
    · exact fun _ _ owned => owned
  obtain ⟨_, walk, returns, _⟩ := visits {} (Registry.owned_empty graph _)
  exact ⟨walk, returns⟩

/-- Visits that succeed leave nothing pending, so the walk succeeds. -/
theorem run_of_visit_roots {walk : Walk} (returns : (roots.forM (visitRoot graph)).Returns {} () walk) :
    ((run graph roots).outcome {}).1 = .ok () := by
  obtain ⟨holds, _, _⟩ := (referenced_carries graph roots).visitRoots (fun _ isRoot => isRoot)
    ⟨Traverses.start graph roots, Referenced.start graph⟩ returns
  unfold run
  rw [Step.outcome_bind, returns]
  simp only [Step.outcome_bind, Step.outcome_get, holds.2.pending_targets_eq_nil holds.1]
  rfl

end Sufficiency

/-- A walk on a fresh state succeeds exactly if the roots are nodes, all that they lead to resolves, and
no two classes on the paths to these nodes have one name in one scope. -/
theorem run_ok_iff {entries : List (Option Node)} {requested : List Id}
    (built : Graph.build entries requested = .ok graph) (ends : graph.ScopesEnd) (roots : List Id) :
    ((run graph roots).outcome {}).1 = .ok () ↔
      (∀ root ∈ roots, (graph.node? root).isSome) ∧
      (∀ node, graph.node? node.id = some node → graph.Reaches roots node.id →
        graph.Resolves node) ∧
      graph.Apart (graph.Reaches roots) := by
  constructor
  · intro succeeded
    have returns : (run graph roots).Returns {} () ((run graph roots).outcome {}).2 := by
      unfold Step.Returns
      rw [← succeeded]
    generalize ((run graph roots).outcome {}).2 = walk at returns
    obtain ⟨⟨traverses, fitted⟩, _, visited⟩ := (fitted_carries graph roots).run
      (fun _ isRoot => isRoot) ⟨Traverses.start graph roots, Fitted.start graph⟩ returns
    have held : walk.registry.Held graph :=
      ((registering_carries graph roots (fun id => Registry.register_from_held _ id)
        fun _ _ held => held.congr rfl rfl).run (fun _ isRoot => isRoot)
        (Registry.held_empty graph) returns).1
    have met := fun id => (traverses.mem_order_iff_reached visited id).symm
    refine ⟨fun root isRoot => ?_, fun node found reached => ?_, ?_⟩
    · obtain ⟨internal, known⟩ := Option.isSome_iff_exists.mp
        (traverses.registered root ((traverses.order_iff root).mpr (visited root isRoot)))
      obtain ⟨node, found, _⟩ := traverses.canonical root internal known
      simp [found]
    · refine Graph.resolves_iff_fits.mpr fun dependency member => ?_
      exact fits_of_mem_order traverses fitted ((met node.id).mp reached) found member
    · exact held.apart built ends fun id reached => traverses.registered id ((met id).mp reached)
  · rintro ⟨found, resolves, apart⟩
    obtain ⟨walk, returns⟩ := visit_roots_succeeds ends found resolves apart
    exact run_of_visit_roots returns

theorem run_ok_iff_workshop :
    Graph.build (workshop.nodes.map some) [1] = .ok workshop ∧ workshop.ScopesEnd ∧
      ((run workshop [2]).outcome {}).1 = .ok () ∧ workshop.Apart (workshop.Reaches [2]) := by
  have built : Graph.build (workshop.nodes.map some) [1] = .ok workshop := rfl
  have ends : workshop.ScopesEnd := by decide +kernel
  have succeeded : ((run workshop [2]).outcome {}).1 = .ok () := by decide +kernel
  exact ⟨built, ends, succeeded, ((run_ok_iff built ends [2]).mp succeeded).2.2⟩

/-- The walk from two constants succeeds, although the structs around them have one name. -/
theorem constants_walk_alone :
    Graph.build (Registry.drawers.nodes.map some) [1] = .ok Registry.drawers ∧
      Registry.drawers.ScopesEnd ∧ ((run Registry.drawers [4, 5]).outcome {}).1 = .ok () ∧
      ∃ one two, one ≠ two ∧
        (∃ id, Registry.drawers.Reaches [4, 5] id ∧ Registry.drawers.ancestors id = .ok [one]) ∧
        (∃ id, Registry.drawers.Reaches [4, 5] id ∧ Registry.drawers.ancestors id = .ok [two]) ∧
        Registry.drawers.HasClass one ∧ Registry.drawers.HasClass two ∧ one.scope = two.scope ∧
        one.segment (Registry.groupName Registry.drawers one) =
          two.segment (Registry.groupName Registry.drawers two) := by
  refine ⟨rfl, by decide +kernel, by decide +kernel, Registry.drawers.nodes[1],
    Registry.drawers.nodes[2], ?_, ⟨4, ⟨4, by simp, .refl⟩, rfl⟩, ⟨5, ⟨5, by simp, .refl⟩, rfl⟩,
    by decide +kernel, by decide +kernel, rfl, rfl⟩
  intro same
  have ids : (2 : Id) = 3 := congrArg Node.id same
  revert ids
  decide

end Walk

end SchemaStubs
