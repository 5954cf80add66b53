import SchemaStubs.Schema.Graph
import SchemaStubs.Walk.Dependency

/-!
The ways a declaration can mention another one, each a rule of its own: a nested declaration, the
body of a group, a superclass, and the types of fields, parameters, results and constants, through
list elements and brands. The dependencies that are followed are exactly these mentions.
-/

namespace SchemaStubs

inductive SchemaType.Mentions : Via → SchemaType → Via → Id → Prop where
  | target {via : Via} {type : SchemaType} (refers : type.isReference = true) :
      Mentions via type via type.target
  | element {via found : Via} {type element : SchemaType} {target : Id}
      (isList : type.kind = .list) (held : type.element = some element)
      (inner : Mentions via element found target) : Mentions via type found target
  | brand {via found : Via} {type argument : SchemaType} {target : Id}
      (refers : type.isReference = true) (member : argument ∈ type.brand)
      (inner : Mentions .brand argument found target) : Mentions via type found target

inductive Node.Mentions (node : Node) : Via → Id → Prop where
  | nested {target : Id} (member : target ∈ node.nested) : Mentions node .nested target
  | group {field : Field} (isStruct : node.kind = .struct) (member : field ∈ node.fields)
      (isGroup : field.isGroup = true) : Mentions node .group field.group
  | field {field : Field} {type : SchemaType} {via : Via} {target : Id}
      (isStruct : node.kind = .struct) (member : field ∈ node.fields)
      (plain : field.isGroup = false) (typed : field.type = some type)
      (mentioned : type.Mentions .field via target) : Mentions node via target
  | superclass {target : Id} (isInterface : node.kind = .interface)
      (member : target ∈ node.superclasses) : Mentions node .superclass target
  | param {method : Method} {field : Field} {type : SchemaType} {via : Via} {target : Id}
      (isInterface : node.kind = .interface) (declared : method ∈ node.methods)
      (member : field ∈ method.params) (typed : field.type = some type)
      (mentioned : type.Mentions .param via target) : Mentions node via target
  | result {method : Method} {field : Field} {type : SchemaType} {via : Via} {target : Id}
      (isInterface : node.kind = .interface) (declared : method ∈ node.methods)
      (member : field ∈ method.results) (typed : field.type = some type)
      (mentioned : type.Mentions .result via target) : Mentions node via target
  | const {type : SchemaType} {via : Via} {target : Id} (isConst : node.kind = .const)
      (typed : node.constType = some type) (mentioned : type.Mentions .const via target) :
      Mentions node via target

/-- A node of the graph mentions another node. -/
def Graph.DependsOn (graph : Graph) (source target : Id) : Prop :=
  ∃ node via, graph.node? source = some node ∧ node.Mentions via target

namespace SchemaType

theorem dependencies_of_reference {via : Via} {type : SchemaType} {wanted : NodeKind}
    (refers : type.kind.target? = some wanted) :
    type.dependencies via = ⟨via, type.target, some wanted⟩ :: brandDependencies type.brand := by
  obtain ⟨kind, element, target, brand, scope, index⟩ := type
  cases kind <;> cases refers <;> simp [dependencies, TypeKind.target?]

theorem dependencies_of_list {via : Via} {type element : SchemaType} (isList : type.kind = .list)
    (held : type.element = some element) : type.dependencies via = element.dependencies via := by
  obtain ⟨kind, inner, target, brand, scope, index⟩ := type
  cases isList
  cases held
  simp [dependencies]

theorem brand_dependencies_eq (types : List SchemaType) :
    brandDependencies types = types.flatMap (dependencies .brand) := by
  induction types with
  | nil => simp [brandDependencies]
  | cons type rest induction => simp [brandDependencies, induction]

theorem mem_dependencies_of_mentions {via found : Via} {type : SchemaType} {target : Id}
    (mentioned : type.Mentions via found target) :
    ∃ wanted, ⟨found, target, wanted⟩ ∈ type.dependencies via := by
  induction mentioned with
  | target refers =>
      obtain ⟨wanted, known⟩ := Option.isSome_iff_exists.mp refers
      exact ⟨some wanted, by simp [dependencies_of_reference known]⟩
  | element isList held _ induction =>
      rw [dependencies_of_list isList held]
      exact induction
  | brand refers member _ induction =>
      obtain ⟨_, known⟩ := Option.isSome_iff_exists.mp refers
      obtain ⟨wanted, inside⟩ := induction
      refine ⟨wanted, ?_⟩
      rw [dependencies_of_reference known, brand_dependencies_eq]
      exact List.mem_cons_of_mem _ (List.mem_flatMap.mpr ⟨_, member, inside⟩)

theorem dependencies_of_value {via : Via} {type : SchemaType} (plain : type.isReference = false)
    (bare : type.kind = .list → type.element = none) : type.dependencies via = [] := by
  obtain ⟨kind, element, target, brand, scope, index⟩ := type
  cases kind <;> simp_all [isReference, dependencies, TypeKind.target?]

/-- Induction over types as the walk goes through them: down into the brand of a reference and the
element of a list, and no further. -/
theorem parts_induction {motive : SchemaType → Prop}
    (reference : ∀ type wanted, type.kind.target? = some wanted →
      (∀ argument ∈ type.brand, motive argument) → motive type)
    (element : ∀ type element, type.kind = .list → type.element = some element →
      motive element → motive type)
    (value : ∀ type, type.isReference = false → (type.kind = .list → type.element = none) →
      motive type) (type : SchemaType) : motive type := by
  match refers : type.kind.target? with
  | some wanted =>
      refine reference type wanted refers fun argument listed => ?_
      exact parts_induction reference element value argument
  | none =>
      have plain : type.isReference = false := by simp [isReference, refers]
      by_cases isList : type.kind = .list
      · match held : type.element with
        | none => exact value type plain fun _ => held
        | some part =>
            exact element type part isList held (parts_induction reference element value part)
      · exact value type plain fun same => absurd same isList
termination_by type
decreasing_by
  · obtain ⟨kind, inner, target, brand, scope, index⟩ := type
    have smaller := List.sizeOf_lt_of_mem listed
    simp only [mk.sizeOf_spec] at smaller ⊢
    omega
  · obtain ⟨kind, inner, target, brand, scope, index⟩ := type
    cases held
    simp only [mk.sizeOf_spec, Option.some.sizeOf_spec]
    omega

theorem mentions_of_mem_dependencies {via : Via} {type : SchemaType} {dependency : Dependency}
    (member : dependency ∈ type.dependencies via) :
    type.Mentions via dependency.via dependency.target := by
  induction type using parts_induction generalizing via with
  | reference type wanted known inner =>
      have refers : type.isReference = true := by simp [isReference, known]
      rw [dependencies_of_reference known, brand_dependencies_eq] at member
      rcases List.mem_cons.mp member with rfl | inside
      · exact .target refers
      · obtain ⟨argument, listed, deeper⟩ := List.mem_flatMap.mp inside
        exact .brand refers listed (inner argument listed deeper)
  | element type part isList held inner =>
      rw [dependencies_of_list isList held] at member
      exact .element isList held (inner member)
  | value type plain bare =>
      rw [dependencies_of_value plain bare] at member
      cases member

end SchemaType

theorem Field.type_dependencies_eq (via : Via) (field : Field) :
    field.typeDependencies via = field.type.toList.flatMap (SchemaType.dependencies via) := by
  unfold Field.typeDependencies
  cases field.type <;> simp

namespace Node

theorem member_dependencies_of_const {node : Node} (isConst : node.kind = .const) :
    node.memberDependencies = node.constType.toList.flatMap (SchemaType.dependencies .const) := by
  rw [memberDependencies, isConst]
  cases node.constType <;> simp

theorem member_dependencies_of_other {node : Node} (noStruct : node.kind ≠ .struct)
    (noInterface : node.kind ≠ .interface) (noConst : node.kind ≠ .const) :
    node.memberDependencies = [] := by
  rw [memberDependencies]
  split <;> first | contradiction | rfl

theorem mem_type_dependencies_iff {via : Via} {field : Field} {dependency : Dependency} :
    dependency ∈ field.typeDependencies via ↔
      ∃ type, field.type = some type ∧ dependency ∈ type.dependencies via := by
  unfold Field.typeDependencies
  cases field.type <;> simp

theorem mem_dependencies_of_method {node : Node} (isInterface : node.kind = .interface)
    {method : Method} (member : method ∈ node.methods) {dependency : Dependency}
    (depends : dependency ∈ method.dependencies) : dependency ∈ node.dependencies := by
  refine List.mem_append_right _ ?_
  rw [memberDependencies, isInterface]
  exact List.mem_append_right _ (List.mem_flatMap.mpr ⟨method, member, depends⟩)

theorem mem_dependencies_of_mentions {node : Node} {via : Via} {target : Id}
    (mentioned : node.Mentions via target) :
    ∃ wanted, ⟨via, target, wanted⟩ ∈ node.dependencies := by
  unfold dependencies
  cases mentioned with
  | nested member =>
      exact ⟨none, List.mem_append_left _ (List.mem_map.mpr ⟨target, member, rfl⟩)⟩
  | group isStruct member isGroup =>
      rename_i field
      refine ⟨some .struct, List.mem_append_right _ ?_⟩
      rw [memberDependencies, isStruct]
      refine List.mem_flatMap.mpr ⟨field, member, ?_⟩
      simp [Field.dependencies, isGroup]
  | field isStruct member plain typed mentioned =>
      rename_i field type
      obtain ⟨wanted, inside⟩ := SchemaType.mem_dependencies_of_mentions mentioned
      refine ⟨wanted, List.mem_append_right _ ?_⟩
      rw [memberDependencies, isStruct]
      refine List.mem_flatMap.mpr ⟨field, member, ?_⟩
      rw [Field.dependencies, plain]
      exact mem_type_dependencies_iff.mpr ⟨type, typed, inside⟩
  | superclass isInterface member =>
      refine ⟨some .interface, List.mem_append_right _ ?_⟩
      rw [memberDependencies, isInterface]
      exact List.mem_append_left _ (List.mem_map.mpr ⟨target, member, rfl⟩)
  | param isInterface declared member typed mentioned =>
      rename_i method field type
      obtain ⟨wanted, inside⟩ := SchemaType.mem_dependencies_of_mentions mentioned
      refine ⟨wanted, mem_dependencies_of_method isInterface declared (List.mem_append_left _ ?_)⟩
      exact List.mem_flatMap.mpr ⟨field, member, mem_type_dependencies_iff.mpr ⟨type, typed, inside⟩⟩
  | result isInterface declared member typed mentioned =>
      rename_i method field type
      obtain ⟨wanted, inside⟩ := SchemaType.mem_dependencies_of_mentions mentioned
      refine ⟨wanted, mem_dependencies_of_method isInterface declared (List.mem_append_right _ ?_)⟩
      exact List.mem_flatMap.mpr ⟨field, member, mem_type_dependencies_iff.mpr ⟨type, typed, inside⟩⟩
  | const isConst typed mentioned =>
      obtain ⟨wanted, inside⟩ := SchemaType.mem_dependencies_of_mentions mentioned
      refine ⟨wanted, List.mem_append_right _ ?_⟩
      rw [memberDependencies, isConst]
      simp only [typed]
      exact inside

theorem mentions_of_mem_dependencies {node : Node} {dependency : Dependency}
    (member : dependency ∈ node.dependencies) :
    node.Mentions dependency.via dependency.target := by
  rcases List.mem_append.mp member with inNested | inMembers
  · obtain ⟨target, listed, rfl⟩ := List.mem_map.mp inNested
    exact .nested listed
  · unfold memberDependencies at inMembers
    split at inMembers
    · rename_i isStruct
      obtain ⟨field, listed, inside⟩ := List.mem_flatMap.mp inMembers
      unfold Field.dependencies at inside
      split at inside
      · rename_i isGroup
        cases List.mem_singleton.mp inside
        exact .group isStruct listed isGroup
      · rename_i plain
        obtain ⟨type, typed, deeper⟩ := mem_type_dependencies_iff.mp inside
        exact .field isStruct listed (by simpa using plain) typed
          (SchemaType.mentions_of_mem_dependencies deeper)
    · rename_i isInterface
      rcases List.mem_append.mp inMembers with above | inMethods
      · obtain ⟨target, listed, rfl⟩ := List.mem_map.mp above
        exact .superclass isInterface listed
      · obtain ⟨method, declared, inMethod⟩ := List.mem_flatMap.mp inMethods
        rcases List.mem_append.mp inMethod with inParams | inResults
        · obtain ⟨field, listed, inside⟩ := List.mem_flatMap.mp inParams
          obtain ⟨type, typed, deeper⟩ := mem_type_dependencies_iff.mp inside
          exact .param isInterface declared listed typed
            (SchemaType.mentions_of_mem_dependencies deeper)
        · obtain ⟨field, listed, inside⟩ := List.mem_flatMap.mp inResults
          obtain ⟨type, typed, deeper⟩ := mem_type_dependencies_iff.mp inside
          exact .result isInterface declared listed typed
            (SchemaType.mentions_of_mem_dependencies deeper)
    · rename_i isConst
      split at inMembers
      · cases inMembers
      · rename_i type typed
        exact .const isConst typed (SchemaType.mentions_of_mem_dependencies inMembers)
    · cases inMembers

end Node

theorem Graph.depends_on_iff {graph : Graph} {source target : Id} :
    graph.DependsOn source target ↔
      ∃ node dependency, graph.node? source = some node ∧ dependency ∈ node.dependencies ∧
        dependency.target = target := by
  constructor
  · rintro ⟨node, via, found, mentioned⟩
    obtain ⟨wanted, member⟩ := Node.mem_dependencies_of_mentions mentioned
    exact ⟨node, _, found, member, rfl⟩
  · rintro ⟨node, dependency, found, member, rfl⟩
    exact ⟨node, dependency.via, found, Node.mentions_of_mem_dependencies member⟩

end SchemaStubs
