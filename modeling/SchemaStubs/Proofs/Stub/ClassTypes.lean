import SchemaStubs.Proofs.Stub.Settled
import SchemaStubs.Proofs.Stub.TypeTexts

/-!
The class statements of the nodes of a file. In the stub of a file of a well-scoped schema every node
of the file that has a class has one class statement, at the path that is its identifier, and what
stands there under the names of types depends on the node alone.
-/

namespace SchemaStubs.Stub

open Generation

variable {graph : Graph} {plan : Plan} {registry : Registry} {file node : Node} {marked : List Id}
  {statement : ClassStatement} {declarations : List Declaration}

/-- The bases of the class of a node; the class of a group has none. -/
def classBases (node : Node) : List String :=
  if node.isGroup then []
  else match node.kind with
    | .struct => ["_StructModule"]
    | .enum => ["_EnumModule"]
    | .interface => ["_InterfaceModule"]
    | _ => []

/-- The types that stand in the class of a node. -/
def classTypes (node : Node) : List String :=
  match node.kind with
  | .struct => ["Dict", "Reader", "Builder"]
  | .enum => ["Value"]
  | .interface =>
      ["Client", "Server"] ++ node.methods.flatMap fun method =>
        ["Params", "Result", "CallContext"].map (Text.pascal method.name ++ ·)
  | _ => []

structure ClassOf (graph : Graph) (registry : Registry) (node : Node) (statement : ClassStatement) :
    Prop where
  path : registry.internal? node.id = some statement.path
  name : statement.name = node.segment (Registry.groupName graph node)
  bases : statement.bases = classBases node
  doc : statement.doc = Text.docLines node.doc
  types : ∀ type ∈ classTypes node, type ∈ statement.body.filterMap Declaration.typeName?

theorem Made.classOf (scene : Scene plan registry)
    (made : Made plan registry file marked node statement) :
    ClassOf plan.graph registry node statement := by
  obtain ⟨entries, requested, built⟩ := scene.built
  have groups := Graph.build_groups built node (Graph.mem_of_node? made.found)
  obtain ⟨bound, before, after, standing, returns, _⟩ := made.declares
  obtain ⟨path, name, bases, doc, body⟩ := statement
  obtain ⟨less, rfl, declared⟩ := declare_from_returns returns
  cases declared with
  | struct isStruct begins declares =>
      have kind : node.kind = .struct := isStruct.elim groups id
      obtain ⟨_, _, inner, bodies, _, extra, parts, same⟩ := declare_struct_returns declares
      obtain ⟨_, _, _, _, _, _, _, viewing, _⟩ := parts.made
      obtain ⟨attributes, reader, builder, rfl, _⟩ := views_returns viewing
      obtain ⟨_, rfl, rfl, rfl⟩ := Declaration.class.inj same
      refine ⟨made.path, made.name, ?_, rfl, ?_⟩
      · by_cases isGroup : node.isGroup = true <;> simp [classBases, kind, isGroup]
      · simp [classTypes, kind, List.filterMap_append, Declaration.typeName?]
  | enum single isEnum begins declares =>
      obtain ⟨_, _, _, _, same⟩ := declare_enum_returns declares
      obtain ⟨_, rfl, rfl, rfl⟩ := Declaration.class.inj same
      refine ⟨made.path, made.name, ?_, rfl, ?_⟩
      · simp [classBases, isEnum, single]
      · simp [classTypes, isEnum, Declaration.typeName?]
  | interface single isInterface begins declares =>
      obtain ⟨_, inner, clientBases, serverBases, surfaces, parts, same⟩ :=
        declare_interface_returns declares
      obtain ⟨_, _, _, _, _, _, surfacing⟩ := parts.made
      have surfaced := surfaces_returns surfacing
      obtain ⟨_, rfl, rfl, rfl⟩ := Declaration.class.inj same
      refine ⟨made.path, made.name, ?_, rfl, ?_⟩
      · simp [classBases, isInterface, single]
      · intro type member
        rw [classTypes, isInterface] at member
        rw [List.filterMap_append, List.filterMap_append]
        rcases List.mem_append.mp member with fixed | ofMethod
        · refine List.mem_append_right _ ?_
          simpa [Declaration.typeName?, Interface.newClient] using fixed
        · obtain ⟨method, listed, inMethod⟩ := List.mem_flatMap.mp ofMethod
          obtain ⟨word, isWord, rfl⟩ := List.mem_map.mp inMethod
          exact List.mem_append_left _
            (List.mem_append_right _ (mem_protocol_types surfaced listed isWord))

/-- What stands in the class of a node is emitted behind the identifier of the node. -/
theorem ClassOf.emits (classOf : ClassOf graph registry node statement)
    (member : statement ∈ classesIn "" declarations) (present : statement.path ≠ "") {type : String}
    (listed : type ∈ classTypes node) : Emits declarations (statement.path ++ "." ++ type) := by
  have emitted := emits_part member (classOf.types type listed)
  unfold Registry.qualify at emitted
  rwa [if_neg (by simpa using present)] at emitted

/-- The types of the class of a node are emitted behind a path. -/
def Shaped (declarations : List Declaration) (node : Node) (internal : String) : Prop :=
  ∀ type ∈ classTypes node, Emits declarations (internal ++ "." ++ type)

theorem shown_types_subset (view : View) (node : Node) :
    view.shownTypes node.kind ⊆ classTypes node := by
  unfold classTypes
  cases view <;> cases node.kind <;> simp [View.shownTypes]

theorem body_type_mem (view : View) (isStruct : node.kind = .struct) :
    view.bodyType ∈ classTypes node := by
  rw [classTypes, isStruct]
  cases view <;> simp [View.bodyType]

theorem has_class_of_alias_targets {internal : String} (present : aliasTargets graph node internal ≠ [])
    (groups : node.isGroup = true → node.kind = .struct) : graph.HasClass node := by
  have single : node.kind ≠ .struct → graph.isAnonymousGroup node = false := by
    intro other
    unfold Graph.isAnonymousGroup
    cases isGroup : node.isGroup with
    | false => rfl
    | true => exact absurd (groups isGroup) other
  unfold aliasTargets at present
  split at present
  · rename_i isStruct
    split at present
    · exact absurd rfl present
    · rename_i named
      exact ⟨by rw [isStruct]; rfl, by simpa using named⟩
  · rename_i isEnum
    exact ⟨by rw [isEnum]; rfl, single (by simp [isEnum])⟩
  · rename_i isInterface
    exact ⟨by rw [isInterface]; rfl, single (by simp [isInterface])⟩
  · exact absurd rfl present

theorem alias_target_types {internal target : String} {role : Role}
    (cases : (role, target) ∈ aliasTargets graph node internal ∨
      role = .result ∧ ∃ method ∈ exposedMethods node,
        target = internal ++ "." ++ Text.pascal method.name ++ "Result") :
    ∃ types rest, types ≠ [] ∧ types ⊆ classTypes node ∧
      target = Text.joinWith " | " (types.map (fun type => internal ++ "." ++ type) ++ rest) := by
  -- most targets are one type alone
  have alone : ∀ type, type ∈ classTypes node → target = internal ++ ("." ++ type) →
      ∃ types rest, types ≠ [] ∧ types ⊆ classTypes node ∧
        target = Text.joinWith " | " (types.map (fun type => internal ++ "." ++ type) ++ rest) :=
    fun type ofClass spelled => ⟨[type], [], by simp, by simpa using ofClass,
      spelled.trans String.append_assoc.symm⟩
  rcases cases with listed | ⟨_, method, exposed, spelled⟩
  · unfold aliasTargets at listed
    split at listed
    · rename_i isStruct
      split at listed
      · cases listed
      · simp only [List.mem_cons, Prod.mk.injEq, List.not_mem_nil, or_false] at listed
        rcases listed with ⟨_, spelled⟩ | ⟨_, spelled⟩
        · exact alone "Reader" (by simp [classTypes, isStruct]) spelled
        · exact alone "Builder" (by simp [classTypes, isStruct]) spelled
    · rename_i isEnum
      simp only [List.mem_singleton, Prod.mk.injEq] at listed
      refine ⟨["Value"], ["int"], by simp, by simp [classTypes, isEnum], ?_⟩
      simp [listed.2, Text.joinWith, String.append_assoc]
    · rename_i isInterface
      simp only [List.mem_cons, Prod.mk.injEq, List.not_mem_nil, or_false] at listed
      rcases listed with ⟨_, spelled⟩ | ⟨_, spelled⟩
      · exact alone "Client" (by simp [classTypes, isInterface]) spelled
      · exact alone "Server" (by simp [classTypes, isInterface]) spelled
    · cases listed
  · obtain ⟨isInterface, declared⟩ := mem_exposed_methods.mp exposed
    refine alone (Text.pascal method.name ++ "Result") ?_ (spelled.trans (by simp [String.append_assoc]))
    rw [classTypes, isInterface]
    exact List.mem_append_right _ (List.mem_flatMap.mpr ⟨method, declared, by simp⟩)

section Settled

theorem Settled.class_made (settled : Settled plan registry file marked declarations)
    (scene : Scene plan registry) (found : plan.graph.node? node.id = some node)
    (hasClass : plan.graph.HasClass node) (inFile : plan.graph.file node.id = .ok file) :
    ∃ statement ∈ moduleClasses "" declarations, Made plan registry file marked node statement := by
  obtain ⟨entries, requested, built⟩ := scene.built
  obtain ⟨order, listed, places⟩ := settled.places
  have declared := scene.wellScoped.housed.mem_declaration_order found
    (Graph.kind_ne_file_of_has_module hasClass.1) inFile
  exact Lists.exists_of_mem_left places (Graph.mem_class_nodes_iff.mpr
    ⟨⟨node.id, listed.symm.subset declared, found⟩, hasClass⟩)

theorem Settled.shaped (settled : Settled plan registry file marked declarations)
    (scene : Scene plan registry) (found : plan.graph.node? node.id = some node)
    (hasClass : plan.graph.HasClass node) (inFile : plan.graph.file node.id = .ok file) :
    ∃ internal, registry.internal? node.id = some internal ∧ Shaped declarations node internal := by
  obtain ⟨statement, member, made⟩ := settled.class_made scene found hasClass inFile
  have present : statement.path ≠ "" :=
    (scene.identifies found made.path).ne_empty_of_class hasClass
  refine ⟨statement.path, made.path, fun type listed => ?_⟩
  exact (made.classOf scene).emits (List.mem_of_mem_filter member) present listed

theorem Settled.drew (settled : Settled plan registry file marked declarations)
    (scene : Scene plan registry) : Drew plan registry file marked where
  top := settled.top
  classes node found hasClass inFile := by
    obtain ⟨_, _, made⟩ := settled.class_made scene found hasClass inFile
    exact made.took

theorem Settled.classes (settled : Settled plan registry file marked declarations)
    (scene : Scene plan registry) (found : plan.graph.node? file.id = some file)
    (isFile : file.kind = .file) :
    ∃ owners : List Node, owners.Nodup ∧
      (∀ node, node ∈ owners ↔ plan.graph.node? node.id = some node ∧ plan.graph.HasClass node ∧
        plan.graph.file node.id = .ok file) ∧
      List.Forall₂ (Made plan registry file marked) owners (moduleClasses "" declarations) := by
  obtain ⟨entries, requested, built⟩ := scene.built
  obtain ⟨order, listed, places⟩ := settled.places
  have distinct : order.Nodup := listed.nodup_iff.mpr
    (nodup_declaration_order (scene.wellScoped.forest built) found isFile)
  refine ⟨plan.graph.classNodes order, ?_, fun node => ⟨fun member => ?_, ?_⟩, places⟩
  · exact (List.Nodup.of_map _ ((filterMap_node?_sublist plan.graph order).nodup distinct)).filter _
  · obtain ⟨⟨id, inOrder, nodeFound⟩, hasClass⟩ := Graph.mem_class_nodes_iff.mp member
    have sameId := Graph.id_of_node? nodeFound
    refine ⟨sameId ▸ nodeFound, hasClass, ?_⟩
    rw [sameId]
    exact declarations_from_file scene.wellScoped built found (.file isFile) (listed.subset inOrder)
  · rintro ⟨nodeFound, hasClass, inFile⟩
    have declared := scene.wellScoped.housed.mem_declaration_order nodeFound
      (Graph.kind_ne_file_of_has_module hasClass.1) inFile
    exact Graph.mem_class_nodes_iff.mpr ⟨⟨node.id, listed.symm.subset declared, nodeFound⟩, hasClass⟩

end Settled

end SchemaStubs.Stub
