import SchemaStubs.Proofs.Step
import SchemaStubs.Stub.Generation

/-!
What declarations are put together from. A declaration that came out is read back as the steps that
made it, one lemma for each kind of node.
-/

namespace SchemaStubs.Stub

theorem internal_of_returns {node : Node} {before after : Draft} {internal : String}
    (returns : (Draft.internalOf node).Returns before internal after) :
    before = after ∧ before.registry.internal? node.id = some internal ∧ internal ≠ "" := by
  unfold Draft.internalOf at returns
  rw [Step.Returns.bind_iff] at returns
  obtain ⟨_, _, got, returns⟩ := returns
  obtain ⟨rfl, rfl⟩ := Step.Returns.get_iff.mp got
  split at returns
  · rename_i known
    split at returns
    · exact (Step.Returns.fail_iff.mp returns).elim
    · rename_i present
      obtain ⟨rfl, same⟩ := Step.Returns.pure_iff.mp returns
      exact ⟨same, known, by simpa using present⟩
  · exact (Step.Returns.fail_iff.mp returns).elim

/-- What the class of a struct or of a group holds besides its views. -/
structure StructParts (plan : Plan) (nested body : Node → Step Draft (List Declaration))
    (node : Node) (before after : Draft) (internal : String) (members : List Member)
    (inner groups views extra : List Declaration) : Prop where
  identified : before.registry.internal? node.id = some internal
  present : internal ≠ ""
  flattened : Member.ofNode plan.graph node = .ok members
  made : ∃ marked nestedDone groupsDone viewed,
    (Draft.inRegistry (Registry.markDeclared node.id)).Returns before () marked ∧
    (if node.isGroup then inner = [] ∧ nestedDone = marked
      else (nested node).Returns marked inner nestedDone) ∧
    (∃ blocks, ((members.filterMap Member.group).mapM body).Returns nestedDone blocks groupsDone ∧
      groups = blocks.flatten) ∧
    (Struct.views plan node internal members).Returns groupsDone views viewed ∧
    if node.isGroup then extra = [] ∧ after = viewed
    else ∃ message, (Struct.newMessage plan internal members).Returns viewed message after ∧
      extra = [message, Struct.fromBytes internal, Struct.readFile internal]

theorem declare_struct_returns {plan : Plan} {nested body : Node → Step Draft (List Declaration)}
    {node : Node} {before after : Draft} {declaration : Declaration}
    (returns : (Struct.declare plan nested body node).Returns before declaration after) :
    ∃ internal members inner groups views extra,
      StructParts plan nested body node before after internal members inner groups views extra ∧
      declaration = .class (className internal) (if node.isGroup then [] else ["_StructModule"])
        (Text.docLines node.doc) (inner ++ groups ++ views ++ extra) := by
  unfold Struct.declare at returns
  rw [Step.Returns.bind_iff] at returns
  obtain ⟨internal, _, first, returns⟩ := returns
  obtain ⟨rfl, identified, present⟩ := internal_of_returns first
  simp only [Step.Returns.bind_iff, Step.Returns.of_except_iff] at returns
  obtain ⟨_, marked, marks, members, _, ⟨flattened, rfl⟩, returns⟩ := returns
  -- what a group and what a struct do differently stands on both sides of the common part
  by_cases isGroup : node.isGroup = true
  · rw [if_pos isGroup] at returns
    simp only [Step.Returns.bind_iff, Step.Returns.pure_iff] at returns
    obtain ⟨_, _, ⟨rfl, rfl⟩, blocks, grouped, groups, views, viewed, viewing, returns⟩ := returns
    rw [if_pos isGroup] at returns
    obtain ⟨rfl, rfl⟩ := Step.Returns.pure_iff.mp returns
    refine ⟨internal, members, [], blocks.flatten, views, [], ⟨identified, present, flattened,
      marked, marked, grouped, viewed, marks, ?_, ⟨blocks, groups, rfl⟩, viewing, ?_⟩, ?_⟩
    all_goals simp [isGroup]
  · rw [if_neg isGroup] at returns
    simp only [Step.Returns.bind_iff] at returns
    obtain ⟨inner, nestedDone, nests, blocks, grouped, groups, views, viewed, viewing, returns⟩ :=
      returns
    rw [if_neg isGroup] at returns
    simp only [Step.Returns.bind_iff, Step.Returns.pure_iff] at returns
    obtain ⟨message, _, messages, rfl, rfl⟩ := returns
    refine ⟨internal, members, inner, blocks.flatten, views,
      [message, Struct.fromBytes internal, Struct.readFile internal], ⟨identified, present, flattened,
      marked, nestedDone, grouped, viewed, marks, ?_, ⟨blocks, groups, rfl⟩, viewing, ?_⟩, ?_⟩
    · simp [isGroup, nests]
    · rw [if_neg isGroup]
      exact ⟨message, messages, rfl⟩
    · simp [isGroup]

theorem declare_enum_returns {node : Node} {before after : Draft} {declaration : Declaration}
    (returns : (Enum.declare node).Returns before declaration after) :
    ∃ internal, before.registry.internal? node.id = some internal ∧ internal ≠ "" ∧
      (Draft.inRegistry (Registry.markDeclared node.id)).Returns before () after ∧
      declaration = .class (className internal) ["_EnumModule"] (Text.docLines node.doc)
        (.typeAlias "Value" (literal node.enumerants) ::
          node.enumerants.map fun name => .annotated (safeName name) "int") := by
  unfold Enum.declare at returns
  split at returns
  · exact (Step.Returns.fail_iff.mp returns).elim
  · simp only [Step.Returns.bind_iff] at returns
    obtain ⟨internal, _, first, _, marked, marks, last⟩ := returns
    obtain ⟨rfl, identified, present⟩ := internal_of_returns first
    obtain ⟨rfl, rfl⟩ := Step.Returns.pure_iff.mp last
    exact ⟨internal, identified, present, marks, rfl⟩

structure InterfaceParts (plan : Plan) (nested : Node → Step Draft (List Declaration))
    (node : Node) (before after : Draft) (internal : String) (inner : List Declaration)
    (clientBases serverBases : List String) (surfaces : List Interface.Surface) : Prop where
  identified : before.registry.internal? node.id = some internal
  present : internal ≠ ""
  made : ∃ marked nestedDone based,
    (Draft.inRegistry (Registry.markDeclared node.id)).Returns before () marked ∧
    (nested node).Returns marked inner nestedDone ∧
    (Interface.bases plan node).Returns nestedDone (clientBases, serverBases) based ∧
    (Interface.surfaces plan node internal [] node.methods).Returns based surfaces after

theorem declare_interface_returns {plan : Plan} {nested : Node → Step Draft (List Declaration)}
    {node : Node} {before after : Draft} {declaration : Declaration}
    (returns : (Interface.declare plan nested node).Returns before declaration after) :
    ∃ internal inner clientBases serverBases surfaces,
      InterfaceParts plan nested node before after internal inner clientBases serverBases surfaces ∧
      declaration = .class (className internal) ["_InterfaceModule"] (Text.docLines node.doc)
        (inner ++ surfaces.flatMap Interface.Surface.protocols ++
          [.class "Client" clientBases [] (surfaces.map Interface.Surface.client),
            .class "Server" serverBases [] (surfaces.flatMap Interface.Surface.server),
            Interface.newClient internal]) := by
  unfold Interface.declare at returns
  simp only [Step.Returns.bind_iff] at returns
  obtain ⟨internal, _, first, _, marked, marks, inner, nestedDone, nests, ⟨clientBases, serverBases⟩,
    based, bases, surfaces, _, surfacing, last⟩ := returns
  obtain ⟨rfl, identified, present⟩ := internal_of_returns first
  obtain ⟨rfl, rfl⟩ := Step.Returns.pure_iff.mp last
  exact ⟨internal, inner, clientBases, serverBases, surfaces,
    ⟨identified, present, marked, nestedDone, based, marks, nests, bases, surfacing⟩, rfl⟩

/-- The state in which the declaration of a node begins: the journal tells of it unless the node is a
group. -/
def Begins (node : Node) (before start : Draft) : Prop :=
  node.isGroup = true ∧ start = before ∨
    node.isGroup = false ∧
      (Draft.note (.nodeDrafted node.id node.kind node.name)).Returns before () start

/-- What a node is declared as, given how the nodes inside it are. -/
inductive DeclaredAs (plan : Plan) (declare : Node → Step Draft (List Declaration)) (node : Node)
    (before : Draft) : List Declaration → Draft → Prop where
  | struct {start after : Draft} {declaration : Declaration}
      (isStruct : node.isGroup = true ∨ node.kind = .struct) (begins : Begins node before start)
      (declares : (Struct.declare plan (nestedDeclarations plan declare) declare node).Returns start
        declaration after) : DeclaredAs plan declare node before [declaration] after
  | enum {start after : Draft} {declaration : Declaration} (single : node.isGroup = false)
      (isEnum : node.kind = .enum) (begins : Begins node before start)
      (declares : (Enum.declare node).Returns start declaration after) :
      DeclaredAs plan declare node before [declaration] after
  | interface {start after : Draft} {declaration : Declaration} (single : node.isGroup = false)
      (isInterface : node.kind = .interface) (begins : Begins node before start)
      (declares : (Interface.declare plan (nestedDeclarations plan declare) node).Returns start
        declaration after) : DeclaredAs plan declare node before [declaration] after
  | const {start after : Draft} {type : String} (single : node.isGroup = false)
      (isConst : node.kind = .const) (begins : Begins node before start)
      (typed : (Draft.typeText plan .reader node.constType).Returns start type after) :
      DeclaredAs plan declare node before [.annotated (safeName node.name) type] after
  | nothing {start : Draft} (single : node.isGroup = false)
      (unseen : node.kind = .annotationDecl) (begins : Begins node before start) :
      DeclaredAs plan declare node before [] start

theorem declare_from_returns {plan : Plan} {bound : Nat} {node : Node} {before after : Draft}
    {declarations : List Declaration}
    (returns : (declareFrom plan bound node).Returns before declarations after) :
    ∃ less, bound = less + 1 ∧
      DeclaredAs plan (declareFrom plan less) node before declarations after := by
  cases bound with
  | zero => exact (Step.Returns.fail_iff.mp returns).elim
  | succ less =>
      refine ⟨less, rfl, ?_⟩
      unfold declareFrom at returns
      dsimp only at returns
      split at returns
      · rename_i isGroup
        rw [Step.Returns.bind_iff] at returns
        obtain ⟨declaration, _, declares, last⟩ := returns
        obtain ⟨rfl, rfl⟩ := Step.Returns.pure_iff.mp last
        exact .struct (.inl isGroup) (.inl ⟨isGroup, rfl⟩) declares
      · rename_i notGroup
        have single : node.isGroup = false := by simpa using notGroup
        unfold declareKind at returns
        rw [Step.Returns.bind_iff] at returns
        obtain ⟨_, start, notes, returns⟩ := returns
        have begins : Begins node before start := .inr ⟨single, notes⟩
        split at returns
        · rename_i isStruct
          rw [Step.Returns.bind_iff] at returns
          obtain ⟨declaration, _, declares, last⟩ := returns
          obtain ⟨rfl, rfl⟩ := Step.Returns.pure_iff.mp last
          exact .struct (.inr isStruct) begins declares
        · rename_i isEnum
          rw [Step.Returns.bind_iff] at returns
          obtain ⟨declaration, _, declares, last⟩ := returns
          obtain ⟨rfl, rfl⟩ := Step.Returns.pure_iff.mp last
          exact .enum single isEnum begins declares
        · rename_i isInterface
          rw [Step.Returns.bind_iff] at returns
          obtain ⟨declaration, _, declares, last⟩ := returns
          obtain ⟨rfl, rfl⟩ := Step.Returns.pure_iff.mp last
          exact .interface single isInterface begins declares
        · rename_i isConst
          unfold constant at returns
          simp only [Step.Returns.bind_iff, Step.Returns.pure_iff] at returns
          obtain ⟨_, _, ⟨type, _, typed, rfl, rfl⟩, rfl, rfl⟩ := returns
          exact .const single isConst begins typed
        · rename_i unseen
          obtain ⟨rfl, rfl⟩ := Step.Returns.pure_iff.mp returns
          exact .nothing single unseen begins
        · exact (Step.Returns.fail_iff.mp returns).elim
        · exact (Step.Returns.fail_iff.mp returns).elim

theorem declare_node_returns {plan : Plan} {node : Node} {before after : Draft}
    {declarations : List Declaration}
    (returns : (declareNode plan node).Returns before declarations after) :
    node.isGroup = false ∧
      (declareFrom plan (plan.graph.size + 1) node).Returns before declarations after := by
  unfold declareNode at returns
  split at returns
  · rw [Step.Returns.bind_iff] at returns
    obtain ⟨_, _, _, failed⟩ := returns
    exact (Step.Returns.fail_iff.mp failed).elim
  · rename_i notGroup
    exact ⟨by simpa using notGroup, returns⟩

theorem declare_top_level_returns {plan : Plan} {node : Node} {before after : Draft}
    {block : List Declaration} (returns : (declareTopLevel plan node).Returns before block after) :
    ∃ declarations middle blocks, (declareNode plan node).Returns before declarations middle ∧
      (declarations.mapM (bindTopLevel node)).Returns middle blocks after ∧ block = blocks.flatten := by
  unfold declareTopLevel at returns
  simp only [Step.Returns.bind_iff] at returns
  obtain ⟨declarations, middle, declares, blocks, _, binds, last⟩ := returns
  obtain ⟨rfl, rfl⟩ := Step.Returns.pure_iff.mp last
  exact ⟨declarations, middle, blocks, declares, binds, rfl⟩

theorem declare_any_pointer_returns {plan : Plan} {before after : Draft} {declaration : Declaration}
    (returns : (AnyPointer.declare plan).Returns before declaration after) :
    ∃ bases doc body, declaration = .class anyPointerClass bases doc body := by
  unfold AnyPointer.declare at returns
  simp only [Step.Returns.bind_iff, Step.Returns.pure_iff] at returns
  obtain ⟨_, _, _, rfl, _⟩ := returns
  exact ⟨_, _, _, rfl⟩

/-- What stands behind the top level of a file: the class for pointers to anything, just if the draft
asks for it. -/
inductive Appended (plan : Plan) (owner : Id) (reached : Draft) : List Declaration → Draft → Prop where
  | pointers {bound after : Draft} {declaration : Declaration}
      (asked : reached.usesAnyPointer = true)
      (binds : (Draft.bind anyPointerClass owner).Returns reached () bound)
      (declares : (AnyPointer.declare plan).Returns bound declaration after) :
      Appended plan owner reached [declaration] after
  | nothing (unasked : reached.usesAnyPointer = false) : Appended plan owner reached [] reached

theorem declare_file_returns {plan : Plan} {before after : Draft} {declarations : List Declaration}
    (returns : (declareFile plan).Returns before declarations after) :
    ∃ blocks reached extra,
      ((topLevelNodes plan before.file.id).mapM (declareTopLevel plan)).Returns before blocks reached ∧
      Appended plan before.file.id reached extra after ∧ declarations = blocks.flatten ++ extra := by
  unfold declareFile at returns
  simp only [Step.Returns.bind_iff, Step.Returns.get_iff] at returns
  obtain ⟨_, _, ⟨rfl, rfl⟩, blocks, reached, declares, _, _, ⟨rfl, rfl⟩, returns⟩ := returns
  split at returns
  · rename_i asked
    simp only [Step.Returns.bind_iff] at returns
    obtain ⟨_, middle, binds, anyPointer, _, declaresAny, last⟩ := returns
    obtain ⟨rfl, rfl⟩ := Step.Returns.pure_iff.mp last
    exact ⟨blocks, reached, [anyPointer], declares, .pointers asked binds declaresAny, rfl⟩
  · rename_i unasked
    obtain ⟨rfl, rfl⟩ := Step.Returns.pure_iff.mp returns
    exact ⟨blocks, reached, [], declares, .nothing (by simpa using unasked),
      (List.append_nil _).symm⟩

/-- The text of a stub is composed by finding its declarations and laying them out. -/
theorem compose_iff {plan : Plan} {file : Node} {before after : Draft} {content : String} :
    (Generation.compose plan file).Returns before content after ↔
      ∃ declarations declared, (declareFile plan).Returns before declarations declared ∧
        (layOut plan declarations).Returns declared content after := by
  simp only [Generation.compose, Step.Returns.bind_iff, Step.Returns.in_context_iff]

end SchemaStubs.Stub
