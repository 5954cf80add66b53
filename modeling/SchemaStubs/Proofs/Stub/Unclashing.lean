import SchemaStubs.Proofs.Stub.Bodies

/-!
Schemas whose names keep clear of each other in a stub, and the class bodies of such schemas. In the
class of a node stand the classes and constants for what is nested in it, and behind them parts with
fixed names; class names end with a word that no fixed part ends with.
-/

namespace SchemaStubs

namespace Graph

open Stub

def IsWord (name : String) : Prop :=
  name.toList.all Text.isIdentifierChar = true

instance (name : String) : Decidable (IsWord name) :=
  inferInstanceAs (Decidable (_ = _))

structure PlainNames (graph : Graph) : Prop where
  nodes : ∀ node ∈ graph.nodes, node.kind ≠ .file → IsWord node.name
  fields : ∀ node ∈ graph.nodes, ∀ field ∈ node.fields, IsWord field.name
  arguments : ∀ node ∈ graph.nodes, ∀ method ∈ node.methods,
    ∀ field ∈ method.params ++ method.results, IsWord field.name

def classNames (graph : Graph) : List String :=
  graph.nodes.map fun node => node.segment (Registry.groupName graph node)

end Graph

def Node.constantName (node : Node) : List String :=
  if node.kind = .const then [Stub.safeName node.name] else []

def Graph.constantNames (graph : Graph) (node : Node) : List String :=
  (node.nested.filterMap graph.node?).flatMap Node.constantName

/-- The fixed names in the class of a node, and those of the protocols of its methods. -/
def Node.partNames (node : Node) : List String :=
  match node.kind with
  | .struct => ["Dict", "Reader", "Builder", "new_message", "from_bytes", "read"]
  | .interface =>
      node.methods.flatMap Stub.protocolNames ++ ["Client", "Server", "_new_client"]
  | _ => []

open Stub in
/-- The names of a schema keep clear of each other where escaping keywords can bring them together, and
of the fixed names of a stub. -/
structure Graph.Unclashing (graph : Graph) : Prop where
  members : ∀ node ∈ graph.nodes, ∀ members, Member.ofNode graph node = .ok members →
    (∀ one ∈ members, ∀ two ∈ members, one.name = two.name → one.field.name = two.field.name) ∧
      ∀ member ∈ members, member.name ∉ viewNames node
  enumerants : ∀ node ∈ graph.nodes, node.kind = .enum → Free ["Value"] (node.enumerants.map safeName)
  arguments : ∀ node ∈ graph.nodes, node.kind = .interface → ∀ method ∈ node.methods,
    Free ["self", "_context", "kwargs"] (method.params.map shownName) ∧
      (method.results.map shownName).Nodup
  contexts : ∀ node ∈ graph.nodes, node.kind = .interface → ∀ one ∈ node.methods,
    ∀ two ∈ node.methods, one.name ≠ two.name ++ "_context"
  constants : ∀ node ∈ graph.nodes, node.kind ≠ .file →
    Free (node.partNames ++ graph.classNames) (graph.constantNames node)

namespace Graph

open Stub

theorem IsWord.not_mem {name : String} (word : IsWord name) {c : Char}
    (other : Text.isIdentifierChar c = false) : c ∉ name.toList := by
  intro member
  rw [List.all_eq_true.mp word c member] at other
  cases other

theorem PlainNames.undotted {graph : Graph} (plain : graph.PlainNames) : graph.Undotted :=
  fun node member => ⟨fun inner => (plain.nodes node member inner).not_mem (by decide),
    fun field listed => (plain.fields node member field listed).not_mem (by decide)⟩

theorem IsWord.starless {name : String} (word : IsWord name) : Starless name :=
  word.not_mem (by decide)

theorem Identifies.class_name_mem {graph : Graph} (undotted : graph.Undotted) {node : Node}
    {internal : String} (identified : graph.Identifies node internal) (member : node ∈ graph.nodes)
    (present : internal ≠ "") :
    className internal ∈ graph.classNames ∧ Text.endsWith moduleWord (className internal) = true := by
  have named : ∀ node ∈ graph.nodes, node.kind.hasModule = true →
      node.segment (Registry.groupName graph node) ∈ graph.classNames ∧
        Text.endsWith moduleWord (node.segment (Registry.groupName graph node)) = true ∧
        '.' ∉ (node.segment (Registry.groupName graph node)).toList :=
    fun node member module => ⟨List.mem_map_of_mem member, node.segment_ends_with _,
      undotted.segment member (kind_ne_file_of_has_module module)⟩
  induction identified with
  | plain _ => exact absurd rfl present
  | flattened _ _ found _ induction => exact induction (mem_of_node? found) present
  | top module _ _ _ =>
      obtain ⟨listed, ends, plain⟩ := named _ member module
      unfold className
      rw [Text.after_last_eq_self plain]
      exact ⟨listed, ends⟩
  | inner module _ _ _ _ =>
      obtain ⟨listed, ends, plain⟩ := named _ member module
      unfold className
      rw [Registry.after_last_qualify plain]
      exact ⟨listed, ends⟩

end Graph

namespace Stub

/-- Members are told apart by their own names, and a schema sees to it that escaping keeps them apart. -/
theorem nodup_members {graph : Graph} {bound : Nat} {node : Node} {members : List Member}
    (flattened : Member.ofNodeFrom graph bound node = .ok members)
    (kept : ∀ one ∈ members, ∀ two ∈ members, one.name = two.name →
      one.field.name = two.field.name) : (members.map Member.name).Nodup := by
  have distinct := nodup_field_names flattened
  refine List.Nodup.map_on (fun one inOne two inTwo same => ?_) (List.Nodup.of_map _ distinct)
  exact List.inj_on_of_nodup_map distinct inOne inTwo (kept one inOne two inTwo same)

/-- What a node becomes in the class around it: at most one statement, a class or a constant. -/
inductive Becomes (graph : Graph) (node : Node) : List Declaration → Prop where
  | nothing : Becomes graph node []
  | class {name : String} {bases doc : List String} {body : List Declaration}
      (listed : name ∈ graph.classNames) (ends : Text.endsWith moduleWord name = true)
      (nearly : (Declaration.class name bases doc body).NearlyApart) :
      Becomes graph node [.class name bases doc body]
  | constant {type : String} (isConst : node.kind = .const) :
      Becomes graph node [.annotated (safeName node.name) type]

/-- The statements in a class that stand for other nodes: classes, and constants of given names. -/
structure Encloses (graph : Graph) (constants : List String) (declarations : List Declaration) :
    Prop where
  apart : declarations.Pairwise fun one two => one.name = two.name → one.MayShare two
  named : ∀ declaration ∈ declarations, declaration.isModuleClass = true ∧
      declaration.name ∈ graph.classNames ∨ declaration.name ∈ constants
  inner : ∀ declaration ∈ declarations, declaration.NearlyApart

section Enclosing

variable {graph : Graph} {constants others : List String} {one two : List Declaration}

theorem Encloses.nil : Encloses graph constants [] :=
  ⟨.nil, by simp, by simp⟩

theorem Encloses.append (first : Encloses graph constants one) (second : Encloses graph others two)
    (free : Free graph.classNames (constants ++ others)) :
    Encloses graph (constants ++ others) (one ++ two) where
  apart := by
    refine List.pairwise_append.mpr ⟨first.apart, second.apart, fun front inOne back inTwo same => ?_⟩
    have disjoint := (List.nodup_append.mp free.1).2.2
    rcases first.named front inOne with frontClass | frontConstant
    · rcases second.named back inTwo with backClass | backConstant
      · exact .inr ⟨frontClass.1, backClass.1⟩
      · exact absurd (same ▸ frontClass.2) (free.2 _ (List.mem_append_right _ backConstant))
    · rcases second.named back inTwo with backClass | backConstant
      · exact absurd (same.symm ▸ backClass.2) (free.2 _ (List.mem_append_left _ frontConstant))
      · exact absurd same (disjoint _ frontConstant _ backConstant)
  named := by
    refine List.forall_mem_append.mpr ⟨fun front listed => ?_, fun back listed => ?_⟩
    · exact (first.named front listed).imp id (List.mem_append_left _)
    · exact (second.named back listed).imp id (List.mem_append_right _)
  inner := List.forall_mem_append.mpr ⟨first.inner, second.inner⟩

theorem Becomes.encloses {node : Node} {block : List Declaration} (becomes : Becomes graph node block) :
    Encloses graph node.constantName block := by
  cases becomes with
  | nothing => exact .nil
  | «class» listed ends nearly =>
      refine ⟨List.pairwise_singleton _ _, ?_, List.forall_mem_singleton.mpr nearly⟩
      exact List.forall_mem_singleton.mpr (.inl ⟨ends, listed⟩)
  | constant isConst =>
      refine ⟨List.pairwise_singleton _ _, ?_, List.forall_mem_singleton.mpr .annotated⟩
      refine List.forall_mem_singleton.mpr (.inr ?_)
      rw [Node.constantName, if_pos isConst]
      exact List.mem_singleton_self _

theorem Encloses.flatten {nodes : List Node} {blocks : List (List Declaration)}
    (each : List.Forall₂ (Becomes graph) nodes blocks)
    (free : Free graph.classNames (nodes.flatMap Node.constantName)) :
    Encloses graph (nodes.flatMap Node.constantName) blocks.flatten := by
  induction each with
  | nil => exact .nil
  | @cons node block nodes blocks first _ induction =>
      rw [List.flatMap_cons] at free ⊢
      refine first.encloses.append (induction ?_) free
      exact ⟨(List.nodup_append.mp free.1).2.1, fun name listed =>
        free.2 name (List.mem_append_right _ listed)⟩

/-- The body of a class: what stands for other nodes, and the fixed parts. -/
theorem Encloses.body {names : List String} {parts : List Declaration}
    (encloses : Encloses graph constants one) (own : NamedWithin names parts)
    (classless : ∀ name ∈ names, Text.endsWith moduleWord name = false)
    (free : ∀ name ∈ constants, name ∉ names) :
    (one ++ parts).Pairwise fun one two => one.name = two.name → one.MayShare two := by
  refine List.pairwise_append.mpr ⟨encloses.apart, own.apart, fun front inFront back inBack same => ?_⟩
  have isPart := own.within back inBack
  rw [← same] at isPart
  rcases encloses.named front inFront with ⟨module, _⟩ | constant
  · have ends : Text.endsWith moduleWord front.name = true := by
      cases front with
      | «class» => exact module
      | method => cases module
      | annotated => cases module
      | typeAlias => cases module
    rw [classless _ isPart] at ends
    cases ends
  · exact absurd isPart (free _ constant)

end Enclosing

end Stub

end SchemaStubs
