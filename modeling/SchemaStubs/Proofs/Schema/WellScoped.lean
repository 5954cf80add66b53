import SchemaStubs.Proofs.Lists
import SchemaStubs.Proofs.Naming.Identifier
import SchemaStubs.Stub.PublicNames

/-!
Graphs whose declarations form a forest under their files. In such a graph a declaration stands in
one place, that place is its scope, and everything declared under a file belongs to that file.
-/

namespace SchemaStubs

def Node.groupBodies (node : Node) : List Id :=
  (node.fields.filter Field.isGroup).map Field.group

/-- What stands directly under a node: its nested declarations and the bodies of its groups. -/
def Node.children (node : Node) : List Id :=
  node.nested ++ node.groupBodies

namespace Graph

instance (graph : Graph) (id : Id) (holds : Node → Prop) [DecidablePred holds] :
    Decidable (∃ node, graph.node? id = some node ∧ holds node) :=
  inferInstanceAs (Decidable (∃ node ∈ graph.node? id, holds node))

/-- Every declaration occurs once under its scope, a group as the body of a field and any other as
a nested declaration; only structs have fields, groups nest nothing, and scopes lead to files. -/
structure WellScoped (graph : Graph) : Prop where
  once : ∀ node ∈ graph.nodes, node.kind ≠ .file →
    (graph.nodes.flatMap Node.children).count node.id = 1
  inScope : ∀ node ∈ graph.nodes, node.kind ≠ .file → ∃ scope, graph.node? node.scope = some scope ∧
    if node.isGroup then scope.kind = .struct ∧ node.id ∈ scope.groupBodies
    else node.id ∈ scope.nested
  fields : ∀ node ∈ graph.nodes, node.kind ≠ .struct → node.fields = []
  groups : ∀ node ∈ graph.nodes, node.isGroup = true → node.nested = []
  ends : graph.ScopesEnd

instance (graph : Graph) : Decidable graph.WellScoped :=
  decidable_of_iff
    ((∀ node ∈ graph.nodes, node.kind ≠ .file →
        (graph.nodes.flatMap Node.children).count node.id = 1) ∧
      (∀ node ∈ graph.nodes, node.kind ≠ .file →
        ∃ scope, graph.node? node.scope = some scope ∧
          if node.isGroup then scope.kind = .struct ∧ node.id ∈ scope.groupBodies
          else node.id ∈ scope.nested) ∧
      (∀ node ∈ graph.nodes, node.kind ≠ .struct → node.fields = []) ∧
      (∀ node ∈ graph.nodes, node.isGroup = true → node.nested = []) ∧ graph.ScopesEnd)
    ⟨fun ⟨once, inScope, fields, groups, ends⟩ => ⟨once, inScope, fields, groups, ends⟩,
      fun wellScoped => ⟨wellScoped.once, wellScoped.inScope, wellScoped.fields, wellScoped.groups,
        wellScoped.ends⟩⟩

theorem WellScoped.isStruct {graph : Graph} (wellScoped : graph.WellScoped) {node : Node}
    (member : node ∈ graph.nodes) {field : Field} (listed : field ∈ node.fields) :
    node.kind = .struct := by
  by_contra other
  rw [wellScoped.fields node member other] at listed
  cases listed

theorem WellScoped.congr {one two : Graph} (same : one.nodes = two.nodes)
    (wellScoped : one.WellScoped) : two.WellScoped where
  once := by
    rw [← same]
    exact wellScoped.once
  inScope := by
    rw [← same]
    intro node member inner
    obtain ⟨scope, found, place⟩ := wellScoped.inScope node member inner
    exact ⟨scope, node?_congr same _ ▸ found, place⟩
  fields := by
    rw [← same]
    exact wellScoped.fields
  groups := by
    rw [← same]
    exact wellScoped.groups
  ends := wellScoped.ends.congr same

/-- Every declaration is listed under its scope, as a nested declaration or, in a struct, as the body
of a group field. -/
def Housed (graph : Graph) : Prop :=
  ∀ node ∈ graph.nodes, node.kind ≠ .file → ∃ scope, graph.node? node.scope = some scope ∧
    (node.id ∈ scope.nested ∨ scope.kind = .struct ∧ node.id ∈ scope.groupBodies)

instance (graph : Graph) : Decidable graph.Housed :=
  inferInstanceAs (Decidable (∀ node ∈ graph.nodes, _))

theorem WellScoped.housed {graph : Graph} (wellScoped : graph.WellScoped) : graph.Housed := by
  intro node member inner
  obtain ⟨scope, found, place⟩ := wellScoped.inScope node member inner
  refine ⟨scope, found, ?_⟩
  split at place
  · exact .inr place
  · exact .inl place

theorem Housed.congr {one two : Graph} (same : one.nodes = two.nodes) (housed : one.Housed) :
    two.Housed := by
  intro node member inner
  obtain ⟨scope, found, place⟩ := housed node (same ▸ member) inner
  exact ⟨scope, node?_congr same _ ▸ found, place⟩

theorem Housed.child {graph : Graph} (housed : graph.Housed) {node scope : Node}
    (member : node ∈ graph.nodes) (inner : node.kind ≠ .file)
    (found : graph.node? node.scope = some scope) : node.id ∈ scope.children := by
  obtain ⟨other, isScope, place⟩ := housed node member inner
  rw [found] at isScope
  cases isScope
  rcases place with nested | ⟨_, body⟩
  · exact List.mem_append_left _ nested
  · exact List.mem_append_right _ body

theorem Housed.depends {graph : Graph} (housed : graph.Housed) {node scope : Node}
    (member : node ∈ graph.nodes) (inner : node.kind ≠ .file)
    (found : graph.node? node.scope = some scope) :
    ∃ dependency ∈ scope.dependencies, dependency.target = node.id := by
  obtain ⟨other, isScope, place⟩ := housed node member inner
  rw [found] at isScope
  cases isScope
  rcases place with nested | ⟨isStruct, body⟩
  · exact ⟨_, List.mem_append_left _ (List.mem_map_of_mem nested), rfl⟩
  · obtain ⟨field, filtered, isBody⟩ := List.mem_map.mp body
    obtain ⟨listed, isGroup⟩ := List.mem_filter.mp filtered
    refine ⟨⟨.group, field.group, some .struct⟩, List.mem_append_right _ ?_, isBody⟩
    rw [Node.memberDependencies, isStruct]
    exact List.mem_flatMap.mpr ⟨field, listed, by simp [Field.dependencies, isGroup]⟩

theorem WellScoped.child {graph : Graph} (wellScoped : graph.WellScoped)
    {entries : List (Option Node)} {requested : List Id}
    (built : build entries requested = .ok graph) {parent : Node} {id : Id}
    (member : parent ∈ graph.nodes) (under : id ∈ parent.children) :
    ∃ node, graph.node? id = some node ∧ node.kind ≠ .file ∧
      graph.node? node.scope = some parent := by
  have distinct := build_distinct built
  have checks := (build_ok built).2.2.2.2
  obtain ⟨_, _, nested, members⟩ := Node.check_ok (checks parent member)
  have parentFound := node?_of_mem distinct member
  rcases List.mem_append.mp under with inNested | inGroups
  · obtain ⟨node, found, inside⟩ := Node.check_nested_ok (nested id inNested)
    refine ⟨node, found, ?_, inside ▸ parentFound⟩
    intro isFile
    have scopeless := Node.check_scope_file (Node.check_ok (checks node (mem_of_node? found))).1 isFile
    exact build_nonzero built parent member (by rw [← inside, scopeless])
  · obtain ⟨field, filtered, rfl⟩ := List.mem_map.mp inGroups
    obtain ⟨listed, isGroup⟩ := List.mem_filter.mp filtered
    have isStruct := wellScoped.isStruct member listed
    obtain ⟨node, found, bodyStruct, bodyGroup⟩ :=
      Node.check_members_group members isStruct listed isGroup
    have same := id_of_node? found
    have inner : node.kind ≠ .file := by simp [bodyStruct]
    refine ⟨node, found, inner, ?_⟩
    obtain ⟨scope, scopeFound, place⟩ := wellScoped.inScope node (mem_of_node? found) inner
    rw [if_pos bodyGroup] at place
    -- the body occurs once, so the struct whose field it is and its scope are one node
    have once := wellScoped.once node (mem_of_node? found) inner
    have sameParent := Lists.eq_of_count_flatMap_le_one (Nat.le_of_eq once) member (mem_of_node? scopeFound)
      (same ▸ under) (List.mem_append_right _ place.2)
    rw [scopeFound, sameParent]

end Graph

namespace Stub

section Listed

variable {graph : Graph}

theorem declarations_from_succ {id : Id} {node : Node} (found : graph.node? id = some node)
    (bound : Nat) : declarationsFrom graph (bound + 1) id =
      (if node.kind = .file then [] else [id]) ++
        node.children.flatMap (declarationsFrom graph bound) := by
  simp [declarationsFrom, found, Node.children, Node.groupBodies]

theorem mem_declarations_from_self {id : Id} {node : Node} (found : graph.node? id = some node)
    (inner : node.kind ≠ .file) (bound : Nat) : id ∈ declarationsFrom graph (bound + 1) id := by
  rw [declarations_from_succ found, if_neg inner]
  exact List.mem_append_left _ (List.mem_singleton_self id)

/-- What stands under a listed node is listed if one may go one deeper. -/
theorem mem_declarations_from_child {bound : Nat} {start id child : Id} {node inner : Node}
    (listed : id ∈ declarationsFrom graph bound start) (found : graph.node? id = some node)
    (under : child ∈ node.children) (childFound : graph.node? child = some inner)
    (notFile : inner.kind ≠ .file) : child ∈ declarationsFrom graph (bound + 1) start := by
  induction bound generalizing start with
  | zero => cases listed
  | succ bound induction =>
      rcases startFound : graph.node? start with _ | top
      · unfold declarationsFrom at listed
        simp [startFound] at listed
      · rw [declarations_from_succ startFound] at listed ⊢
        rcases List.mem_append.mp listed with here | below
        · split at here
          · cases here
          · cases List.mem_singleton.mp here
            rw [found] at startFound
            cases startFound
            exact List.mem_append_right _ (List.mem_flatMap.mpr
              ⟨child, under, mem_declarations_from_self childFound notFile _⟩)
        · obtain ⟨between, inChildren, deeper⟩ := List.mem_flatMap.mp below
          exact List.mem_append_right _ (List.mem_flatMap.mpr
            ⟨between, inChildren, induction deeper⟩)

end Listed

/-- All that is declared under a node belongs to the file of that node. -/
theorem declarations_from_file {graph : Graph} (wellScoped : graph.WellScoped)
    {entries : List (Option Node)} {requested : List Id}
    (built : Graph.build entries requested = .ok graph) {bound : Nat} {id other : Id}
    {node file : Node} {scopes : List Node} (found : graph.node? id = some node)
    (chain : graph.ScopeChain node scopes file) (declared : other ∈ declarationsFrom graph bound id) :
    graph.file other = .ok file := by
  induction bound generalizing id node scopes with
  | zero => cases declared
  | succ bound induction =>
      rw [declarations_from_succ found] at declared
      rcases List.mem_append.mp declared with here | below
      · split at here
        · cases here
        · cases List.mem_singleton.mp here
          exact Graph.file_eq_ok_iff.mpr ⟨node, scopes, found, chain⟩
      · obtain ⟨child, under, deeper⟩ := List.mem_flatMap.mp below
        obtain ⟨inner, innerFound, notFile, scopeFound⟩ :=
          wellScoped.child built (Graph.mem_of_node? found) under
        exact induction innerFound (.up notFile scopeFound chain) deeper

end Stub

open Stub

theorem Graph.Housed.mem_declarations_from {graph : Graph} (housed : graph.Housed) {node file : Node}
    {scopes : List Node} (chain : graph.ScopeChain node scopes file) (found : graph.node? node.id = some node)
    (inner : node.kind ≠ .file) (more : Nat) :
    node.id ∈ declarationsFrom graph (scopes.length + 1 + more) file.id := by
  induction chain with
  | file isFile => exact absurd isFile inner
  | @up node scope file rest _ scopeFound above induction =>
      have sameId := Graph.id_of_node? scopeFound
      have under := housed.child (Graph.mem_of_node? found) inner scopeFound
      rw [← sameId] at scopeFound
      by_cases isFile : scope.kind = .file
      · cases above with
        | file _ =>
            have depth : [scope].length + 1 + more = (more + 1) + 1 := by
              simp only [List.length_singleton]
              omega
            rw [depth, declarations_from_succ scopeFound]
            exact List.mem_append_right _ (List.mem_flatMap.mpr
              ⟨node.id, under, mem_declarations_from_self found inner more⟩)
        | up notFile _ _ => exact absurd isFile notFile
      · have depth : (scope :: rest).length + 1 + more = (rest.length + 1 + more) + 1 := by
          simp only [List.length_cons]
          omega
        rw [depth]
        exact mem_declarations_from_child (induction scopeFound isFile) scopeFound under found inner

theorem Graph.Housed.mem_declaration_order {graph : Graph} (housed : graph.Housed) {node file : Node}
    (found : graph.node? node.id = some node) (inner : node.kind ≠ .file)
    (inFile : graph.file node.id = .ok file) : node.id ∈ declarationOrder graph file.id := by
  obtain ⟨scopes, chain⟩ := Graph.scope_chain_of_file found inFile
  have short := chain.length_le
  have depth : graph.size + 1 = scopes.length + 1 + (graph.size - scopes.length) := by omega
  unfold declarationOrder
  rw [depth]
  exact housed.mem_declarations_from chain found inner _

end SchemaStubs
