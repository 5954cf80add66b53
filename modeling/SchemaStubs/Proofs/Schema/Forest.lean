import SchemaStubs.Proofs.Schema.WellScoped

/-!
The order of declarations. An accepted graph is only checked node by node, so its scopes may run in
a circle and a declaration may stand in several places. Where neither happens the declarations form
a forest, and then the bounded search for the declarations of a file is the full preorder of the
tree under it, in which no node comes twice.
-/

namespace SchemaStubs

namespace Graph

/-- The declarations at and under some nodes in order, each before what stands under it. Files
themselves are no declarations. -/
inductive Preorder (graph : Graph) : List Id → List Id → Prop where
  | nil : Preorder graph [] []
  | cons {id : Id} {node : Node} {rest below after : List Id} (found : graph.node? id = some node)
      (under : Preorder graph node.children below) (next : Preorder graph rest after) :
      Preorder graph (id :: rest) ((if node.kind = .file then [] else [id]) ++ below ++ after)

/-- What stands under a node has that node as its scope, it stands there once, and scopes lead to
files. -/
structure Forest (graph : Graph) : Prop where
  child : ∀ parent ∈ graph.nodes, ∀ id ∈ parent.children, ∃ node, graph.node? id = some node ∧
    node.kind ≠ .file ∧ graph.node? node.scope = some parent
  once : ∀ parent ∈ graph.nodes, parent.children.Nodup
  ends : graph.ScopesEnd

namespace Preorder

variable {graph : Graph} {ids order : List Id}

theorem append {others more : List Id} (first : Preorder graph ids order)
    (second : Preorder graph others more) : Preorder graph (ids ++ others) (order ++ more) := by
  induction first with
  | nil => exact second
  | cons found under _ _ induction =>
      rw [List.append_assoc]
      exact .cons found under induction

theorem of_flatMap {listed : Id → List Id}
    (each : ∀ id ∈ ids, Preorder graph [id] (listed id)) :
    Preorder graph ids (ids.flatMap listed) := by
  induction ids with
  | nil => exact .nil
  | cons id rest induction =>
      have first := each id List.mem_cons_self
      exact first.append (induction fun other member => each other (List.mem_cons_of_mem _ member))

theorem unique {other : List Id} (one : Preorder graph ids order)
    (two : Preorder graph ids other) : order = other := by
  induction one generalizing other with
  | nil =>
      cases two
      rfl
  | cons found _ _ below later =>
      cases two with
      | cons found' under' next' =>
          rw [found] at found'
          cases found'
          rw [below under', later next']

end Preorder

namespace Forest

variable {graph : Graph}

/-- The scopes of a listed node lead through one of the nodes the listing starts from. -/
theorem through (forest : graph.Forest) {ids order : List Id} (preorder : Preorder graph ids order)
    {id : Id} (member : id ∈ order) :
    ∃ start ∈ ids, ∃ top node, graph.node? start = some top ∧ graph.node? id = some node ∧
      ∀ scopes file, graph.ScopeChain top scopes file → ∃ inner, graph.ScopeChain node inner file ∧
        (top :: scopes) <:+ (node :: inner) := by
  induction preorder with
  | nil => cases member
  | @cons root node rest below after found _ _ belowInduction laterInduction =>
      rcases List.mem_append.mp member with inTree | later
      · refine ⟨root, List.mem_cons_self, node, ?_⟩
        rcases List.mem_append.mp inTree with atRoot | deeper
        · split at atRoot
          · cases atRoot
          · cases List.mem_singleton.mp atRoot
            exact ⟨node, found, found, fun scopes file chain => ⟨scopes, chain, List.suffix_refl _⟩⟩
        · obtain ⟨start, inChildren, top, reached, topFound, reachedFound, leads⟩ :=
            belowInduction deeper
          obtain ⟨child, childFound, notFile, scopeFound⟩ :=
            forest.child node (mem_of_node? found) start inChildren
          rw [topFound] at childFound
          cases childFound
          refine ⟨reached, found, reachedFound, fun scopes file chain => ?_⟩
          obtain ⟨inner, innerChain, suffix⟩ := leads _ file (.up notFile scopeFound chain)
          exact ⟨inner, innerChain, (List.suffix_cons _ _).trans suffix⟩
      · obtain ⟨start, inRest, others⟩ := laterInduction later
        exact ⟨start, List.mem_cons_of_mem _ inRest, others⟩

theorem beneath (forest : graph.Forest) {id other : Id} {node file : Node} {scopes : List Node}
    {below : List Id} (found : graph.node? id = some node)
    (chain : graph.ScopeChain node scopes file) (under : Preorder graph node.children below)
    (member : other ∈ below) :
    ∃ inside inner, graph.node? other = some inside ∧ graph.ScopeChain inside inner file ∧
      (node :: scopes) <:+ inner := by
  obtain ⟨start, inChildren, top, inside, topFound, insideFound, leads⟩ :=
    forest.through under member
  obtain ⟨child, childFound, notFile, scopeFound⟩ :=
    forest.child node (mem_of_node? found) start inChildren
  rw [topFound] at childFound
  cases childFound
  obtain ⟨inner, innerChain, suffix⟩ := leads _ file (.up notFile scopeFound chain)
  refine ⟨inside, inner, insideFound, innerChain, ?_⟩
  rcases List.suffix_cons_iff.mp suffix with same | deeper
  · rw [List.cons.injEq] at same
    exact same.2 ▸ List.suffix_refl _
  · exact (List.suffix_cons _ _).trans deeper

/-- Nodes at one depth have disjoint trees, and a tree does not meet its root again. -/
theorem nodup_preorder (forest : graph.Forest) {ids order : List Id}
    (preorder : Preorder graph ids order) (distinct : ids.Nodup) (depth : Nat)
    (level : ∀ id ∈ ids, ∃ node scopes file, graph.node? id = some node ∧
      graph.ScopeChain node scopes file ∧ scopes.length = depth) : order.Nodup := by
  induction preorder generalizing depth with
  | nil => exact List.nodup_nil
  | @cons root node rest below after found under next belowInduction laterInduction =>
      rw [List.nodup_cons] at distinct
      obtain ⟨_, scopes, file, found', chain, deep⟩ := level root List.mem_cons_self
      rw [found] at found'
      cases found'
      have belowDistinct : below.Nodup := by
        apply belowInduction (forest.once node (mem_of_node? found)) (depth + 1)
        intro id member
        obtain ⟨child, childFound, notFile, scopeFound⟩ :=
          forest.child node (mem_of_node? found) id member
        exact ⟨child, _, file, childFound, .up notFile scopeFound chain, by simp [deep]⟩
      have afterDistinct : after.Nodup :=
        laterInduction distinct.2 depth fun id member => level id (List.mem_cons_of_mem _ member)
      have rootOnce : ((if node.kind = .file then [] else [root]) ++ below).Nodup := by
        rw [List.nodup_append]
        refine ⟨by split <;> simp, belowDistinct, ?_⟩
        intro id atRoot other deeper same
        subst same
        split at atRoot
        · cases atRoot
        · cases List.mem_singleton.mp atRoot
          obtain ⟨inside, inner, insideFound, innerChain, suffix⟩ :=
            forest.beneath found chain under deeper
          rw [found] at insideFound
          cases insideFound
          rw [(innerChain.unique chain).1] at suffix
          have shorter := suffix.length_le
          simp only [List.length_cons] at shorter
          omega
      rw [List.nodup_append]
      refine ⟨rootOnce, afterDistinct, ?_⟩
      intro id here other later same
      subst same
      -- a node of two trees would have both roots at one place of its chain of scopes
      obtain ⟨inside, inner, insideFound, innerChain, suffix⟩ : ∃ inside inner,
          graph.node? id = some inside ∧ graph.ScopeChain inside inner file ∧
            (node :: scopes) <:+ (inside :: inner) := by
        rcases List.mem_append.mp here with atRoot | deeper
        · split at atRoot
          · cases atRoot
          · cases List.mem_singleton.mp atRoot
            exact ⟨node, scopes, found, chain, List.suffix_refl _⟩
        · obtain ⟨inside, inner, insideFound, innerChain, suffix⟩ :=
            forest.beneath found chain under deeper
          exact ⟨inside, inner, insideFound, innerChain, suffix.trans (List.suffix_cons _ _)⟩
      obtain ⟨start, inRest, top, _, topFound, insideFound', leads⟩ := forest.through next later
      rw [insideFound] at insideFound'
      cases insideFound'
      obtain ⟨_, topScopes, topFile, topFound', topChain, topDeep⟩ :=
        level start (List.mem_cons_of_mem _ inRest)
      rw [topFound] at topFound'
      cases topFound'
      obtain ⟨inner', innerChain', suffix'⟩ := leads _ _ topChain
      rw [(innerChain'.unique innerChain).1] at suffix'
      have alike : (top :: topScopes).length = (node :: scopes).length := by simp [deep, topDeep]
      have nested := List.suffix_of_suffix_length_le suffix' suffix (Nat.le_of_eq alike)
      have same := nested.eq_of_length alike
      rw [List.cons.injEq] at same
      have sameId : start = root := by
        rw [← id_of_node? topFound, ← id_of_node? found, same.1]
      exact distinct.1 (sameId ▸ inRest)

end Forest

theorem WellScoped.forest {graph : Graph} (wellScoped : graph.WellScoped)
    {entries : List (Option Node)} {requested : List Id}
    (built : build entries requested = .ok graph) : graph.Forest where
  child parent member id under := wellScoped.child built member under
  once parent member := by
    rw [List.nodup_iff_count_le_one]
    intro id
    by_cases under : id ∈ parent.children
    · obtain ⟨node, found, notFile, _⟩ := wellScoped.child built member under
      have once := wellScoped.once node (mem_of_node? found) notFile
      obtain ⟨front, back, whole⟩ := List.append_of_mem member
      rw [id_of_node? found, whole, List.flatMap_append, List.flatMap_cons, List.count_append,
        List.count_append] at once
      omega
    · rw [List.count_eq_zero_of_not_mem under]
      omega
  ends := wellScoped.ends

end Graph

namespace Stub

variable {graph : Graph}

/-- The bounded search finds all of the tree under a node if the bound leaves room for the longest
chain of scopes. -/
theorem declarations_from_preorder (forest : graph.Forest) {bound : Nat} {id : Id}
    {node file : Node} {scopes : List Node} (found : graph.node? id = some node)
    (chain : graph.ScopeChain node scopes file) (room : graph.size < bound + scopes.length) :
    graph.Preorder [id] (declarationsFrom graph bound id) := by
  induction bound generalizing id node scopes with
  | zero =>
      have short := chain.length_le
      omega
  | succ bound induction =>
      have below : graph.Preorder node.children
          (node.children.flatMap (declarationsFrom graph bound)) := by
        apply Graph.Preorder.of_flatMap
        intro child under
        obtain ⟨inner, innerFound, notFile, scopeFound⟩ :=
          forest.child node (Graph.mem_of_node? found) child under
        apply induction innerFound (.up notFile scopeFound chain)
        simp only [List.length_cons]
        omega
      have whole := Graph.Preorder.cons found below .nil
      rwa [List.append_nil, ← declarations_from_succ found] at whole

theorem declaration_order_preorder (forest : graph.Forest) {file : Node}
    (found : graph.node? file.id = some file) (isFile : file.kind = .file) :
    graph.Preorder [file.id] (declarationOrder graph file.id) :=
  declarations_from_preorder forest found (.file isFile) (by simp)

theorem nodup_declaration_order (forest : graph.Forest) {file : Node}
    (found : graph.node? file.id = some file) (isFile : file.kind = .file) :
    (declarationOrder graph file.id).Nodup := by
  apply forest.nodup_preorder (declaration_order_preorder forest found isFile) (by simp) 0
  intro id member
  cases List.mem_singleton.mp member
  exact ⟨file, [], file, found, .file isFile, rfl⟩

end Stub

namespace Graph

/-- The search for a file among checked nodes either finds one or never ends. -/
theorem file_from_cases {graph : Graph}
    (checked : ∀ node ∈ graph.nodes, Node.check graph.nodes node = .ok ()) (start : Id)
    (bound : Nat) {node : Node} (member : node ∈ graph.nodes) :
    (∃ file, graph.fileFrom start bound node = .ok file) ∨
      graph.fileFrom start bound node = .error (Defect.endlessScope start) := by
  induction bound generalizing node with
  | zero =>
      unfold fileFrom
      split
      · exact .inl ⟨node, rfl⟩
      · exact .inr rfl
  | succ bound induction =>
      unfold fileFrom
      split
      · exact .inl ⟨node, rfl⟩
      · rename_i inner
        obtain ⟨scope, found⟩ :=
          Node.check_scope_inner (Node.check_ok (checked node member)).1 (by simpa using inner)
        have looked : graph.lookup node.id node.scope = .ok scope := by
          have met : graph.node? node.scope = some scope := found
          simp [lookup, met]
        rw [looked]
        exact induction (mem_of_node? found)

/-- What acceptance promises of the shape of a graph. The scopes of a node lead to a file or go round
in a circle, they are never missing; a group field of a struct points at a group. If besides the
scopes end, groups stand where they are scoped and nothing stands twice under one node, then the
declarations of a file are the whole tree under it, and none comes twice. -/
theorem build_shapes_declarations {entries : List (Option Node)} {requested : List Id}
    {graph : Graph} (built : build entries requested = .ok graph) :
    (∀ node ∈ graph.nodes,
      (∃ file, graph.file node.id = .ok file ∧ file.kind = .file) ∨
        graph.file node.id = .error (Defect.endlessScope node.id)) ∧
    (∀ node ∈ graph.nodes, node.kind = .struct → ∀ field ∈ node.fields, field.isGroup = true →
      ∃ body, graph.node? field.group = some body ∧ body.kind = .struct ∧ body.isGroup = true) ∧
    (graph.ScopesEnd →
      (∀ node ∈ graph.nodes, ∀ id ∈ node.groupBodies, ∃ body, graph.node? id = some body ∧
        body.scope = node.id) →
      (∀ node ∈ graph.nodes, node.children.Nodup) →
      ∀ file ∈ graph.nodes, file.kind = .file →
        graph.Preorder [file.id] (Stub.declarationOrder graph file.id) ∧
          (Stub.declarationOrder graph file.id).Nodup) := by
  have distinct := build_distinct built
  have checks := (build_ok built).2.2.2.2
  refine ⟨?_, ?_, ?_⟩
  · intro node member
    have looked : graph.lookup node.id node.id = .ok node := by
      simp [lookup, node?_of_mem distinct member]
    have search : graph.file node.id = graph.fileFrom node.id (graph.size + 1) node := by
      unfold file
      rw [looked]
      rfl
    rcases file_from_cases checks node.id (graph.size + 1) member with ⟨file, found⟩ | endless
    · rw [← search] at found
      exact .inl ⟨file, found, kind_of_file found⟩
    · rw [← search] at endless
      exact .inr endless
  · intro node member isStruct field listed isGroup
    exact Node.check_members_group (Node.check_ok (checks node member)).2.2.2 isStruct listed isGroup
  · intro ends groups once file member isFile
    have child : ∀ parent ∈ graph.nodes, ∀ id ∈ parent.children, ∃ node,
        graph.node? id = some node ∧ node.kind ≠ .file ∧ graph.node? node.scope = some parent := by
      intro parent inGraph id under
      obtain ⟨node, found, inside⟩ : ∃ node, graph.node? id = some node ∧ node.scope = parent.id := by
        rcases List.mem_append.mp under with nested | group
        · exact Node.check_nested_ok ((Node.check_ok (checks parent inGraph)).2.2.1 id nested)
        · exact groups parent inGraph id group
      refine ⟨node, found, ?_, inside ▸ node?_of_mem distinct inGraph⟩
      intro isFile
      have scopeless :=
        Node.check_scope_file (Node.check_ok (checks node (mem_of_node? found))).1 isFile
      exact build_nonzero built parent inGraph (by rw [← inside, scopeless])
    have forest : graph.Forest := ⟨child, once, ends⟩
    have found := node?_of_mem distinct member
    exact ⟨Stub.declaration_order_preorder forest found isFile,
      Stub.nodup_declaration_order forest found isFile⟩

/-- A struct with a nested enum and a named group. -/
def drawing : Graph where
  nodes := [
    { id := 1, kind := .file, name := "a", displayName := "a", nested := [2] },
    { id := 2, kind := .struct, name := "Shape", displayName := "Shape", scope := 1, nested := [4],
      fields := [{ name := "area", kind := .group, group := 3 }] },
    { id := 3, kind := .struct, isGroup := true, name := "area", displayName := "area", scope := 2 },
    { id := 4, kind := .enum, name := "Unit", displayName := "Unit", scope := 2,
      enumerants := ["inch"] }]
  requested := [1]

theorem build_shapes_declarations_drawing :
    build (drawing.nodes.map some) [1] = .ok drawing ∧
      Stub.declarationOrder drawing 1 = [2, 4, 3] ∧
      drawing.Preorder [1] (Stub.declarationOrder drawing 1) ∧
      (Stub.declarationOrder drawing 1).Nodup := by
  have built : build (drawing.nodes.map some) [1] = .ok drawing := rfl
  have inGraph : drawing.nodes.head (by decide) ∈ drawing.nodes := List.head_mem _
  have shaped := (build_shapes_declarations built).2.2 (by decide +kernel) (by decide +kernel)
    (by decide +kernel) _ inGraph rfl
  exact ⟨built, by decide +kernel, shaped⟩

def circularScopes : Graph where
  nodes := [
    { id := 1, kind := .file, name := "a", displayName := "a" },
    { id := 2, kind := .struct, name := "A", displayName := "A", scope := 3 },
    { id := 3, kind := .struct, name := "B", displayName := "B", scope := 2 }]
  requested := [1]

/-- A struct that has the group of another struct as its own. -/
def borrowedGroup : Graph where
  nodes := [
    { id := 1, kind := .file, name := "a", displayName := "a", nested := [2, 3] },
    { id := 2, kind := .struct, name := "A", displayName := "A", scope := 1,
      fields := [{ name := "g", kind := .group, group := 4 }] },
    { id := 3, kind := .struct, name := "B", displayName := "B", scope := 1,
      fields := [{ name := "g", kind := .group, group := 4 }] },
    { id := 4, kind := .struct, isGroup := true, name := "g", displayName := "g", scope := 3 }]
  requested := [1]

def repeatedDeclaration : Graph where
  nodes := [
    { id := 1, kind := .file, name := "a", displayName := "a", nested := [2, 2] },
    { id := 2, kind := .struct, name := "A", displayName := "A", scope := 1 }]
  requested := [1]

def selfContained : Graph where
  nodes := [
    { id := 1, kind := .file, name := "a", displayName := "a", nested := [2] },
    { id := 2, kind := .struct, name := "A", displayName := "A", scope := 1,
      fields := [{ name := "g", kind := .group, group := 3 }] },
    { id := 3, kind := .struct, isGroup := true, name := "g", displayName := "g", scope := 2,
      fields := [{ name := "h", kind := .group, group := 3 }] }]
  requested := [1]

theorem self_contained_endless {ids order : List Id} (endless : 3 ∈ ids) :
    ¬selfContained.Preorder ids order := by
  intro preorder
  induction preorder with
  | nil => cases endless
  | @cons id node _ _ _ found _ _ below later =>
      rcases List.mem_cons.mp endless with rfl | inRest
      · cases found
        exact below (by decide)
      · exact later inRest

/-- Acceptance alone promises none of it: a chain of scopes need not reach a file, a group need not
be scoped in the struct that has it, and the declarations of a file may repeat or never end. -/
theorem build_accepts_shapeless :
    (build (circularScopes.nodes.map some) [1] = .ok circularScopes ∧
      circularScopes.file 2 = .error (Defect.endlessScope 2)) ∧
    (build (borrowedGroup.nodes.map some) [1] = .ok borrowedGroup ∧
      ∃ node ∈ borrowedGroup.nodes, node.kind = .struct ∧ ∃ field ∈ node.fields,
        field.isGroup = true ∧ (borrowedGroup.node? field.group).map Node.scope ≠ some node.id) ∧
    (build (repeatedDeclaration.nodes.map some) [1] = .ok repeatedDeclaration ∧
      ¬(Stub.declarationOrder repeatedDeclaration 1).Nodup) ∧
    (build (selfContained.nodes.map some) [1] = .ok selfContained ∧
      ¬∃ order, selfContained.Preorder [1] order) := by
  refine ⟨⟨rfl, rfl⟩, ⟨rfl, ?_⟩, ⟨rfl, by decide +kernel⟩, rfl, ?_⟩
  · exact ⟨_, List.mem_cons_of_mem _ List.mem_cons_self, rfl, _, List.mem_cons_self, rfl, by decide⟩
  · rintro ⟨order, preorder⟩
    cases preorder with
    | cons found under next =>
        cases found
        cases under with
        | cons found under next =>
            cases found
            exact self_contained_endless (by decide) under

end Graph

end SchemaStubs
