import Mathlib.Data.List.Perm.Subperm
import SchemaStubs.Proofs.Schema.Accepted

/-!
Chains of scopes. A node stands in the file that its scopes lead to; the search for that file is
bounded by the number of nodes, and no chain that ends is longer, because it never meets a node
twice.
-/

namespace SchemaStubs.Graph

/-- The scopes around a node, the innermost first, up to the file that holds it. -/
inductive ScopeChain (graph : Graph) : Node → List Node → Node → Prop where
  | file {node : Node} (isFile : node.kind = .file) : ScopeChain graph node [] node
  | up {node scope file : Node} {rest : List Node} (inner : node.kind ≠ .file)
      (found : graph.node? node.scope = some scope) (above : ScopeChain graph scope rest file) :
      ScopeChain graph node (scope :: rest) file

def ScopesEnd (graph : Graph) : Prop :=
  ∀ node ∈ graph.nodes, ∃ scopes file, graph.ScopeChain node scopes file

namespace ScopeChain

variable {graph : Graph} {node file : Node} {scopes : List Node}

theorem above (chain : graph.ScopeChain node scopes file) (inner : node.kind ≠ .file) {scope : Node}
    (found : graph.node? node.scope = some scope) :
    ∃ rest, scopes = scope :: rest ∧ graph.ScopeChain scope rest file := by
  cases chain with
  | file isFile => exact absurd isFile inner
  | up _ scopeFound outer =>
      rw [found] at scopeFound
      cases scopeFound
      exact ⟨_, rfl, outer⟩

theorem unique {others : List Node} {other : Node} (one : graph.ScopeChain node scopes file)
    (two : graph.ScopeChain node others other) : scopes = others ∧ file = other := by
  induction one generalizing others with
  | file isFile =>
      cases two with
      | file _ => exact ⟨rfl, rfl⟩
      | up inner _ _ => exact absurd isFile inner
  | up inner found _ induction =>
      obtain ⟨_, rfl, outer⟩ := two.above inner found
      obtain ⟨rest, same⟩ := induction outer
      exact ⟨by rw [rest], same⟩

theorem isFile (chain : graph.ScopeChain node scopes file) : file.kind = .file := by
  induction chain with
  | file isFile => exact isFile
  | up _ _ _ induction => exact induction

theorem mem_nodes (chain : graph.ScopeChain node scopes file) :
    ∀ scope ∈ scopes, scope ∈ graph.nodes := by
  induction chain with
  | file _ => simp
  | up _ found _ induction =>
      intro scope member
      rcases List.mem_cons.mp member with rfl | later
      · exact mem_of_node? found
      · exact induction scope later

theorem of_mem (chain : graph.ScopeChain node scopes file) {scope : Node}
    (member : scope ∈ scopes) :
    ∃ rest, graph.ScopeChain scope rest file ∧ rest.length < scopes.length := by
  induction chain with
  | file _ => cases member
  | @up _ parent _ rest _ _ above induction =>
      rcases List.mem_cons.mp member with rfl | later
      · exact ⟨rest, above, by simp⟩
      · obtain ⟨others, chain, shorter⟩ := induction later
        exact ⟨others, chain, by simp only [List.length_cons]; omega⟩

theorem nodup (chain : graph.ScopeChain node scopes file) : scopes.Nodup := by
  induction chain with
  | file _ => exact List.nodup_nil
  | @up _ scope _ rest _ _ above induction =>
      rw [List.nodup_cons]
      refine ⟨?_, induction⟩
      intro member
      obtain ⟨others, chain, shorter⟩ := above.of_mem member
      have same := (above.unique chain).1
      rw [same] at shorter
      exact Nat.lt_irrefl _ shorter

theorem length_le (chain : graph.ScopeChain node scopes file) : scopes.length ≤ graph.size :=
  (List.subperm_of_subset chain.nodup chain.mem_nodes).length_le

theorem file_found (chain : graph.ScopeChain node scopes file)
    (met : graph.node? node.id = some node) : graph.node? file.id = some file := by
  induction chain with
  | file _ => exact met
  | up _ found _ induction =>
      rw [← id_of_node? found] at found
      exact induction found

theorem fileFrom (chain : graph.ScopeChain node scopes file) (start : Id) {bound : Nat}
    (enough : scopes.length ≤ bound) : graph.fileFrom start bound node = .ok file := by
  induction chain generalizing bound with
  | file isFile => cases bound <;> simp [Graph.fileFrom, isFile]
  | up inner found _ induction =>
      cases bound with
      | zero => simp at enough
      | succ bound =>
          have next := @induction bound (by simpa using enough)
          simp [Graph.fileFrom, inner, Graph.lookup, found, bind, Except.bind, next]

end ScopeChain

theorem lookup_eq_ok_iff {graph : Graph} {source id : Id} {node : Node} :
    graph.lookup source id = .ok node ↔ graph.node? id = some node := by
  unfold lookup
  split <;> simp_all

theorem scope_chain_of_file_from {graph : Graph} {start : Id} {bound : Nat} {node file : Node}
    (found : graph.fileFrom start bound node = .ok file) :
    ∃ scopes, graph.ScopeChain node scopes file := by
  induction bound generalizing node with
  | zero =>
      unfold fileFrom at found
      split at found
      · rename_i isFile
        cases found
        exact ⟨[], .file (by simpa using isFile)⟩
      · cases found
  | succ bound induction =>
      unfold fileFrom at found
      split at found
      · rename_i isFile
        cases found
        exact ⟨[], .file (by simpa using isFile)⟩
      · rename_i inner
        rw [except_bind_ok] at found
        obtain ⟨scope, looked, rest⟩ := found
        obtain ⟨scopes, chain⟩ := induction rest
        exact ⟨scope :: scopes, .up (by simpa using inner) (lookup_eq_ok_iff.mp looked) chain⟩

theorem file_eq_ok_iff {graph : Graph} {id : Id} {file : Node} :
    graph.file id = .ok file ↔
      ∃ node scopes, graph.node? id = some node ∧ graph.ScopeChain node scopes file := by
  unfold Graph.file
  rw [except_bind_ok]
  constructor
  · rintro ⟨node, looked, found⟩
    obtain ⟨scopes, chain⟩ := scope_chain_of_file_from found
    exact ⟨_, scopes, lookup_eq_ok_iff.mp looked, chain⟩
  · rintro ⟨node, scopes, met, chain⟩
    refine ⟨node, lookup_eq_ok_iff.mpr met, ?_⟩
    exact chain.fileFrom id (Nat.le_succ_of_le chain.length_le)

theorem scopes_end_iff (graph : Graph) :
    (graph.nodes.all fun node => (graph.fileFrom node.id graph.size node).isOk) = true ↔
      graph.ScopesEnd := by
  rw [List.all_eq_true]
  constructor
  · intro each node member
    rcases found : graph.fileFrom node.id graph.size node with _ | file
    · have passed := each node member
      rw [found] at passed
      cases passed
    · obtain ⟨scopes, chain⟩ := scope_chain_of_file_from found
      exact ⟨scopes, file, chain⟩
  · intro ends node member
    obtain ⟨scopes, file, chain⟩ := ends node member
    rw [chain.fileFrom node.id chain.length_le]
    rfl

instance (graph : Graph) : Decidable graph.ScopesEnd :=
  decidable_of_iff _ graph.scopes_end_iff

theorem node?_of_file {graph : Graph} {id : Id} {file : Node} (found : graph.file id = .ok file) :
    graph.node? file.id = some file := by
  obtain ⟨node, scopes, met, chain⟩ := file_eq_ok_iff.mp found
  rw [← id_of_node? met] at met
  exact chain.file_found met

theorem kind_of_file {graph : Graph} {id : Id} {file : Node} (found : graph.file id = .ok file) :
    file.kind = .file := by
  obtain ⟨node, scopes, met, chain⟩ := file_eq_ok_iff.mp found
  exact chain.isFile

theorem scope_chain_of_file {graph : Graph} {id : Id} {node file : Node}
    (found : graph.node? id = some node) (inFile : graph.file id = .ok file) :
    ∃ scopes, graph.ScopeChain node scopes file := by
  obtain ⟨_, scopes, again, chain⟩ := file_eq_ok_iff.mp inFile
  rw [found] at again
  cases again
  exact ⟨scopes, chain⟩

theorem file_of_file {graph : Graph} {file : Node} (found : graph.node? file.id = some file)
    (isFile : file.kind = .file) : graph.file file.id = .ok file :=
  file_eq_ok_iff.mpr ⟨file, [], found, .file isFile⟩

theorem file_of_requested {entries : List (Option Node)} {requested : List Id} {graph : Graph}
    (built : build entries requested = .ok graph) {file : Node}
    (found : graph.node? file.id = some file) (member : file.id ∈ requested) :
    graph.file file.id = .ok file := by
  apply file_of_file found
  have checked := (build_ok built).2.2.2.1 file.id member
  unfold checkRequested at checked
  unfold node? at found
  rw [found] at checked
  by_contra other
  simp [other] at checked

theorem id_of_requested {entries : List (Option Node)} {requested : List Id} {graph : Graph}
    (built : build entries requested = .ok graph) {id : Id} (member : id ∈ requested) {file : Node}
    (inFile : graph.file id = .ok file) : file.id = id := by
  obtain ⟨node, _, found, _⟩ := file_eq_ok_iff.mp inFile
  cases id_of_node? found
  have own := file_of_requested built found member
  rw [inFile] at own
  cases own
  rfl

theorem ScopesEnd.file_ok {graph : Graph} (ends : graph.ScopesEnd) {id : Id} {node : Node}
    (met : graph.node? id = some node) : ∃ file, graph.file id = .ok file := by
  obtain ⟨scopes, file, chain⟩ := ends node (mem_of_node? met)
  exact ⟨file, file_eq_ok_iff.mpr ⟨node, scopes, met, chain⟩⟩

def isInner (node : Node) : Bool :=
  node.kind != .file

theorem ScopeChain.scopes_from_eq {graph : Graph} {node file : Node} {scopes : List Node}
    (chain : graph.ScopeChain node scopes file) (start : Id) {bound : Nat}
    (enough : scopes.length ≤ bound) :
    graph.scopesFrom start bound node = .ok (scopes.filter isInner) := by
  induction chain generalizing bound with
  | file isFile => cases bound <;> simp [Graph.scopesFrom, isFile]
  | @up _ scope _ rest inner found _ induction =>
      cases bound with
      | zero => simp at enough
      | succ bound =>
          have next := @induction bound (by simpa using enough)
          rw [List.filter_cons]
          by_cases isFile : scope.kind = .file
          · simp [Graph.scopesFrom, inner, Graph.lookup, found, bind, Except.bind, next, isInner, isFile]
          · simp [Graph.scopesFrom, inner, Graph.lookup, found, bind, Except.bind, next, isInner, isFile]

theorem ScopeChain.ancestors_eq {graph : Graph} {node file : Node} {scopes : List Node}
    (chain : graph.ScopeChain node scopes file) {id : Id} (found : graph.node? id = some node) :
    graph.ancestors id = .ok (scopes.filter isInner).reverse := by
  have around := chain.scopes_from_eq id (Nat.le_succ_of_le chain.length_le)
  simp [ancestors, lookup, found, bind, Except.bind, around]

theorem mem_scopes_from {graph : Graph} {start : Id} {bound : Nat} {node : Node} {scopes : List Node}
    (around : graph.scopesFrom start bound node = .ok scopes) {scope : Node} (member : scope ∈ scopes) :
    scope ∈ graph.nodes ∧ scope.kind ≠ .file := by
  induction bound generalizing node scopes with
  | zero =>
      unfold scopesFrom at around
      split at around <;> cases around
      cases member
  | succ bound induction =>
      unfold scopesFrom at around
      split at around
      · cases around
        cases member
      · rw [except_bind_ok] at around
        obtain ⟨next, looked, around⟩ := around
        rw [except_bind_ok] at around
        obtain ⟨outer, above, same⟩ := around
        cases same
        split at member
        · exact induction above member
        · rename_i inner
          rcases List.mem_cons.mp member with rfl | later
          · exact ⟨mem_of_node? (lookup_eq_ok_iff.mp looked), by simpa using inner⟩
          · exact induction above later

theorem mem_ancestors {graph : Graph} {id : Id} {scopes : List Node}
    (around : graph.ancestors id = .ok scopes) {scope : Node} (member : scope ∈ scopes) :
    scope ∈ graph.nodes ∧ scope.kind ≠ .file := by
  unfold ancestors at around
  rw [except_bind_ok] at around
  obtain ⟨node, _, around⟩ := around
  rw [except_bind_ok] at around
  obtain ⟨inner, above, same⟩ := around
  cases same
  exact mem_scopes_from above (List.mem_reverse.mp member)

theorem ScopesEnd.ancestors_ok {graph : Graph} (ends : graph.ScopesEnd) {id : Id} {node : Node}
    (met : graph.node? id = some node) : ∃ scopes, graph.ancestors id = .ok scopes := by
  obtain ⟨scopes, file, chain⟩ := ends node (mem_of_node? met)
  exact ⟨_, chain.ancestors_eq met⟩

end SchemaStubs.Graph
