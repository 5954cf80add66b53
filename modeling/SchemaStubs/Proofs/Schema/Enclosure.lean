import Mathlib.Data.List.Chain
import Mathlib.Logic.Relation
import SchemaStubs.Proofs.Schema.ScopeChain

/-!
The scopes around a node. In an accepted graph they lead to a file or go round in a circle. Where they
lead to a file, that file is found, and with it all scopes on the way, however many there are; where
they go round, the search is given up as a fault of the schema. No scope on the way is ever missing.
-/

namespace SchemaStubs.Graph

open Relation (TransGen ReflTransGen)

variable {graph : Graph} {node scope file : Node} {scopes : List Node}

def StandsIn (graph : Graph) (node scope : Node) : Prop :=
  node.kind ≠ .file ∧ graph.node? node.scope = some scope

def LeadsTo (graph : Graph) (node file : Node) : Prop :=
  ReflTransGen graph.StandsIn node file ∧ file.kind = .file

def GoesRound (graph : Graph) (node : Node) : Prop :=
  ∃ scope, ReflTransGen graph.StandsIn node scope ∧ TransGen graph.StandsIn scope scope

/-- The scopes around a node that are no files, each once and each in the one before it, the last one
the scope of the node. -/
structure Enclosed (graph : Graph) (node : Node) (scopes : List Node) : Prop where
  whole : ∀ scope, scope ∈ scopes ↔ scope.kind ≠ .file ∧ TransGen graph.StandsIn node scope
  once : scopes.Nodup
  inward : (scopes ++ [node]).IsChain fun outer inner => graph.StandsIn inner outer

theorem StandsIn.unique {other : Node} (one : graph.StandsIn node scope)
    (two : graph.StandsIn node other) : scope = other :=
  Option.some.inj (one.2.symm.trans two.2)

section Leading

theorem LeadsTo.chain (leads : graph.LeadsTo node file) :
    ∃ scopes, graph.ScopeChain node scopes file := by
  obtain ⟨path, isFile⟩ := leads
  induction path using ReflTransGen.head_induction_on with
  | refl => exact ⟨[], .file isFile⟩
  | head stands _ induction =>
      obtain ⟨scopes, above⟩ := induction
      exact ⟨_ :: scopes, .up stands.1 stands.2 above⟩

namespace ScopeChain

theorem mem_iff (chain : graph.ScopeChain node scopes file) :
    scope ∈ scopes ↔ TransGen graph.StandsIn node scope := by
  induction chain with
  | file isFile =>
      constructor
      · intro member
        cases member
      · intro above
        obtain ⟨_, stands, _⟩ := TransGen.head'_iff.mp above
        exact absurd isFile stands.1
  | up inner found _ induction =>
      have stands : graph.StandsIn _ _ := ⟨inner, found⟩
      rw [List.mem_cons, induction, ← Relation.reflTransGen_iff_eq_or_transGen, TransGen.head'_iff]
      constructor
      · exact fun path => ⟨_, stands, path⟩
      · rintro ⟨next, same, path⟩
        cases stands.unique same
        exact path

theorem isChain (chain : graph.ScopeChain node scopes file) :
    (node :: scopes).IsChain graph.StandsIn := by
  induction chain with
  | file _ => exact .singleton _
  | up inner found _ induction => exact .cons_cons ⟨inner, found⟩ induction

theorem filter_prefix (chain : graph.ScopeChain node scopes file) :
    (scopes.filter isInner) <+: scopes := by
  induction chain with
  | file _ => exact List.nil_prefix
  | up _ _ above induction =>
      cases above with
      | file isFile => simp [isInner, isFile]
      | up inner _ _ =>
          rw [List.filter_cons_of_pos (by simpa [isInner] using inner), List.cons_prefix_cons]
          exact ⟨rfl, induction⟩

theorem enclosed (chain : graph.ScopeChain node scopes file) :
    graph.Enclosed node (scopes.filter isInner).reverse where
  whole scope := by
    rw [List.mem_reverse, List.mem_filter, chain.mem_iff, isInner, bne_iff_ne, and_comm]
  once := List.nodup_reverse.mpr (chain.nodup.filter _)
  inward := by
    have inner : (node :: scopes.filter isInner).IsChain graph.StandsIn :=
      chain.isChain.prefix (List.cons_prefix_cons.mpr ⟨rfl, chain.filter_prefix⟩)
    rw [← List.reverse_cons, List.isChain_reverse]
    exact inner

theorem not_goes_round (chain : graph.ScopeChain node scopes file) : ¬ graph.GoesRound node := by
  rintro ⟨scope, path, round⟩
  have ends : ∃ others, graph.ScopeChain scope others file := by
    rcases Relation.reflTransGen_iff_eq_or_transGen.mp path with rfl | above
    · exact ⟨scopes, chain⟩
    · obtain ⟨others, rest, _⟩ := chain.of_mem (chain.mem_iff.mpr above)
      exact ⟨others, rest⟩
  obtain ⟨others, above⟩ := ends
  obtain ⟨rest, again, shorter⟩ := above.of_mem (above.mem_iff.mpr round)
  rw [(above.unique again).1] at shorter
  exact Nat.lt_irrefl _ shorter

end ScopeChain

end Leading

section Circles

theorem GoesRound.up (round : graph.GoesRound node) :
    ∃ scope, graph.StandsIn node scope ∧ graph.GoesRound scope := by
  obtain ⟨last, path, again⟩ := round
  rcases path.cases_head with rfl | ⟨next, stands, rest⟩
  · obtain ⟨next, stands, rest⟩ := TransGen.head'_iff.mp again
    exact ⟨next, stands, node, rest, again⟩
  · exact ⟨next, stands, last, rest, again⟩

theorem GoesRound.fileFrom (round : graph.GoesRound node) (start : Id) (bound : Nat) :
    graph.fileFrom start bound node = .error (Defect.endlessScope start) := by
  induction bound generalizing node with
  | zero =>
      obtain ⟨_, stands, _⟩ := round.up
      simp [Graph.fileFrom, stands.1]
  | succ bound induction =>
      obtain ⟨scope, ⟨inner, found⟩, above⟩ := round.up
      simp [Graph.fileFrom, inner, Graph.lookup, found, bind, Except.bind, induction above]

theorem GoesRound.scopesFrom (round : graph.GoesRound node) (start : Id) (bound : Nat) :
    graph.scopesFrom start bound node = .error (Defect.endlessScope start) := by
  induction bound generalizing node with
  | zero =>
      obtain ⟨_, stands, _⟩ := round.up
      simp [Graph.scopesFrom, stands.1]
  | succ bound induction =>
      obtain ⟨scope, ⟨inner, found⟩, above⟩ := round.up
      simp [Graph.scopesFrom, inner, Graph.lookup, found, bind, Except.bind, induction above]

/-- Scopes are followed to a file or until one is met again; there are no more of them to meet than
there are nodes. -/
theorem leads_or_round_within
    (standing : ∀ node ∈ graph.nodes, node.kind ≠ .file → ∃ scope, graph.StandsIn node scope)
    {bound : Nat} {seen : List Node} (once : seen.Nodup)
    (below : ∀ other ∈ seen, other ∈ graph.nodes ∧ TransGen graph.StandsIn other node)
    (member : node ∈ graph.nodes) (bounded : graph.size < seen.length + bound) :
    (∃ file, graph.LeadsTo node file) ∨ graph.GoesRound node := by
  induction bound generalizing node seen with
  | zero =>
      have fits : seen.length ≤ graph.size :=
        (List.subperm_of_subset once fun other listed => (below other listed).1).length_le
      omega
  | succ bound induction =>
      by_cases isFile : node.kind = .file
      · exact .inl ⟨node, .refl, isFile⟩
      by_cases again : node ∈ seen
      · exact .inr ⟨node, .refl, (below node again).2⟩
      obtain ⟨scope, stands⟩ := standing node member isFile
      have next : ∀ other ∈ node :: seen, other ∈ graph.nodes ∧ TransGen graph.StandsIn other scope := by
        rw [List.forall_mem_cons]
        exact ⟨⟨member, .single stands⟩, fun other listed =>
          ⟨(below other listed).1, (below other listed).2.tail stands⟩⟩
      have shorter : graph.size < (node :: seen).length + bound := by
        rw [List.length_cons]
        omega
      rcases induction (List.nodup_cons.mpr ⟨again, once⟩) next (mem_of_node? stands.2) shorter with
        ⟨file, path, isFile⟩ | ⟨last, path, round⟩
      · exact .inl ⟨file, .head stands path, isFile⟩
      · exact .inr ⟨last, .head stands path, round⟩

end Circles

section Accepted

variable {entries : List (Option Node)} {requested : List Id}

theorem build_stands_in (built : build entries requested = .ok graph) :
    ∀ node ∈ graph.nodes, node.kind ≠ .file → ∃ scope, graph.StandsIn node scope := by
  intro node member inner
  have passed := (build_ok built).2.2.2.2 node member
  obtain ⟨scope, found⟩ := Node.check_scope_inner (Node.check_ok passed).1 inner
  exact ⟨scope, inner, found⟩

theorem build_leads_or_round (built : build entries requested = .ok graph)
    (member : node ∈ graph.nodes) : (∃ file, graph.LeadsTo node file) ∨ graph.GoesRound node :=
  leads_or_round_within (build_stands_in built) List.nodup_nil (List.forall_mem_nil _) member
    (by simp : graph.size < [].length + (graph.size + 1))

theorem LeadsTo.found {id : Id} (met : graph.node? id = some node) (leads : graph.LeadsTo node file) :
    graph.file id = .ok file ∧ ∃ scopes, graph.ancestors id = .ok scopes ∧
      graph.Enclosed node scopes := by
  obtain ⟨scopes, chain⟩ := leads.chain
  exact ⟨file_eq_ok_iff.mpr ⟨node, scopes, met, chain⟩, _, chain.ancestors_eq met, chain.enclosed⟩

theorem GoesRound.givenUp {id : Id} (met : graph.node? id = some node) (round : graph.GoesRound node) :
    graph.file id = .error (Defect.endlessScope id) ∧
      graph.ancestors id = .error (Defect.endlessScope id) := by
  constructor
  · simp [Graph.file, lookup, met, bind, Except.bind, round.fileFrom]
  · simp [ancestors, lookup, met, bind, Except.bind, round.scopesFrom]

/-- The scopes of a node lead to a file unless they go round. The file is found, and so are the scopes on
the way; a circle is a fault of the schema, and there is no other fault. -/
theorem enclosure_found (built : build entries requested = .ok graph) {id : Id}
    (met : graph.node? id = some node) :
    (∀ file, graph.LeadsTo node file → graph.file id = .ok file ∧
      ∃ scopes, graph.ancestors id = .ok scopes ∧ graph.Enclosed node scopes) ∧
    (graph.GoesRound node → graph.file id = .error (Defect.endlessScope id) ∧
      graph.ancestors id = .error (Defect.endlessScope id)) ∧
    ((∃ file, graph.LeadsTo node file) ↔ ¬ graph.GoesRound node) ∧
    ∀ fault, graph.file id = .error fault ∨ graph.ancestors id = .error fault →
      graph.GoesRound node ∧ fault.class? = some .invalidSchema := by
  have either := build_leads_or_round built (mem_of_node? met)
  refine ⟨fun file leads => leads.found met, fun round => round.givenUp met, ⟨?_, either.resolve_right⟩,
    fun fault failed => ?_⟩
  · rintro ⟨file, leads⟩
    obtain ⟨scopes, chain⟩ := leads.chain
    exact chain.not_goes_round
  rcases either with ⟨file, leads⟩ | round
  · obtain ⟨inFile, scopes, around, _⟩ := leads.found met
    rw [inFile, around] at failed
    rcases failed with failed | failed <;> cases failed
  · obtain ⟨noFile, noScopes⟩ := round.givenUp met
    rw [noFile, noScopes] at failed
    rcases failed with failed | failed <;> cases failed <;> exact ⟨round, rfl⟩

end Accepted

def house : Node :=
  { id := 1, kind := .file, name := "a", displayName := "a" }

def room (id scope : Id) (name : String) : Node :=
  { id, kind := .struct, name, displayName := name, scope }

/-- A struct in a struct of a file, and two structs in one another. -/
def whirl : Graph where
  nodes := [house, room 2 1 "S", room 3 2 "T", room 4 5 "U", room 5 4 "V"]
  requested := [1]

theorem enclosure_found_whirl : whirl.file 3 = .ok house ∧
    (∃ scopes, whirl.ancestors 3 = .ok scopes ∧ whirl.Enclosed (room 3 2 "T") scopes) ∧
    whirl.file 5 = .error (Defect.endlessScope 5) ∧
    whirl.ancestors 5 = .error (Defect.endlessScope 5) ∧
    ¬ ∃ file, whirl.LeadsTo (room 5 4 "V") file := by
  have built : build (whirl.nodes.map some) [1] = .ok whirl := rfl
  have leads : whirl.LeadsTo (room 3 2 "T") house := by
    have inner : whirl.StandsIn (room 3 2 "T") (room 2 1 "S") := ⟨by decide, rfl⟩
    have outer : whirl.StandsIn (room 2 1 "S") house := ⟨by decide, rfl⟩
    exact ⟨.head inner (.single outer), rfl⟩
  have circle : whirl.GoesRound (room 5 4 "V") := by
    have one : whirl.StandsIn (room 5 4 "V") (room 4 5 "U") := ⟨by decide, rfl⟩
    have two : whirl.StandsIn (room 4 5 "U") (room 5 4 "V") := ⟨by decide, rfl⟩
    exact ⟨_, .refl, .head one (.single two)⟩
  obtain ⟨found, _, _, _⟩ := enclosure_found built (show whirl.node? 3 = some (room 3 2 "T") from rfl)
  obtain ⟨_, givenUp, ends, _⟩ :=
    enclosure_found built (show whirl.node? 5 = some (room 5 4 "V") from rfl)
  obtain ⟨inFile, around⟩ := found house leads
  obtain ⟨noFile, noScopes⟩ := givenUp circle
  exact ⟨inFile, around, noFile, noScopes, fun reached => ends.mp reached circle⟩

end SchemaStubs.Graph
