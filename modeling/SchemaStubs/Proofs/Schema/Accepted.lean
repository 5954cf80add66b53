import Mathlib.Data.List.Nodup
import SchemaStubs.Proofs.Step
import SchemaStubs.Schema.Graph

/-!
What is known of a graph because it was accepted: its nodes have identifiers of their own, none of
them zero, every node passed its check, and the requested files are files of the graph.
-/

namespace SchemaStubs.Graph

theorem mem_of_node? {graph : Graph} {id : Id} {node : Node} (found : graph.node? id = some node) :
    node ∈ graph.nodes :=
  List.mem_of_find?_eq_some found

theorem id_of_node? {graph : Graph} {id : Id} {node : Node} (found : graph.node? id = some node) :
    node.id = id := by
  have same := List.find?_some found
  simpa using same

theorem node?_of_mem {graph : Graph} (distinct : (graph.nodes.map Node.id).Nodup) {node : Node}
    (member : node ∈ graph.nodes) : graph.node? node.id = some node := by
  rcases found : graph.node? node.id with _ | other
  · have missing := List.find?_eq_none.mp found node member
    simp at missing
  · have same := List.inj_on_of_nodup_map distinct (mem_of_node? found) member (id_of_node? found)
    rw [same]

/-- What can be collected: present nodes, each with an identifier of its own that was not seen before. -/
theorem collect_eq_ok_iff {index : Nat} {seen : List Id} {entries : List (Option Node)}
    {nodes : List Node} :
    collect index seen entries = .ok nodes ↔
      ∃ given : List Node, entries = given.map some ∧ nodes = given.map Node.withNames ∧
        (∀ node ∈ given, node.id ≠ 0 ∧ node.id ∉ seen) ∧ (given.map Node.id).Nodup := by
  induction entries generalizing index seen nodes with
  | nil =>
      constructor
      · intro collected
        cases collected
        exact ⟨[], by simp⟩
      · rintro ⟨given, none, rfl, _⟩
        rw [List.map_eq_nil_iff.mp none.symm]
        rfl
  | cons entry rest induction =>
      cases entry with
      | none =>
          refine ⟨fun collected => (nomatch collected), ?_⟩
          rintro ⟨_ | ⟨node, given⟩, whole, _⟩ <;> simp at whole
      | some node =>
          unfold collect
          constructor
          · intro collected
            split at collected
            · cases collected
            · rename_i present
              split at collected
              · cases collected
              · rename_i unseen
                rw [except_bind_ok] at collected
                obtain ⟨others, later, same⟩ := collected
                cases same
                obtain ⟨given, rfl, rfl, apart, distinct⟩ := induction.mp later
                refine ⟨node :: given, rfl, rfl, ?_, ?_⟩
                · rw [List.forall_mem_cons]
                  refine ⟨⟨present, unseen⟩, fun other member => ⟨(apart other member).1, ?_⟩⟩
                  exact fun known => (apart other member).2 (List.mem_cons_of_mem _ known)
                · rw [List.map_cons, List.nodup_cons]
                  refine ⟨fun known => ?_, distinct⟩
                  obtain ⟨other, member, same⟩ := List.mem_map.mp known
                  exact (apart other member).2 (same ▸ List.mem_cons_self)
          · rintro ⟨_ | ⟨first, given⟩, whole, rfl, apart, distinct⟩
            · cases whole
            · cases whole
              rw [List.forall_mem_cons] at apart
              rw [List.map_cons, List.nodup_cons] at distinct
              obtain ⟨⟨present, unseen⟩, apart⟩ := apart
              rw [if_neg present, if_neg unseen, except_bind_ok]
              refine ⟨_, induction.mpr ⟨given, rfl, rfl, fun other member => ?_, distinct.2⟩, rfl⟩
              refine ⟨(apart other member).1, fun known => ?_⟩
              rcases List.mem_cons.mp known with same | known
              · exact distinct.1 (same ▸ List.mem_map_of_mem member)
              · exact (apart other member).2 known

theorem collect_ids {index : Nat} {seen : List Id} {entries : List (Option Node)}
    {nodes : List Node} (collected : collect index seen entries = .ok nodes) :
    (nodes.map Node.id).Nodup ∧ ∀ node ∈ nodes, node.id ≠ 0 := by
  obtain ⟨given, _, rfl, apart, distinct⟩ := collect_eq_ok_iff.mp collected
  refine ⟨by rw [List.map_map]; exact distinct, fun node member => ?_⟩
  obtain ⟨other, listed, rfl⟩ := List.mem_map.mp member
  exact (apart other listed).1

theorem build_eq_ok_iff {entries : List (Option Node)} {requested : List Id} {graph : Graph} :
    build entries requested = .ok graph ↔
      collect 0 [] entries = .ok graph.nodes ∧ graph.requested = requested ∧ requested ≠ [] ∧
        (∀ id ∈ requested, checkRequested graph.nodes id = .ok ()) ∧
        ∀ node ∈ graph.nodes, Node.check graph.nodes node = .ok () := by
  unfold build
  rw [except_bind_ok]
  constructor
  · rintro ⟨nodes, collected, rest⟩
    split at rest
    · cases rest
    · rename_i asked
      rw [except_bind_ok] at rest
      obtain ⟨_, files, rest⟩ := rest
      rw [except_bind_ok] at rest
      obtain ⟨_, checks, same⟩ := rest
      cases same
      exact ⟨collected, rfl, by simpa using asked, except_forM_ok files, except_forM_ok checks⟩
  · rintro ⟨collected, rfl, asked, files, checks⟩
    refine ⟨_, collected, ?_⟩
    rw [if_neg (by simpa using asked), except_bind_ok]
    refine ⟨(), except_forM_of_ok files, ?_⟩
    rw [except_bind_ok]
    exact ⟨(), except_forM_of_ok checks, rfl⟩

theorem build_ok {entries : List (Option Node)} {requested : List Id} {graph : Graph}
    (accepted : build entries requested = .ok graph) :
    collect 0 [] entries = .ok graph.nodes ∧ graph.requested = requested ∧ requested ≠ [] ∧
      (∀ id ∈ requested, checkRequested graph.nodes id = .ok ()) ∧
      ∀ node ∈ graph.nodes, Node.check graph.nodes node = .ok () :=
  build_eq_ok_iff.mp accepted

/-- The nodes of a graph are those of its entries, whatever is requested. -/
theorem build_same_nodes {entries : List (Option Node)} {oneRequested twoRequested : List Id}
    {one two : Graph} (first : build entries oneRequested = .ok one)
    (second : build entries twoRequested = .ok two) : one.nodes = two.nodes := by
  have collected := (build_ok first).1
  rw [(build_ok second).1] at collected
  exact (Except.ok.inj collected).symm

theorem build_distinct {entries : List (Option Node)} {requested : List Id} {graph : Graph}
    (accepted : build entries requested = .ok graph) : (graph.nodes.map Node.id).Nodup :=
  (collect_ids (build_ok accepted).1).1

theorem build_nonzero {entries : List (Option Node)} {requested : List Id} {graph : Graph}
    (accepted : build entries requested = .ok graph) : ∀ node ∈ graph.nodes, node.id ≠ 0 :=
  (collect_ids (build_ok accepted).1).2

end SchemaStubs.Graph

namespace SchemaStubs.Node

variable {nodes : List Node} {node : Node}

theorem check_ok (passed : node.check nodes = .ok ()) :
    node.checkScope nodes = .ok () ∧ (node.isGroup = true → node.kind = .struct) ∧
      (∀ id ∈ node.nested, node.checkNested nodes id = .ok ()) ∧
      node.checkMembers nodes = .ok () := by
  unfold check at passed
  dsimp only at passed
  by_cases unknown : (!node.kind.isKnown) = true
  · simp [unknown, bind, Except.bind] at passed
  · rw [if_neg unknown] at passed
    by_cases unnamed : (node.name == "" && !node.isGroup) = true
    · simp [unnamed, bind, Except.bind] at passed
    · rw [if_neg unnamed, except_bind_ok] at passed
      obtain ⟨_, inScope, rest⟩ := passed
      by_cases misplaced : (node.isGroup && node.kind != .struct) = true
      · simp [misplaced, bind, Except.bind] at rest
      · rw [if_neg misplaced, except_bind_ok] at rest
        obtain ⟨_, nested, members⟩ := rest
        exact ⟨inScope, by simpa using misplaced, except_forM_ok nested, members⟩

theorem check_known (passed : node.check nodes = .ok ()) : node.kind.isKnown = true := by
  unfold check at passed
  by_contra unknown
  rw [Bool.not_eq_true] at unknown
  simp [unknown, bind, Except.bind] at passed

theorem check_scope_kind (passed : node.checkScope nodes = .ok ()) (inner : node.kind ≠ .file)
    {scope : Node} (found : findNode? nodes node.scope = some scope)
    (known : scope.kind.isKnown = true) :
    scope.kind = .file ∨ scope.kind = .struct ∨ scope.kind = .interface := by
  unfold checkScope at passed
  rw [if_neg (by simpa using inner), found] at passed
  cases kind : scope.kind <;> simp_all [NodeKind.isKnown]

theorem check_scope_file (passed : node.checkScope nodes = .ok ()) (isFile : node.kind = .file) :
    node.scope = 0 := by
  unfold checkScope at passed
  rw [isFile] at passed
  by_contra inScope
  simp [inScope] at passed

theorem check_scope_inner (passed : node.checkScope nodes = .ok ()) (inner : node.kind ≠ .file) :
    ∃ scope, findNode? nodes node.scope = some scope := by
  unfold checkScope at passed
  rw [if_neg (by simpa using inner)] at passed
  split at passed
  · cases passed
  · rename_i scope found
    exact ⟨scope, found⟩

theorem check_nested_ok {id : Id} (passed : node.checkNested nodes id = .ok ()) :
    ∃ child, findNode? nodes id = some child ∧ child.scope = node.id := by
  unfold checkNested at passed
  split at passed
  · cases passed
  · rename_i child found
    split at passed
    · rename_i inside
      exact ⟨child, found, inside⟩
    · cases passed

theorem check_fields_from_ok {seen ordinals : List Int} {fields : List Field}
    (passed : node.checkFieldsFrom nodes seen fields = .ok ordinals) :
    ∀ field ∈ fields, node.checkField nodes field = .ok () := by
  induction fields generalizing seen with
  | nil => simp
  | cons first rest induction =>
      unfold checkFieldsFrom at passed
      rw [except_bind_ok] at passed
      obtain ⟨_, here, later⟩ := passed
      have others : ∃ seen, node.checkFieldsFrom nodes seen rest = .ok ordinals := by
        split at later
        · cases later
        · split at later
          · exact ⟨_, later⟩
          · split at later
            · cases later
            · exact ⟨_, later⟩
      obtain ⟨_, others⟩ := others
      intro field member
      rcases List.mem_cons.mp member with rfl | inside
      · exact here
      · exact induction others field inside

theorem check_members_field (passed : node.checkMembers nodes = .ok ()) (isStruct : node.kind = .struct)
    {field : Field} (member : field ∈ node.fields) : node.checkField nodes field = .ok () := by
  unfold checkMembers at passed
  rw [isStruct] at passed
  simp only [checkFields] at passed
  rw [except_bind_ok] at passed
  obtain ⟨ordinals, each, _⟩ := passed
  exact check_fields_from_ok each field member

theorem check_members_group (passed : node.checkMembers nodes = .ok ()) (isStruct : node.kind = .struct)
    {field : Field} (member : field ∈ node.fields) (isGroup : field.isGroup = true) :
    ∃ body, findNode? nodes field.group = some body ∧ body.kind = .struct ∧ body.isGroup = true := by
  have checked := check_members_field passed isStruct member
  have kind : field.kind = .group := by simpa [Field.isGroup] using isGroup
  unfold checkField at checked
  rw [kind] at checked
  dsimp only at checked
  split at checked
  · cases checked
  · rename_i body found
    split at checked
    · rename_i fits
      exact ⟨body, found, by simpa using fits⟩
    · cases checked

/-- The methods of an interface are named, and their parameters and results have types. -/
theorem check_members_method (passed : node.checkMembers nodes = .ok ())
    (isInterface : node.kind = .interface) {method : Method} (member : method ∈ node.methods) :
    method.name ≠ "" ∧ ∀ field ∈ method.params ++ method.results, ∃ type, field.type = some type := by
  unfold checkMembers at passed
  rw [isInterface] at passed
  have checked := except_forM_ok passed method member
  unfold checkMethod at checked
  split at checked
  · cases checked
  · rename_i named
    refine ⟨by simpa using named, fun field listed => ?_⟩
    have typed := except_forM_ok checked field listed
    unfold checkParameter at typed
    split at typed
    · cases typed
    · rename_i type found
      exact ⟨type, found⟩

theorem check_members_slot (passed : node.checkMembers nodes = .ok ()) (isStruct : node.kind = .struct)
    {field : Field} (member : field ∈ node.fields) (plain : field.isGroup = false) :
    ∃ type, field.type = some type := by
  have checked := check_members_field passed isStruct member
  unfold checkField at checked
  split at checked
  · split at checked
    · cases checked
    · split at checked
      · cases checked
      · rename_i type found
        exact ⟨type, found⟩
  · split at checked
    · cases checked
    · split at checked
      · cases checked
      · rename_i type found
        exact ⟨type, found⟩
  · rename_i isGroup
    simp [Field.isGroup, isGroup] at plain
  · cases checked

theorem check_members_const (passed : node.checkMembers nodes = .ok ()) (isConst : node.kind = .const) :
    ∃ type, node.constType = some type := by
  unfold checkMembers at passed
  rw [isConst] at passed
  dsimp only at passed
  split at passed
  · cases passed
  · rename_i type found
    exact ⟨type, found⟩

end SchemaStubs.Node

namespace SchemaStubs.Graph

variable {entries : List (Option Node)} {requested : List Id} {graph : Graph}

theorem build_groups (accepted : build entries requested = .ok graph) :
    ∀ group ∈ graph.nodes, group.isGroup = true → group.kind = .struct :=
  fun group member => (Node.check_ok ((build_ok accepted).2.2.2.2 group member)).2.1

theorem build_scope_kind (accepted : build entries requested = .ok graph) {node scope : Node}
    (member : node ∈ graph.nodes) (found : graph.node? node.scope = some scope) :
    scope.kind = .file ∨ scope.kind = .struct ∨ scope.kind = .interface := by
  have checks := (build_ok accepted).2.2.2.2
  have inScope := (Node.check_ok (checks node member)).1
  by_cases isFile : node.kind = .file
  · have scopeless := Node.check_scope_file inScope isFile
    rw [scopeless] at found
    exact absurd (id_of_node? found) (build_nonzero accepted scope (mem_of_node? found))
  · exact Node.check_scope_kind inScope isFile found (Node.check_known (checks scope (mem_of_node? found)))

end SchemaStubs.Graph
