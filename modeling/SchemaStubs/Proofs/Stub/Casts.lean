import SchemaStubs.Proofs.Stub.Independence
import SchemaStubs.Proofs.Stub.Overloads
import SchemaStubs.Proofs.Stub.PointerClass

/-!
The overloads of a stub: the initializers of its builders, and the casts of the class of pointers to
anything. A pointer is cast to each struct that is no group and to each interface of the file, by the
public names of what the casts give, and then to anything.
-/

namespace SchemaStubs

/-- The structs that a file declares; a group is none. -/
def Graph.structsIn (graph : Graph) (file : Node) : Set Node :=
  { node | node ∈ graph.nodes ∧ node.kind = .struct ∧ node.isGroup = false ∧
    graph.file node.id = .ok file }

def Graph.interfacesIn (graph : Graph) (file : Node) : Set Node :=
  { node | node ∈ graph.nodes ∧ node.kind = .interface ∧ graph.file node.id = .ok file }

namespace Stub

open Generation AnyPointer

variable {plan : Plan} {registry : Registry} {file node : Node} {before after : Draft}

/-- A cast takes the class of a node, and gives what stands in this class for the cast. -/
def CastsTo (registry : Registry) (name view : String) (node : Node) (signature : Signature) : Prop :=
  ∃ internal, registry.internal? node.id = some internal ∧ signature = {
    name
    params := [{ name := "schema", type := internal }]
    returns := internal ++ view }

def AreCastsTo (registry : Registry) (nodes : Set Node) (role : Role) (name view : String)
    (methods : List Signature) : Prop :=
  OverloadSet nodes (fun node name => (registry.aliasesOf { node := node.id }).lookup role = some name)
    (CastsTo registry name view)
    { name, params := [{ name := "schema", type := "Any" }], returns := "Any" } methods

def HoldsCasts (graph : Graph) (registry : Registry) (file : Node) (body : List Declaration) : Prop :=
  ∃ structs interfaces, body = structs.map Declaration.method ++ interfaces.map Declaration.method ++ [
      .method {
        name := "as_list"
        params := [{ name := "schema", type := "Any" }]
        returns := "Sequence[Any]" },
      .method { name := "as_text", returns := "str" }] ∧
    AreCastsTo registry (graph.structsIn file) .reader "as_struct" ".Reader" structs ∧
    AreCastsTo registry (graph.interfacesIn file) .client "as_interface" ".Client" interfaces

theorem HoldsCasts.plain {graph : Graph} {body : List Declaration}
    (holds : HoldsCasts graph registry file body) : Plain body := by
  obtain ⟨structs, interfaces, rfl, _⟩ := holds
  exact ((plain_methods structs).append (plain_methods interfaces)).append
    (by simp [Plain, Declaration.isClass])

def castTo (registry : Registry) (role : Role) (node : Node) : Target where
  aliasName := ((registry.aliasesOf { node := node.id }).lookup role).getD ""
  internal := (registry.internal? node.id).getD ""
  isInterface := node.kind = .interface

/-- The targets that are told by their role are the nodes with that role. -/
theorem filter_cast_targets {role : Role} {test : Target → Bool}
    (tells : ∀ node found, castRole? node = some found →
      (test (castTo registry found node) = true ↔ found = role)) (nodes : List Node) :
    (nodes.filterMap (castTarget? registry)).filter test =
      (nodes.filter fun node => castRole? node = some role).map (castTo registry role) := by
  induction nodes with
  | nil => rfl
  | cons node rest induction =>
      rcases hasRole : castRole? node with _ | found
      · have none : castTarget? registry node = none := by simp [castTarget?, hasRole]
        rw [List.filterMap_cons_none none, List.filter_cons_of_neg (by simp [hasRole]), induction]
      · have some : castTarget? registry node = some (castTo registry found node) := by
          simp [castTarget?, hasRole, castTo]
        rw [List.filterMap_cons_some some]
        by_cases same : found = role
        · subst same
          rw [List.filter_cons_of_pos ((tells node found hasRole).mpr rfl), induction,
            List.filter_cons_of_pos (by simp [hasRole]), List.map_cons]
        · rw [List.filter_cons_of_neg (fun told => same ((tells node found hasRole).mp told)), induction,
            List.filter_cons_of_neg (by simp [hasRole, same])]

theorem casts_are_casts {asked : Registry} (prepared : Prepared plan asked registry)
    (found : plan.graph.node? file.id = some file) (standing : Standing registry file before)
    {targeted : List Target} (returns : (targets plan).Returns before targeted after) {nodes : Set Node}
    {role : Role} (name view : String) (test : Target → Bool)
    (tells : ∀ node found, castRole? node = some found →
      (test (castTo registry found node) = true ↔ found = role))
    (listed : ∀ node, node ∈ nodesIn plan file.id ∧ castRole? node = some role ↔ node ∈ nodes) :
    ∃ methods, casts name view (targeted.filter test) = methods.map Declaration.method ∧
      AreCastsTo registry nodes role name view methods := by
  obtain ⟨_, sorted, named⟩ := targets_returns standing returns
  let picked := (nodesIn plan file.id).filter fun node => castRole? node = some role
  let form : Target → Signature := fun target =>
    { name, params := [{ name := "schema", type := target.internal }], returns := target.internal ++ view }
  have mem_picked : ∀ node, node ∈ picked ↔ node ∈ nodesIn plan file.id ∧ castRole? node = some role :=
    fun node => by simp [picked]
  have ordered : targeted.filter test = (sortBy (fun first second =>
      Text.precedes (castTo registry role first).aliasName (castTo registry role second).aliasName)
      picked).map (castTo registry role) := by
    rw [sorted, Lists.filter_sort_by listed_by_alias_trans listed_by_alias_total, filter_cast_targets tells]
    exact Lists.sort_by_map fun _ _ _ _ => rfl
  -- what a node of the role is named by
  have known : ∀ node ∈ picked, (registry.aliasesOf { node := node.id }).lookup role =
        some (castTo registry role node).aliasName ∧
      registry.internal? node.id = some (castTo registry role node).internal := by
    intro node inside
    obtain ⟨inFile, hasRole⟩ := (mem_picked node).mp inside
    obtain ⟨other, same, named, internal⟩ := named node inFile (castTo registry role node)
      (by simp [castTarget?, hasRole, castTo])
    rw [hasRole] at same
    cases same
    exact ⟨named, internal⟩
  refine ⟨_, rfl, ?_⟩
  rw [ordered, List.map_map]
  refine OverloadSet.of_sorted id (fun node => (castTo registry role node).aliasName)
    (fun node => form (castTo registry role node)) ?_ ?_ (fun node inside => (known node inside).1)
    (fun node inside => ⟨_, (known node inside).2, rfl⟩) (fun _ _ => rfl) rfl
  · intro node
    rw [← listed, ← mem_picked]
    simp
  · refine List.Nodup.map_on ?_ ((nodup_nodes_in prepared.distinct file.id).filter _)
    intro one inOne two inTwo same
    obtain ⟨_, oneFound, oneFile⟩ := (mem_nodes_in found).mp ((mem_picked one).mp inOne).1
    obtain ⟨_, twoFound, twoFile⟩ := (mem_nodes_in found).mp ((mem_picked two).mp inTwo).1
    have sameId := node_of_alias prepared.coherent (same ▸ (known one inOne).1) (known two inTwo).1
      (fun _ => prepared.placed oneFile) fun _ => prepared.placed twoFile
    rw [sameId, twoFound] at oneFound
    exact (Option.some.inj oneFound).symm

theorem cast_role?_cases {role : Role} (hasRole : castRole? node = some role) :
    (node.kind = .struct ∧ node.isGroup = false ∧ role = .reader) ∨
      (node.kind = .interface ∧ role = .client) := by
  unfold castRole? at hasRole
  split at hasRole
  · rename_i isStruct
    cases hasRole
    exact .inl ⟨isStruct.1, by simpa using isStruct.2, rfl⟩
  · split at hasRole
    · rename_i isInterface
      cases hasRole
      exact .inr ⟨isInterface, rfl⟩
    · cases hasRole

theorem cast_role?_eq_reader_iff : castRole? node = some .reader ↔
    node.kind = .struct ∧ node.isGroup = false := by
  constructor
  · intro hasRole
    rcases cast_role?_cases hasRole with ⟨kind, single, _⟩ | ⟨_, other⟩
    · exact ⟨kind, single⟩
    · exact absurd other (by decide)
  · rintro ⟨kind, single⟩
    simp [castRole?, kind, single]

theorem cast_role?_eq_client_iff : castRole? node = some .client ↔ node.kind = .interface := by
  constructor
  · intro hasRole
    rcases cast_role?_cases hasRole with ⟨_, _, other⟩ | ⟨kind, _⟩
    · exact absurd other (by decide)
    · exact kind
  · intro kind
    simp [castRole?, kind]

theorem cast_to_is_interface_iff {role : Role} (hasRole : castRole? node = some role) :
    (castTo registry role node).isInterface = true ↔ role = .client := by
  unfold castTo
  rw [decide_eq_true_iff]
  rcases cast_role?_cases hasRole with ⟨kind, _, rfl⟩ | ⟨kind, rfl⟩
  · rw [kind]
    decide
  · exact ⟨fun _ => rfl, fun _ => kind⟩

theorem cast_to_not_is_interface_iff {role : Role} (hasRole : castRole? node = some role) :
    (!(castTo registry role node).isInterface) = true ↔ role = .reader := by
  rw [Bool.not_eq_true', Bool.eq_false_iff, ne_eq, cast_to_is_interface_iff hasRole]
  rcases cast_role?_cases hasRole with ⟨_, _, rfl⟩ | ⟨_, rfl⟩ <;> decide

theorem mem_nodes_in_of_met {entries : List (Option Node)} {requested : List Id}
    (built : Graph.build entries requested = .ok plan.graph)
    (found : plan.graph.node? file.id = some file)
    (met : ∀ id, plan.graph.file id = .ok file → id ∈ plan.order) :
    node ∈ nodesIn plan file.id ↔ node ∈ plan.graph.nodes ∧ plan.graph.file node.id = .ok file := by
  rw [mem_nodes_in found]
  constructor
  · exact fun ⟨_, known, inFile⟩ => ⟨Graph.mem_of_node? known, inFile⟩
  · exact fun ⟨inGraph, inFile⟩ =>
      ⟨met node.id inFile, Graph.node?_of_mem (Graph.build_distinct built) inGraph, inFile⟩

theorem declare_any_pointer_casts {asked : Registry} (prepared : Prepared plan asked registry)
    {entries : List (Option Node)} {requested : List Id}
    (built : Graph.build entries requested = .ok plan.graph)
    (found : plan.graph.node? file.id = some file)
    (met : ∀ id, plan.graph.file id = .ok file → id ∈ plan.order)
    (standing : Standing registry file before) {declaration : Declaration}
    (returns : (AnyPointer.declare plan).Returns before declaration after) :
    ∃ body, declaration = .class anyPointerClass ["_DynamicObjectReader"] [] body ∧
      HoldsCasts plan.graph registry file body := by
  unfold AnyPointer.declare at returns
  obtain ⟨targeted, _, targets, last⟩ := Step.Returns.bind_iff.mp returns
  obtain ⟨rfl, _⟩ := Step.Returns.pure_iff.mp last
  have isStruct : ∀ node, node ∈ nodesIn plan file.id ∧ castRole? node = some .reader ↔
      node ∈ plan.graph.structsIn file := by
    intro node
    rw [mem_nodes_in_of_met built found met, cast_role?_eq_reader_iff]
    exact ⟨fun ⟨⟨inGraph, inFile⟩, kind, single⟩ => ⟨inGraph, kind, single, inFile⟩,
      fun ⟨inGraph, kind, single, inFile⟩ => ⟨⟨inGraph, inFile⟩, kind, single⟩⟩
  have isInterface : ∀ node, node ∈ nodesIn plan file.id ∧ castRole? node = some .client ↔
      node ∈ plan.graph.interfacesIn file := by
    intro node
    rw [mem_nodes_in_of_met built found met, cast_role?_eq_client_iff]
    exact ⟨fun ⟨⟨inGraph, inFile⟩, kind⟩ => ⟨inGraph, kind, inFile⟩,
      fun ⟨inGraph, kind, inFile⟩ => ⟨⟨inGraph, inFile⟩, kind⟩⟩
  obtain ⟨structs, toStructs, areStructs⟩ := casts_are_casts prepared found standing targets
    "as_struct" ".Reader" (fun target => !target.isInterface)
    (fun _ _ hasRole => cast_to_not_is_interface_iff hasRole) isStruct
  obtain ⟨interfaces, toInterfaces, areInterfaces⟩ := casts_are_casts prepared found standing targets
    "as_interface" ".Client" Target.isInterface
    (fun _ _ hasRole => cast_to_is_interface_iff hasRole) isInterface
  exact ⟨_, rfl, structs, interfaces, by rw [toStructs, toInterfaces], areStructs, areInterfaces⟩

end Stub

end SchemaStubs
