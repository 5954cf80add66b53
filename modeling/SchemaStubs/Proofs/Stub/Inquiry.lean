import SchemaStubs.Proofs.Naming.Locality
import SchemaStubs.Proofs.Schema.Forest
import SchemaStubs.Proofs.Stub.FileRequests
import SchemaStubs.Proofs.Walk.Failure

/-!
Asking for aliases in a well-scoped graph. A node is declared in one place, so it asks once, and
whatever the walk met has the aliases of its kind after the resolution. Two methods of one name would
ask for the same aliases, which nothing else rules out.
-/

namespace SchemaStubs

def Graph.DistinctMethods (graph : Graph) : Prop :=
  ∀ node ∈ graph.nodes, node.kind = .interface → (node.methods.map Method.name).Nodup

namespace Stub

variable {graph : Graph}

/-- What a node asks for is told apart by its methods, and every request is for some role. -/
theorem node_requests_distinct {node : Node} (accepted : node.check graph.nodes = .ok ())
    (distinct : node.kind = .interface → (node.methods.map Method.name).Nodup) {order : Nat}
    {internal : String} {wishes : List Request}
    (asks : nodeRequests graph node order internal = .ok wishes) :
    (wishes.map Request.subject).Nodup ∧ ∀ wish ∈ wishes, wish.targets ≠ [] := by
  unfold nodeRequests at asks
  dsimp only at asks
  split at asks
  · cases asks
    simp
  · rename_i exposed
    rw [except_bind_ok] at asks
    obtain ⟨file, _, asks⟩ := asks
    rw [except_bind_ok] at asks
    obtain ⟨qualifiers, _, asks⟩ := asks
    cases asks
    refine ⟨?_, ?_⟩
    · unfold exposedMethods
      split
      · rename_i isInterface
        have members := (Node.check_ok accepted).2.2.2
        have named : ∀ method ∈ node.methods, method.name ≠ "" := fun method member =>
          (Node.check_members_method members isInterface member).1
        rw [List.map_cons, List.nodup_cons, List.map_map]
        refine ⟨?_, ?_⟩
        · intro member
          obtain ⟨method, listed, same⟩ := List.mem_map.mp member
          exact named method listed (congrArg Subject.method same)
        · refine List.Nodup.of_map Subject.method ?_
          rw [List.map_map]
          exact distinct isInterface
      · simp
    · intro wish member
      rcases List.mem_cons.mp member with rfl | inMethods
      · simpa using exposed
      · obtain ⟨method, _, rfl⟩ := List.mem_map.mp inMethods
        simp [methodRequest]

/-- A registry in which only nodes of a list have asked for aliases so far. -/
structure Heard (graph : Graph) (ids : List Id) (registry : Registry) : Prop where
  resolved : registry.resolved = false
  canonical : registry.Canonical graph
  asked : ∀ wish ∈ registry.requests, wish.subject.node ∈ ids

theorem Heard.requestDeclaration {ids : List Id} {entry : Nat × Id} {before after : Registry}
    (heard : Heard graph ids before)
    (returns : (requestDeclaration graph entry).Returns before () after) :
    Heard graph (ids ++ [entry.2]) after := by
  obtain ⟨asked, asks, grown⟩ := request_declaration_returns heard.canonical returns
  refine ⟨grown.resolved.trans heard.resolved, grown.canonical, fun wish member => ?_⟩
  rw [grown.requests] at member
  rcases List.mem_append.mp member with earlier | here
  · exact List.mem_append_left _ (heard.asked wish earlier)
  · cases asks with
    | missing _ => cases here
    | declared found _ asks =>
        rw [(node_requests_ok asks here).1, Graph.id_of_node? found]
        simp

theorem Heard.requestDeclarations {ids : List Id} {entries : List (Nat × Id)}
    {before after : Registry} (heard : Heard graph ids before)
    (returns : (entries.forM (Stub.requestDeclaration graph)).Returns before () after) :
    Heard graph (ids ++ entries.map Prod.snd) after := by
  refine Step.Returns.forM_stages
    (fun done registry => Heard graph (ids ++ done.map Prod.snd) registry) ?_ returns
    (by simpa using heard)
  intro done entry rest _ middle _ next step earlier
  rw [List.map_append, ← List.append_assoc]
  exact earlier.requestDeclaration step

theorem Heard.reserveTopLevel {ids : List Id} {file : Node} {before after : Registry}
    (heard : Heard graph ids before)
    (returns : (reserveTopLevel graph file).Returns before () after) : Heard graph ids after := by
  rw [(reserve_top_level_returns returns).1]
  exact { heard with }

theorem map_snd_declaration_entries (graph : Graph) (file : Id) :
    (declarationEntries graph file).map Prod.snd = declarationOrder graph file := by
  unfold declarationEntries
  rw [List.map_snd_zip]
  simp

theorem Heard.requestFile {ids : List Id} {file : Node} {before after : Registry}
    (heard : Heard graph ids before)
    (returns : (Stub.requestFile graph file).Returns before () after) :
    Heard graph (ids ++ declarationOrder graph file.id) after := by
  unfold Stub.requestFile at returns
  rw [Step.Returns.bind_iff] at returns
  obtain ⟨_, middle, reserves, asks⟩ := returns
  rw [← map_snd_declaration_entries]
  exact (heard.reserveTopLevel reserves).requestDeclarations asks

theorem node_requests_given (ends : graph.ScopesEnd) {node : Node}
    (found : graph.node? node.id = some node) (order : Nat) (internal : String) :
    ∃ wishes, nodeRequests graph node order internal = .ok wishes := by
  obtain ⟨file, inFile⟩ := ends.file_ok found
  obtain ⟨scopes, around⟩ := ends.ancestors_ok found
  unfold nodeRequests
  dsimp only
  split
  · exact ⟨_, rfl⟩
  · simp [inFile, scopeNames, around, bind, Except.bind]

theorem request_node_accepted {entries : List (Option Node)} {requested : List Id}
    (built : Graph.build entries requested = .ok graph) (ends : graph.ScopesEnd)
    (methods : graph.DistinctMethods) {node : Node} (found : graph.node? node.id = some node)
    {order : Nat} {before : Registry} (fresh : before.resolved = false)
    (new : ∀ wish ∈ before.requests, wish.subject.node ≠ node.id) (fault : Fault) :
    ((requestNode graph node order).outcome before).1 ≠ .error fault := by
  intro failed
  obtain ⟨wishes, asks⟩ := node_requests_given ends found order ((before.internal? node.id).getD "")
  simp only [requestNode, Step.outcome_bind, Step.outcome_get, Step.outcome_of_except, asks]
    at failed
  obtain ⟨done, wish, rest, reached, whole, returns, refused⟩ := Step.forM_error failed
  have accepted := (Graph.build_ok built).2.2.2.2 node (Graph.mem_of_node? found)
  obtain ⟨distinct, wanted⟩ :=
    node_requests_distinct accepted (methods node (Graph.mem_of_node? found)) asks
  have member : wish ∈ wishes := by simp [← whole]
  cases requests_returns returns
  refine Registry.request_accepted ?_ (wanted wish member) (fun other earlier alike => ?_) fault
    refused
  · exact fresh
  rcases List.mem_append.mp earlier with before | here
  · exact new other before (alike ▸ (node_requests_ok asks member).1)
  · rw [← whole, List.map_append, List.map_cons, List.nodup_append] at distinct
    exact distinct.2.2 other.subject (List.mem_map_of_mem here) wish.subject (by simp) alike

/-- A node that has not asked yet is only refused where its class is. -/
theorem request_declaration_expected {entries : List (Option Node)} {requested : List Id}
    (built : Graph.build entries requested = .ok graph) (ends : graph.ScopesEnd)
    (methods : graph.DistinctMethods) {ids : List Id} {entry : Nat × Id} {before : Registry}
    (heard : Heard graph ids before) (new : entry.2 ∉ ids) {fault : Fault}
    (failed : ((requestDeclaration graph entry).outcome before).1 = .error fault) :
    fault.Expected := by
  unfold requestDeclaration at failed
  split at failed
  · cases failed
  · rename_i node found
    have same := Graph.id_of_node? found
    rcases Step.bind_error failed with early | ⟨internal, middle, registers, failed⟩
    · exact (Registry.register_fails_as ends (same ▸ found) before fault trivial early).expected
    · obtain ⟨fresh, requests⟩ :=
        (Registry.register_from_keeps (fun registry => registry.resolved = false ∧
          registry.requests = before.requests) (fun _ _ _ _ kept => kept) _ _).returns registers
          ⟨heard.resolved, rfl⟩
      refine (request_node_accepted built ends methods (same ▸ found) fresh ?_ fault failed).elim
      intro wish asked ofNode
      rw [requests] at asked
      have listed := heard.asked wish asked
      rw [ofNode, same] at listed
      exact new listed

theorem reserve_top_level_accepted (graph : Graph) (file : Node) :
    (reserveTopLevel graph file).FailsAs fun _ => False := by
  refine .of_forM fun node _ => ?_
  split
  · exact .of_pure _
  · exact .of_modify _

theorem declaration_order_apart (wellScoped : graph.WellScoped) {entries : List (Option Node)}
    {requested : List Id} (built : Graph.build entries requested = .ok graph) {one two : Node}
    (oneFound : graph.node? one.id = some one) (oneFile : one.kind = .file)
    (twoFound : graph.node? two.id = some two) (twoFile : two.kind = .file)
    (distinct : one.id ≠ two.id) {id : Id} (here : id ∈ declarationOrder graph one.id) :
    id ∉ declarationOrder graph two.id := by
  intro elsewhere
  have inOne := declarations_from_file wellScoped built oneFound (.file oneFile) here
  have inTwo := declarations_from_file wellScoped built twoFound (.file twoFile) elsewhere
  rw [inOne] at inTwo
  cases inTwo
  exact distinct rfl

/-- Asking for the aliases of all files that declare the nodes met is refused only where two classes
have one name. -/
theorem request_aliases_expected (wellScoped : graph.WellScoped) {entries : List (Option Node)}
    {requested : List Id} (built : Graph.build entries requested = .ok graph)
    (methods : graph.DistinctMethods) {reached : List Id} {before : Registry}
    (start : Heard graph [] before) {fault : Fault}
    (failed : ((requestAliases graph reached).outcome before).1 = .error fault) :
    fault.Expected := by
  obtain ⟨done, file, rest, state, whole, returns, failed⟩ := Step.forM_error failed
  have heard : Heard graph (done.flatMap fun file => declarationOrder graph file.id) state := by
    refine Step.Returns.forM_stages (fun done registry =>
      Heard graph (done.flatMap fun file => declarationOrder graph file.id) registry) ?_ returns
      start
    intro done file rest _ middle _ next step earlier
    rw [List.flatMap_append, List.flatMap_singleton]
    exact earlier.requestFile step
  have files : ∀ file ∈ declaringFiles graph reached, graph.node? file.id = some file ∧
      file.kind = .file := by
    intro file member
    obtain ⟨id, _, inFile⟩ := mem_declaring_files_iff.mp member
    exact ⟨Graph.node?_of_file inFile, Graph.kind_of_file inFile⟩
  obtain ⟨found, isFile⟩ := files file (by simp [← whole])
  -- what is declared in this file is declared in none of the files before it
  have apart : ∀ id ∈ declarationOrder graph file.id,
      id ∉ done.flatMap fun file => declarationOrder graph file.id := by
    intro id here elsewhere
    obtain ⟨other, earlier, declared⟩ := List.mem_flatMap.mp elsewhere
    obtain ⟨otherFound, otherFile⟩ := files other (by simp [← whole, earlier])
    have distinct := nodup_declaring_files graph reached
    rw [← whole, List.map_append, List.map_cons, List.nodup_append] at distinct
    have different := distinct.2.2 other.id (List.mem_map_of_mem earlier) file.id (by simp)
    exact declaration_order_apart wellScoped built found isFile otherFound otherFile different.symm
      here declared
  unfold requestFile at failed
  rcases Step.bind_error failed with early | ⟨_, middle, reserves, failed⟩
  · exact (reserve_top_level_accepted graph file state fault trivial early).elim
  · obtain ⟨earlier, entry, later, reached, split, returns, failed⟩ := Step.forM_error failed
    have order := map_snd_declaration_entries graph file.id
    unfold declarationEntries at order
    rw [← split, List.map_append, List.map_cons] at order
    have distinct := nodup_declaration_order (wellScoped.forest built) found isFile
    refine request_declaration_expected built wellScoped.ends methods
      ((heard.reserveTopLevel reserves).requestDeclarations returns) ?_ failed
    intro listed
    rcases List.mem_append.mp listed with elsewhere | before
    · exact apart entry.2 (by simp [← order]) elsewhere
    · rw [← order, List.nodup_append] at distinct
      exact distinct.2.2 entry.2 before entry.2 (by simp) rfl

theorem Asks.of_mem {entries : List (Nat × Id)} {asked : List Request}
    (asks : Asks graph entries asked) {entry : Nat × Id} (member : entry ∈ entries) {node : Node}
    (found : graph.node? entry.2 = some node) :
    ∃ internal wishes, graph.Identifies node internal ∧
      nodeRequests graph node entry.1 internal = .ok wishes ∧ ∀ wish ∈ wishes, wish ∈ asked := by
  induction asks with
  | nil => cases member
  | cons here _ induction =>
      rcases List.mem_cons.mp member with rfl | later
      · cases here with
        | missing absent =>
            rw [found] at absent
            cases absent
        | declared found' identified asks =>
            rw [found] at found'
            cases found'
            exact ⟨_, _, identified, asks, fun wish => List.mem_append_left _⟩
      · obtain ⟨internal, wishes, identified, asks, given⟩ := induction later
        exact ⟨internal, wishes, identified, asks,
          fun wish inside => List.mem_append_right _ (given wish inside)⟩

def kindRoles : NodeKind → List Role
  | .struct => [.reader, .builder]
  | .enum => [.enum]
  | .interface => [.client, .server]
  | _ => []

theorem alias_targets_roles {node : Node} (named : graph.isAnonymousGroup node = false)
    (internal : String) : (aliasTargets graph node internal).map Prod.fst = kindRoles node.kind := by
  unfold aliasTargets kindRoles
  cases node.kind <;> simp [named]

/-- What the walk met has the aliases of its kind, unless it is an anonymous group. -/
theorem Inquiry.has (wellScoped : graph.WellScoped) {order : List Id} {asked resolved : Registry}
    (inquiry : Inquiry graph (declaringFiles graph order) asked)
    (resolves : Registry.resolve.Returns asked () resolved) {node : Node} (met : node.id ∈ order)
    (found : graph.node? node.id = some node) (named : graph.isAnonymousGroup node = false)
    {role : Role} (inRole : role ∈ kindRoles node.kind) :
    resolved.Has { node := node.id } role := by
  obtain ⟨scopes, file, chain⟩ := wellScoped.ends node (Graph.mem_of_node? found)
  have inFile : graph.file node.id = .ok file :=
    Graph.file_eq_ok_iff.mpr ⟨node, scopes, found, chain⟩
  have inner : node.kind ≠ .file := by
    intro isFile
    rw [isFile] at inRole
    cases inRole
  have declared := wellScoped.housed.mem_declaration_order found inner inFile
  rw [← map_snd_declaration_entries] at declared
  obtain ⟨entry, member, same⟩ := List.mem_map.mp declared
  have whole := (inquiry.asked file (mem_declaring_files_iff.mpr ⟨node.id, met, inFile⟩)).requests
  obtain ⟨internal, wishes, _, asks, given⟩ := whole.of_mem member (same ▸ found)
  have roles := alias_targets_roles named internal
  obtain ⟨wish, first⟩ : ∃ wish, wish ∈ wishes := by
    unfold nodeRequests at asks
    dsimp only at asks
    split at asks
    · rename_i empty
      rw [List.isEmpty_iff.mp empty] at roles
      rw [← roles] at inRole
      cases inRole
    · rw [except_bind_ok] at asks
      obtain ⟨_, _, asks⟩ := asks
      rw [except_bind_ok] at asks
      obtain ⟨_, _, asks⟩ := asks
      cases asks
      exact ⟨_, List.mem_cons_self⟩
  obtain ⟨_, _, request, listed, subject, targets⟩ := node_requests_ok asks first
  have wanted : role ∈ request.roles := by
    unfold Request.roles
    rw [Role.mem_sorted, targets, roles]
    exact inRole
  rw [← subject]
  exact Registry.resolve_serves inquiry.resolved resolves (List.mem_of_mem_filter (given _ listed))
    wanted

end Stub

end SchemaStubs
