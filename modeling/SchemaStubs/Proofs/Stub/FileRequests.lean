import SchemaStubs.Proofs.Naming.Locality
import SchemaStubs.Proofs.Schema.WellScoped

/-!
What a file asks for. The requests of a file and the names it keeps for itself are fixed by the
graph: whatever was asked before and in whatever order nodes were registered, a file that is asked
once leaves the same requests behind.
-/

namespace SchemaStubs.Stub

section Requested

variable {one two : Graph}

theorem exposed_name_congr (same : one.nodes = two.nodes) (node : Node) :
    exposedName one node = exposedName two node := by
  rw [exposedName, exposedName, Graph.group_field?_congr same]

theorem scope_names_congr (same : one.nodes = two.nodes) (node : Node) :
    scopeNames one node = scopeNames two node := by
  have names : exposedName one = exposedName two := funext (exposed_name_congr same)
  simp only [scopeNames, Graph.ancestors_congr same, Graph.is_anonymous_group_congr same, names]

theorem alias_targets_congr (same : one.nodes = two.nodes) (node : Node) (internal : String) :
    aliasTargets one node internal = aliasTargets two node internal := by
  simp only [aliasTargets, Graph.is_anonymous_group_congr same]

theorem node_requests_congr (same : one.nodes = two.nodes) (node : Node) (order : Nat)
    (internal : String) :
    nodeRequests one node order internal = nodeRequests two node order internal := by
  simp only [nodeRequests, alias_targets_congr same, Graph.file_congr same, scope_names_congr same,
    exposed_name_congr same]

theorem declarations_from_congr (same : one.nodes = two.nodes) (bound : Nat) (id : Id) :
    declarationsFrom one bound id = declarationsFrom two bound id := by
  induction bound generalizing id with
  | zero => rfl
  | succ bound induction =>
      have inner : declarationsFrom one bound = declarationsFrom two bound := funext induction
      simp only [declarationsFrom, Graph.node?_congr same, inner]

end Requested

def declarationEntries (graph : Graph) (file : Id) : List (Nat × Id) :=
  (List.range (declarationOrder graph file).length).zip (declarationOrder graph file)

/-- The names of the top level of a file that no alias may take. -/
def topLevelNames (graph : Graph) (file : Node) : List String :=
  ((file.nested.filterMap graph.node?).filter fun node => node.kind != .annotationDecl).map
    fun node => safeName node.name

theorem declaration_entries_congr {one two : Graph} (same : one.nodes = two.nodes) (file : Id) :
    declarationEntries one file = declarationEntries two file := by
  simp only [declarationEntries, declarationOrder, Graph.size, same, declarations_from_congr same]

theorem top_level_names_congr {one two : Graph} (same : one.nodes = two.nodes) (file : Node) :
    topLevelNames one file = topLevelNames two file := by
  have nodes : one.node? = two.node? := funext (Graph.node?_congr same)
  rw [topLevelNames, topLevelNames, nodes]

inductive AsksAt (graph : Graph) : Nat × Id → List Request → Prop where
  | missing {entry : Nat × Id} (absent : graph.node? entry.2 = none) : AsksAt graph entry []
  | declared {entry : Nat × Id} {node : Node} {internal : String} {asked : List Request}
      (found : graph.node? entry.2 = some node) (identified : graph.Identifies node internal)
      (asks : nodeRequests graph node entry.1 internal = .ok asked) : AsksAt graph entry asked

inductive Asks (graph : Graph) : List (Nat × Id) → List Request → Prop where
  | nil : Asks graph [] []
  | cons {entry : Nat × Id} {entries : List (Nat × Id)} {asked others : List Request}
      (first : AsksAt graph entry asked) (rest : Asks graph entries others) :
      Asks graph (entry :: entries) (asked ++ others)

theorem AsksAt.unique {graph : Graph} {entry : Nat × Id} {one two : List Request}
    (first : AsksAt graph entry one) (second : AsksAt graph entry two) : one = two := by
  cases first with
  | missing absent =>
      cases second with
      | missing _ => rfl
      | declared found _ _ => rw [absent] at found; cases found
  | declared found identified asks =>
      cases second with
      | missing absent => rw [absent] at found; cases found
      | declared found' identified' asks' =>
          rw [found] at found'
          cases found'
          rw [identified.unique identified', asks'] at asks
          cases asks
          rfl

namespace Asks

variable {graph : Graph} {entries : List (Nat × Id)} {asked : List Request}

theorem unique {others : List Request} (first : Asks graph entries asked)
    (second : Asks graph entries others) : asked = others := by
  induction first generalizing others with
  | nil =>
      cases second
      rfl
  | cons here _ induction =>
      cases second with
      | cons here' rest' => rw [here.unique here', induction rest']

theorem append {more : List (Nat × Id)} {others : List Request} (first : Asks graph entries asked)
    (second : Asks graph more others) : Asks graph (entries ++ more) (asked ++ others) := by
  induction first with
  | nil => exact second
  | cons here _ induction =>
      rw [List.append_assoc]
      exact .cons here induction

theorem congr {one two : Graph} (same : one.nodes = two.nodes) (asks : Asks one entries asked) :
    Asks two entries asked := by
  induction asks with
  | nil => exact .nil
  | cons here _ induction =>
      refine .cons ?_ induction
      cases here with
      | missing absent => exact .missing (Graph.node?_congr same _ ▸ absent)
      | declared found identified asks =>
          exact .declared (Graph.node?_congr same _ ▸ found) (identified.congr same)
            (node_requests_congr same _ _ _ ▸ asks)

/-- Every request comes from one of the declarations, together with the others of that
declaration. -/
theorem source (asks : Asks graph entries asked) {wish : Request} (member : wish ∈ asked) :
    ∃ entry ∈ entries, ∃ node internal wishes, graph.node? entry.2 = some node ∧
      graph.Identifies node internal ∧ nodeRequests graph node entry.1 internal = .ok wishes ∧
      wish ∈ wishes ∧ ∀ other ∈ wishes, other ∈ asked := by
  induction asks with
  | nil => cases member
  | cons here _ induction =>
      rcases List.mem_append.mp member with inFirst | later
      · cases here with
        | missing _ => cases inFirst
        | declared found identified asks =>
            exact ⟨_, List.mem_cons_self, _, _, _, found, identified, asks, inFirst,
              fun other => List.mem_append_left _⟩
      · obtain ⟨entry, listed, node, internal, wishes, found, identified, asks, inside, others⟩ :=
          induction later
        exact ⟨entry, List.mem_cons_of_mem _ listed, node, internal, wishes, found, identified,
          asks, inside, fun other given => List.mem_append_right _ (others other given)⟩

end Asks

def wholeRequest (graph : Graph) (node : Node) (order : Nat) (internal : String) (file : Node)
    (qualifiers : List String) : Request where
  subject := { node := node.id }
  declared := node.displayName
  base := exposedName graph node
  qualifiers
  fileQualifier := Location.fileQualifier file.name
  file := file.id
  order
  targets := aliasTargets graph node internal

/-- A node with aliases asks for itself and then for the methods it has. -/
theorem node_requests_ok_iff {graph : Graph} {node : Node} {order : Nat} {internal : String}
    {wishes : List Request} : nodeRequests graph node order internal = .ok wishes ↔
      aliasTargets graph node internal = [] ∧ wishes = [] ∨
      aliasTargets graph node internal ≠ [] ∧ ∃ file qualifiers, graph.file node.id = .ok file ∧
        scopeNames graph node = .ok qualifiers ∧
        wishes = wholeRequest graph node order internal file qualifiers ::
          (exposedMethods node).map
            (methodRequest (wholeRequest graph node order internal file qualifiers) internal) := by
  unfold nodeRequests
  dsimp only
  split
  · rename_i none
    simp [List.isEmpty_iff.mp none, eq_comm]
  · rename_i some
    simp only [except_bind_ok]
    constructor
    · rintro ⟨file, inFile, qualifiers, around, same⟩
      cases same
      exact .inr ⟨by simpa using some, file, qualifiers, inFile, around, rfl⟩
    · rintro (⟨none, _⟩ | ⟨_, file, qualifiers, inFile, around, rfl⟩)
      · simp [none] at some
      · exact ⟨file, inFile, qualifiers, around, rfl⟩

/-- The requests of a node are about it, and for the file it stands in. The first is for the node
itself. -/
theorem node_requests_ok {graph : Graph} {node : Node} {order : Nat} {internal : String}
    {wishes : List Request} (asks : nodeRequests graph node order internal = .ok wishes)
    {wish : Request} (member : wish ∈ wishes) :
    wish.subject.node = node.id ∧
      (∃ file, graph.file node.id = .ok file ∧ wish.file = file.id) ∧
      ∃ whole ∈ wishes, whole.subject = { node := node.id } ∧
        whole.targets = aliasTargets graph node internal := by
  rcases node_requests_ok_iff.mp asks with ⟨_, rfl⟩ | ⟨_, file, qualifiers, inFile, _, rfl⟩
  · cases member
  · rcases List.mem_cons.mp member with rfl | inMethods
    · exact ⟨rfl, ⟨file, inFile, rfl⟩, _, List.mem_cons_self, rfl, rfl⟩
    · obtain ⟨method, _, rfl⟩ := List.mem_map.mp inMethods
      exact ⟨rfl, ⟨file, inFile, rfl⟩, _, List.mem_cons_self, rfl, rfl⟩

/-- A request of a node is for one of its own aliases or for the results of a method. -/
theorem node_requests_target {graph : Graph} {node : Node} {order : Nat} {internal : String}
    {wishes : List Request} (asks : nodeRequests graph node order internal = .ok wishes)
    {wish : Request} (member : wish ∈ wishes) {role : Role} {target : String}
    (asked : wish.targets.lookup role = some target) :
    aliasTargets graph node internal ≠ [] ∧
      ((role, target) ∈ aliasTargets graph node internal ∨
        role = .result ∧ ∃ method ∈ exposedMethods node,
          target = internal ++ "." ++ Text.pascal method.name ++ "Result") := by
  have inTargets : (role, target) ∈ wish.targets := by
    obtain ⟨front, back, whole, _⟩ := List.lookup_eq_some_iff.mp asked
    simp [whole]
  rcases node_requests_ok_iff.mp asks with ⟨_, rfl⟩ | ⟨present, file, qualifiers, _, _, rfl⟩
  · cases member
  · refine ⟨present, ?_⟩
    rcases List.mem_cons.mp member with rfl | inMethods
    · exact .inl inTargets
    · obtain ⟨method, declared, rfl⟩ := List.mem_map.mp inMethods
      cases List.mem_singleton.mp inTargets
      exact .inr ⟨rfl, method, declared, rfl⟩

theorem mem_exposed_methods {node : Node} {method : Method} :
    method ∈ exposedMethods node ↔ node.kind = .interface ∧ method ∈ node.methods := by
  unfold exposedMethods
  split <;> simp_all

/-- A registry grew by some requests and by nothing else that decides aliases. -/
structure Grown (graph : Graph) (asked : List Request) (before after : Registry) : Prop where
  requests : after.requests = before.requests ++ asked
  reserved : after.reserved = before.reserved
  aliases : after.aliases = before.aliases
  resolved : after.resolved = before.resolved
  canonical : after.Canonical graph

theorem Grown.refl {graph : Graph} {registry : Registry} (canonical : registry.Canonical graph) :
    Grown graph [] registry registry :=
  ⟨by simp, rfl, rfl, rfl, canonical⟩

theorem Grown.trans {graph : Graph} {asked more : List Request} {one two three : Registry}
    (first : Grown graph asked one two) (second : Grown graph more two three) :
    Grown graph (asked ++ more) one three :=
  ⟨by rw [second.requests, first.requests, List.append_assoc],
    second.reserved.trans first.reserved, second.aliases.trans first.aliases,
    second.resolved.trans first.resolved, second.canonical⟩

theorem request_returns {wish : Request} {before after : Registry}
    (returns : (Registry.request wish).Returns before () after) :
    after = { before with requests := before.requests ++ [wish] } := by
  unfold Registry.request at returns
  simp only [Step.Returns.bind_iff, Step.Returns.get_iff] at returns
  obtain ⟨_, _, ⟨rfl, rfl⟩, returns⟩ := returns
  split at returns
  · exact (Step.Returns.fail_iff.mp returns).elim
  · split at returns
    · exact (Step.Returns.fail_iff.mp returns).elim
    · split at returns
      · exact (Step.Returns.fail_iff.mp returns).elim
      · exact (Step.Returns.set_iff.mp returns).symm

theorem requests_returns {wishes : List Request} {before after : Registry}
    (returns : (wishes.forM Registry.request).Returns before () after) :
    after = { before with requests := before.requests ++ wishes } := by
  refine Step.Returns.forM_stages
    (fun done registry => registry = { before with requests := before.requests ++ done }) ?_
    returns (by simp)
  rintro done wish rest _ middle _ next step rfl
  rw [request_returns step]
  simp

theorem request_declaration_returns {graph : Graph} {entry : Nat × Id} {before after : Registry}
    (canonical : before.Canonical graph)
    (returns : (requestDeclaration graph entry).Returns before () after) :
    ∃ asked, AsksAt graph entry asked ∧ Grown graph asked before after := by
  unfold requestDeclaration at returns
  split at returns
  · rename_i absent
    obtain ⟨_, rfl⟩ := Step.Returns.pure_iff.mp returns
    exact ⟨[], .missing absent, .refl canonical⟩
  · rename_i node found
    have same := Graph.id_of_node? found
    rw [Step.Returns.bind_iff] at returns
    obtain ⟨internal, middle, registers, returns⟩ := returns
    obtain ⟨next, held⟩ := Registry.register_returns canonical registers
    have kept : middle.requests = before.requests ∧ middle.reserved = before.reserved ∧
        middle.aliases = before.aliases ∧ middle.resolved = before.resolved :=
      (Registry.register_from_keeps (fun registry => registry.requests = before.requests ∧
        registry.reserved = before.reserved ∧ registry.aliases = before.aliases ∧
        registry.resolved = before.resolved) (fun _ _ _ _ kept => kept) _ _).returns registers
        ⟨rfl, rfl, rfl, rfl⟩
    unfold requestNode at returns
    simp only [Step.Returns.bind_iff, Step.Returns.get_iff, Step.Returns.of_except_iff] at returns
    obtain ⟨_, _, ⟨rfl, rfl⟩, wishes, _, ⟨asks, rfl⟩, returns⟩ := returns
    rw [held, Option.getD_some] at asks
    obtain ⟨other, known, identified⟩ := next node.id internal held
    rw [same, found] at known
    cases known
    refine ⟨wishes, .declared found identified asks, ?_⟩
    cases requests_returns returns
    exact ⟨by rw [kept.1], kept.2.1, kept.2.2.1, kept.2.2.2, next⟩

theorem reserve_returns {file owner : Id} {name : String} {before after : Registry}
    (returns : (Registry.reserve file name owner).Returns before () after) :
    after = { before with reserved := after.reserved } ∧
      ∀ key, after.reserved.contains key = true ↔
        before.reserved.contains key = true ∨ key.1 = file ∧ key.2 = name := by
  have contains := Registry.reserve_contains file name owner before
  have whole := Registry.reserve_outcome file name owner before
  rw [returns] at whole contains
  refine ⟨?_, fun key => ?_⟩
  · rw [(Prod.mk.inj whole).2]
    split <;> rfl
  · rw [contains key]
    simp [Prod.ext_iff]

theorem reserve_top_level_returns {graph : Graph} {file : Node} {before after : Registry}
    (returns : (reserveTopLevel graph file).Returns before () after) :
    after = { before with reserved := after.reserved } ∧
      ∀ key, after.reserved.contains key = true ↔
        before.reserved.contains key = true ∨
          key.1 = file.id ∧ key.2 ∈ topLevelNames graph file := by
  refine Step.Returns.forM_stages
    (fun done registry => registry = { before with reserved := registry.reserved } ∧
      ∀ key, registry.reserved.contains key = true ↔ before.reserved.contains key = true ∨
        key.1 = file.id ∧ key.2 ∈ (done.filter fun node => node.kind != .annotationDecl).map
          fun node => safeName node.name) ?_ returns ⟨rfl, by simp⟩
  rintro done node rest _ middle _ next step ⟨same, contains⟩
  split at step
  · rename_i silent
    obtain ⟨_, rfl⟩ := Step.Returns.pure_iff.mp step
    refine ⟨same, fun key => ?_⟩
    rw [contains key]
    simp [silent]
  · rename_i named
    obtain ⟨grown, more⟩ := reserve_returns step
    refine ⟨?_, fun key => ?_⟩
    · rw [grown, same]
    · have kept : [node].filter (fun node => node.kind != .annotationDecl) = [node] := by
        simp [named]
      rw [more key, contains key, List.filter_append, kept, List.map_append, List.mem_append]
      simp [or_assoc, and_or_left]

theorem request_file_returns {graph : Graph} {file : Node} {before after : Registry}
    (canonical : before.Canonical graph)
    (returns : (requestFile graph file).Returns before () after) :
    ∃ asked, Asks graph (declarationEntries graph file.id) asked ∧
      after.requests = before.requests ++ asked ∧ after.aliases = before.aliases ∧
      after.resolved = before.resolved ∧ after.Canonical graph ∧
      ∀ key, after.reserved.contains key = true ↔
        before.reserved.contains key = true ∨
          key.1 = file.id ∧ key.2 ∈ topLevelNames graph file := by
  unfold requestFile at returns
  rw [Step.Returns.bind_iff] at returns
  obtain ⟨_, middle, reserves, asksAll⟩ := returns
  obtain ⟨same, contains⟩ := reserve_top_level_returns reserves
  have start : middle.Canonical graph := by
    rw [same]
    exact canonical
  obtain ⟨asked, asks, grown⟩ := Step.Returns.forM_stages
    (fun done registry => ∃ asked, Asks graph done asked ∧ Grown graph asked middle registry)
    (by
      rintro done entry rest _ reached _ next step ⟨asked, asks, grown⟩
      obtain ⟨more, asksMore, grownMore⟩ := request_declaration_returns grown.canonical step
      refine ⟨asked ++ more, asks.append ?_, grown.trans grownMore⟩
      simpa using Asks.cons asksMore .nil)
    asksAll ⟨[], .nil, .refl start⟩
  refine ⟨asked, asks, ?_, ?_, ?_, grown.canonical, ?_⟩
  · rw [grown.requests, same]
  · rw [grown.aliases, same]
  · rw [grown.resolved, same]
  · rw [grown.reserved]
    exact contains

def Sourced (graph : Graph) (registry : Registry) (wish : Request) : Prop :=
  ∃ node internal order wishes, graph.node? wish.subject.node = some node ∧
    graph.Identifies node internal ∧ nodeRequests graph node order internal = .ok wishes ∧
    wish ∈ wishes ∧ ∀ other ∈ wishes, other ∈ registry.requests

theorem Sourced.mono {graph : Graph} {before after : Registry} {wish : Request}
    (sourced : Sourced graph before wish)
    (grown : ∀ other ∈ before.requests, other ∈ after.requests) : Sourced graph after wish := by
  obtain ⟨node, internal, order, wishes, met, identified, asks, inside, others⟩ := sourced
  exact ⟨node, internal, order, wishes, met, identified, asks, inside,
    fun other given => grown other (others other given)⟩

theorem Asks.sourced {graph : Graph} {entries : List (Nat × Id)} {asked : List Request}
    (asks : Asks graph entries asked) {registry : Registry}
    (listed : ∀ other ∈ asked, other ∈ registry.requests) {wish : Request}
    (member : wish ∈ asked) : Sourced graph registry wish := by
  obtain ⟨entry, _, node, internal, wishes, met, identified, asks, inside, others⟩ :=
    asks.source member
  have subject := (node_requests_ok asks inside).1
  rw [← Graph.id_of_node? met, ← subject] at met
  exact ⟨node, internal, entry.1, wishes, met, identified, asks, inside,
    fun other given => listed other (others other given)⟩

/-- A file that was asked: its requests and the names it keeps are all there and no others. -/
structure Asked (graph : Graph) (file : Node) (registry : Registry) : Prop where
  requests : Asks graph (declarationEntries graph file.id) (registry.requestsIn file.id)
  reserved : ∀ name, registry.reserved.contains (file.id, name) = true ↔
    name ∈ topLevelNames graph file

theorem file_of_asks {graph : Graph} (wellScoped : graph.WellScoped)
    {entries : List (Option Node)} {requested : List Id}
    (built : Graph.build entries requested = .ok graph) {file : Node} {asked : List Request}
    (found : graph.node? file.id = some file) (isFile : file.kind = .file)
    (asks : Asks graph (declarationEntries graph file.id) asked) :
    ∀ wish ∈ asked, wish.file = file.id := by
  intro wish member
  obtain ⟨entry, listed, node, internal, wishes, met, _, requests, inside, _⟩ := asks.source member
  obtain ⟨_, ⟨other, inFile, same⟩, _⟩ := node_requests_ok requests inside
  have declared := declarations_from_file wellScoped built found (.file isFile)
    (List.of_mem_zip listed).2
  rw [← Graph.id_of_node? met, inFile] at declared
  cases declared
  exact same

/-- Some files were asked: every request comes from a declaration, and the names of their top levels
are kept. -/
structure Wished (graph : Graph) (files : List Node) (registry : Registry) : Prop where
  canonical : registry.Canonical graph
  aliases : registry.aliases = []
  resolved : registry.resolved = false
  sourced : ∀ wish ∈ registry.requests, Sourced graph registry wish
  kept : ∀ file ∈ files, ∀ name ∈ topLevelNames graph file,
    registry.reserved.contains (file.id, name) = true

/-- An alias of a node itself stands for a view of that node and belongs to its file. -/
theorem Wished.origin {graph : Graph} {files : List Node} {asked resolved : Registry}
    (wished : Wished graph files asked) (resolves : Registry.resolve.Returns asked () resolved)
    (coherent : resolved.Coherent) {exposed : Alias} (member : exposed ∈ resolved.aliases) {id : Id}
    (subject : exposed.subject = { node := id }) :
    ∃ node internal declaring, graph.node? id = some node ∧ graph.Identifies node internal ∧
      (aliasTargets graph node internal).lookup exposed.role = some exposed.target ∧
      graph.file id = .ok declaring ∧ exposed.file = declaring.id ∧
      ∃ wish ∈ asked.requests, wish.file = declaring.id := by
  obtain ⟨wish, given, ofSubject, ofFile, target⟩ := coherent.origin exposed member
  have requests := (Registry.resolve_requests wished.resolved resolves).1
  have givenBefore : wish ∈ asked.requests := requests ▸ given
  obtain ⟨node, internal, order, wishes, found, identified, asks, inside, others⟩ :=
    wished.sourced wish givenBefore
  obtain ⟨_, ⟨declaring, inFile, same⟩, whole, inWishes, wholeSubject, views⟩ :=
    node_requests_ok asks inside
  have isNode : wish.subject = { node := id } := ofSubject.trans subject
  rw [isNode] at found
  have nodeId : node.id = id := Graph.id_of_node? found
  -- a subject asks once, so the request of the alias is that of the node itself
  have only : wish = whole := by
    refine List.inj_on_of_nodup_map coherent.subjects given (requests ▸ others whole inWishes) ?_
    rw [isNode, wholeSubject, nodeId]
  rw [only, views] at target
  rw [nodeId] at inFile
  exact ⟨node, internal, declaring, found, identified, target, inFile, ofFile ▸ same, wish,
    givenBefore, same⟩

theorem Wished.requestFile {graph : Graph} {files : List Node} {file : Node}
    {before after : Registry} (wished : Wished graph files before)
    (returns : (requestFile graph file).Returns before () after) :
    Wished graph (files ++ [file]) after := by
  obtain ⟨asked, asks, requests, aliases, resolved, canonical, reserved⟩ :=
    request_file_returns wished.canonical returns
  refine ⟨canonical, aliases.trans wished.aliases, resolved.trans wished.resolved, ?_, ?_⟩
  · intro wish member
    rw [requests] at member
    rcases List.mem_append.mp member with earlier | later
    · apply (wished.sourced wish earlier).mono
      simp +contextual [requests]
    · exact asks.sourced (by simp +contextual [requests]) later
  · intro other member name inside
    rw [reserved (other.id, name)]
    rcases List.mem_append.mp member with earlier | last
    · exact .inl (wished.kept other earlier name inside)
    · cases List.mem_singleton.mp last
      exact .inr ⟨rfl, inside⟩

structure Inquiry (graph : Graph) (files : List Node) (registry : Registry) : Prop
    extends Wished graph files registry where
  asked : ∀ file ∈ files, Asked graph file registry
  silent : ∀ id, id ∉ files.map Node.id → registry.requestsIn id = [] ∧
    ∀ name, registry.reserved.contains (id, name) = false

theorem Inquiry.requestFile {graph : Graph} (wellScoped : graph.WellScoped)
    {entries : List (Option Node)} {requested : List Id}
    (built : Graph.build entries requested = .ok graph) {files : List Node} {file : Node}
    {before after : Registry} (inquiry : Inquiry graph files before)
    (found : graph.node? file.id = some file) (isFile : file.kind = .file)
    (new : file.id ∉ files.map Node.id)
    (returns : (requestFile graph file).Returns before () after) :
    Inquiry graph (files ++ [file]) after := by
  obtain ⟨asked, asks, requests, _, _, _, reserved⟩ :=
    request_file_returns inquiry.canonical returns
  have own := file_of_asks wellScoped built found isFile asks
  obtain ⟨unasked, unreserved⟩ := inquiry.silent file.id new
  -- the new requests are all of this file, so the other files see none of them
  have same : ∀ id, id ≠ file.id → after.requestsIn id = before.requestsIn id ∧
      ∀ name, after.reserved.contains (id, name) = before.reserved.contains (id, name) := by
    intro id apart
    have none : (asked.filter fun wish => wish.file == id) = [] := by
      refine List.filter_eq_nil_iff.mpr fun wish member => ?_
      simp [own wish member, Ne.symm apart]
    refine ⟨by simp [Registry.requestsIn, requests, none], fun name => ?_⟩
    rw [Bool.eq_iff_iff, reserved (id, name)]
    simp [apart]
  have here : Asked graph file after := by
    refine ⟨?_, fun name => ?_⟩
    · have all : (asked.filter fun wish => wish.file == file.id) = asked := by
        refine List.filter_eq_self.mpr fun wish member => ?_
        simp [own wish member]
      have whole : after.requestsIn file.id = asked := by
        unfold Registry.requestsIn at unasked ⊢
        rw [requests, List.filter_append, unasked, all, List.nil_append]
      rw [whole]
      exact asks
    · rw [reserved (file.id, name), unreserved name]
      simp
  refine ⟨inquiry.toWished.requestFile returns, ?_, ?_⟩
  · intro other member
    rcases List.mem_append.mp member with earlier | last
    · have apart : other.id ≠ file.id := fun alike =>
        new (alike ▸ List.mem_map_of_mem earlier)
      obtain ⟨wished, kept⟩ := same other.id apart
      obtain ⟨requests, names⟩ := inquiry.asked other earlier
      exact ⟨wished ▸ requests, fun name => kept name ▸ names name⟩
    · cases List.mem_singleton.mp last
      exact here
  · intro id absent
    rw [List.map_append, List.mem_append, not_or] at absent
    obtain ⟨wished, kept⟩ := same id (by simpa using absent.2)
    obtain ⟨unwished, unkept⟩ := inquiry.silent id absent.1
    exact ⟨wished.trans unwished, fun name => (kept name).trans (unkept name)⟩

theorem mem_declaring_files_iff {graph : Graph} {ids : List Id} {file : Node} :
    file ∈ declaringFiles graph ids ↔ ∃ id ∈ ids, graph.file id = .ok file := by
  unfold declaringFiles
  rw [List.mem_filterMap]
  constructor
  · rintro ⟨fileId, member, found⟩
    rw [List.mem_eraseDups, List.mem_filterMap] at member
    obtain ⟨id, listed, same⟩ := member
    rcases inFile : graph.file id with _ | other
    · simp [inFile, Except.toOption] at same
    · rw [inFile] at same
      cases same
      rw [Graph.node?_of_file inFile] at found
      cases found
      exact ⟨id, listed, inFile⟩
  · rintro ⟨id, listed, inFile⟩
    refine ⟨file.id, ?_, Graph.node?_of_file inFile⟩
    rw [List.mem_eraseDups, List.mem_filterMap]
    exact ⟨id, listed, by simp [inFile, Except.toOption]⟩

theorem filterMap_node?_sublist (graph : Graph) (ids : List Id) :
    ((ids.filterMap graph.node?).map Node.id).Sublist ids := by
  induction ids with
  | nil => exact List.Sublist.refl []
  | cons id rest induction =>
      rcases found : graph.node? id with _ | node
      · rw [List.filterMap_cons_none found]
        exact induction.cons id
      · rw [List.filterMap_cons_some found, List.map_cons, Graph.id_of_node? found]
        exact induction.cons_cons id

theorem nodup_declaring_files (graph : Graph) (ids : List Id) :
    ((declaringFiles graph ids).map Node.id).Nodup :=
  (filterMap_node?_sublist graph _).nodup (Lists.nodup_eraseDups _)

theorem request_aliases_wished {graph : Graph} {reached : List Id} {before after : Registry}
    (start : Wished graph [] before)
    (returns : (requestAliases graph reached).Returns before () after) :
    Wished graph (declaringFiles graph reached) after := by
  refine Step.Returns.forM_stages (fun done registry => Wished graph done registry) ?_ returns
    start
  intro done file rest _ middle _ next step wished
  exact wished.requestFile step

theorem request_aliases_returns {graph : Graph} (wellScoped : graph.WellScoped)
    {entries : List (Option Node)} {requested : List Id}
    (built : Graph.build entries requested = .ok graph) {reached : List Id}
    {before after : Registry} (start : Inquiry graph [] before)
    (returns : (requestAliases graph reached).Returns before () after) :
    Inquiry graph (declaringFiles graph reached) after := by
  refine Step.Returns.forM_stages (fun done registry => Inquiry graph done registry) ?_ returns
    start
  intro done file rest place middle _ next step inquiry
  have member : file ∈ declaringFiles graph reached := by simp [← place]
  obtain ⟨id, _, inFile⟩ := mem_declaring_files_iff.mp member
  refine inquiry.requestFile wellScoped built (Graph.node?_of_file inFile)
    (Graph.kind_of_file inFile) ?_ step
  have distinct := nodup_declaring_files graph reached
  rw [← place, List.map_append, List.map_cons, List.nodup_append] at distinct
  exact fun earlier => distinct.2.2 file.id earlier file.id (by simp) rfl

end SchemaStubs.Stub
