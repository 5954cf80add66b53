import SchemaStubs.Proofs.Stub.Course
import SchemaStubs.Proofs.Stub.Inquiry

/-!
What the files that were asked have asked for, together. If only every declaration is listed under its
scope, a file may list nodes of other files too; but then it asks for what these ask for themselves, and
no subject may ask twice. So in a run that succeeds all requests for a file are its own, and they are the
same in every run that meets the file.
-/

namespace SchemaStubs

namespace Stub

/-- Some files were asked: each has asked for what its declarations ask for, one file after the other, and
keeps the names of its top level. -/
structure Polled (graph : Graph) (files : List Node) (registry : Registry) : Prop where
  canonical : registry.Canonical graph
  aliases : registry.aliases = []
  resolved : registry.resolved = false
  requests : ∃ lists, registry.requests = lists.flatten ∧
    List.Forall₂ (fun file asked => Asks graph (declarationEntries graph file.id) asked) files lists
  reserved : ∀ id name, registry.reserved.contains (id, name) = true ↔
    ∃ file ∈ files, file.id = id ∧ name ∈ topLevelNames graph file

section Polled

variable {graph : Graph} {files : List Node} {registry : Registry}

theorem Unasked.polled (unasked : Unasked registry) (canonical : registry.Canonical graph) :
    Polled graph [] registry := by
  obtain ⟨requests, reserved, aliases, resolved, _⟩ := unasked
  refine ⟨canonical, aliases, resolved, ⟨[], by simp [requests], .nil⟩, fun id name => ?_⟩
  rw [reserved]
  simp [Table.contains_iff, Table.keys]

theorem Polled.requestFile {file : Node} {before after : Registry} (polled : Polled graph files before)
    (returns : (requestFile graph file).Returns before () after) :
    Polled graph (files ++ [file]) after := by
  obtain ⟨asked, asks, requests, aliases, resolved, canonical, reserved⟩ :=
    request_file_returns polled.canonical returns
  obtain ⟨lists, whole, each⟩ := polled.requests
  refine ⟨canonical, aliases.trans polled.aliases, resolved.trans polled.resolved, ?_, ?_⟩
  · exact ⟨lists ++ [asked], by simp [requests, whole], List.rel_append each (.cons asks .nil)⟩
  · intro id name
    rw [reserved (id, name), polled.reserved]
    constructor
    · rintro (⟨other, listed, same, kept⟩ | ⟨rfl, kept⟩)
      · exact ⟨other, List.mem_append_left _ listed, same, kept⟩
      · exact ⟨file, by simp, rfl, kept⟩
    · rintro ⟨other, listed, rfl, kept⟩
      rcases List.mem_append.mp listed with earlier | last
      · exact .inl ⟨other, earlier, rfl, kept⟩
      · cases List.mem_singleton.mp last
        exact .inr ⟨rfl, kept⟩

theorem request_aliases_polled {reached : List Id} {before after : Registry}
    (start : Polled graph [] before)
    (returns : (requestAliases graph reached).Returns before () after) :
    Polled graph (declaringFiles graph reached) after := by
  refine Step.Returns.forM_stages (fun done registry => Polled graph done registry) ?_ returns start
  intro done file rest _ middle _ next step polled
  exact polled.requestFile step

theorem Asks.whole_mem (housed : graph.Housed) {file : Node} {asked others : List Request}
    {entries : List (Nat × Id)} (found : graph.node? file.id = some file)
    (own : Asks graph (declarationEntries graph file.id) asked) (asks : Asks graph entries others)
    {wish : Request} (member : wish ∈ others) (forFile : wish.file = file.id) :
    ∃ subject, subject ∈ asked.map Request.subject ∧ subject ∈ others.map Request.subject := by
  obtain ⟨entry, _, node, internal, wishes, met, identified, requests, inside, given⟩ :=
    asks.source member
  obtain ⟨_, ⟨declaring, inFile, same⟩, whole, inWishes, wholeSubject, targets⟩ :=
    node_requests_ok requests inside
  have isFile : declaring = file := by
    have known := Graph.node?_of_file inFile
    rw [← same, forFile, found] at known
    exact (Option.some.inj known).symm
  subst isFile
  have present : aliasTargets graph node internal ≠ [] := by
    rcases node_requests_ok_iff.mp requests with ⟨_, rfl⟩ | ⟨present, _⟩
    · cases inside
    · exact present
  have inner : node.kind ≠ .file := by
    intro isFile
    apply present
    unfold aliasTargets
    rw [isFile]
  rw [← Graph.id_of_node? met] at met
  have declared := housed.mem_declaration_order met inner inFile
  rw [← map_snd_declaration_entries] at declared
  obtain ⟨place, listed, isNode⟩ := List.mem_map.mp declared
  obtain ⟨_, ownWishes, again, ownRequests, ownGiven⟩ := own.of_mem listed (isNode ▸ met)
  cases identified.unique again
  refine ⟨{ node := node.id }, ?_, List.mem_map.mpr ⟨whole, given whole inWishes, wholeSubject⟩⟩
  rcases node_requests_ok_iff.mp ownRequests with ⟨none, _⟩ | ⟨_, _, _, _, _, rfl⟩
  · exact absurd none present
  · exact List.mem_map.mpr ⟨_, ownGiven _ List.mem_cons_self, rfl⟩

theorem Polled.requestsIn (polled : Polled graph files registry) (housed : graph.Housed)
    (subjects : (registry.requests.map Request.subject).Nodup) {file : Node} (member : file ∈ files)
    (found : graph.node? file.id = some file) :
    ∃ asked, Asks graph (declarationEntries graph file.id) asked ∧
      registry.requestsIn file.id = asked.filter fun wish => wish.file == file.id := by
  obtain ⟨lists, whole, each⟩ := polled.requests
  obtain ⟨asked, inLists, asks⟩ := Lists.exists_of_mem_left each member
  refine ⟨asked, asks, ?_⟩
  obtain ⟨front, back, rfl⟩ := List.append_of_mem inLists
  rw [List.flatten_append, List.flatten_cons] at whole
  rw [whole, List.map_append, List.map_append] at subjects
  obtain ⟨_, later, fromFront⟩ := List.nodup_append.mp subjects
  obtain ⟨_, _, fromBack⟩ := List.nodup_append.mp later
  have silent : ∀ others ∈ front ++ back,
      (others.filter fun wish => wish.file == file.id) = [] := by
    intro others listed
    refine List.filter_eq_nil_iff.mpr fun wish inOthers forFile => ?_
    have among : others ∈ front ++ asked :: back := by
      rcases List.mem_append.mp listed with inFront | inBack
      · exact List.mem_append_left _ inFront
      · exact List.mem_append_right _ (List.mem_cons_of_mem _ inBack)
    obtain ⟨other, _, otherAsks⟩ := Lists.exists_of_mem_left each.flip among
    obtain ⟨subject, inAsked, again⟩ :=
      asks.whole_mem housed found otherAsks inOthers (by simpa using forFile)
    obtain ⟨request, inRequests, rfl⟩ := List.mem_map.mp again
    rcases List.mem_append.mp listed with inFront | inBack
    · have early : request.subject ∈ front.flatten.map Request.subject :=
        List.mem_map_of_mem (List.mem_flatten_of_mem inFront inRequests)
      exact fromFront _ early _ (List.mem_append_left _ inAsked) rfl
    · have late : request.subject ∈ back.flatten.map Request.subject :=
        List.mem_map_of_mem (List.mem_flatten_of_mem inBack inRequests)
      exact fromBack _ inAsked _ late rfl
  have none : ∀ {part : List (List Request)}, part ⊆ front ++ back →
      (part.flatten.filter fun wish => wish.file == file.id) = [] := by
    intro part inside
    rw [List.filter_flatten]
    refine List.flatten_eq_nil_iff.mpr fun block listed => ?_
    obtain ⟨others, inPart, rfl⟩ := List.mem_map.mp listed
    exact silent others (inside inPart)
  unfold Registry.requestsIn
  rw [whole, List.filter_append, List.filter_append, none (List.subset_append_left _ _),
    none (List.subset_append_right _ _), List.nil_append, List.append_nil]

end Polled

end Stub

end SchemaStubs
