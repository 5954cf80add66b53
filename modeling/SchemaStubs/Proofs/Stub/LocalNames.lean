import SchemaStubs.Proofs.Stub.Independence

/-!
The names that a stub gives to what it takes from other stubs. The aliases of a subject get their
names together when the subject is first met: under the first qualifier that leaves all of them
free, and from then on they keep them. Whatever subjects are met, and in whatever order, no two
aliases share a name, and none has a name that the file of the stub gives away, keeps, or needs for
its own imports.
-/

namespace SchemaStubs

/-- A name is held by nothing if no alias of the file has it and the file does not keep it. -/
theorem Registry.free_of_holder? {registry : Registry} {file : Id} {name : String}
    (free : registry.holder? file name = none) :
    (∀ entry ∈ registry.aliases, entry.file = file → entry.name ≠ name) ∧
      registry.reserved.get? (file, name) = none := by
  have unheld : ¬ (registry.holder? file name).isSome = true := by simp [free]
  rw [holder?_isSome_iff, not_or] at unheld
  refine ⟨fun entry member ofFile same => unheld.1 ⟨entry, member, ofFile, same⟩, ?_⟩
  simpa [Table.contains] using unheld.2

/-- The aliases of a subject have different names, because they are all given out in one file. -/
theorem Registry.Coherent.aliases_of_nodup {registry : Registry} (coherent : registry.Coherent)
    (subject : Subject) : ((registry.aliasesOf subject).map Prod.snd).Nodup := by
  unfold aliasesOf
  rw [List.map_map]
  have listed := (List.filter_sublist (p := fun assigned : Alias => assigned.subject == subject)
    (l := registry.aliases)).map fun entry => (entry.file, entry.name)
  refine List.Nodup.map_on ?_ (List.Nodup.of_map _ (coherent.names.sublist listed))
  intro one first two second same
  obtain ⟨first, ofOne⟩ := List.mem_filter.mp first
  obtain ⟨second, ofTwo⟩ := List.mem_filter.mp second
  obtain ⟨wish, asked, isOne, oneFile, _⟩ := coherent.origin one first
  obtain ⟨other, alsoAsked, isTwo, twoFile, _⟩ := coherent.origin two second
  rw [beq_iff_eq] at ofOne ofTwo
  have sameWish : wish = other := List.inj_on_of_nodup_map coherent.subjects asked alsoAsked
    (by rw [isOne, isTwo, ofOne, ofTwo])
  apply List.inj_on_of_nodup_map coherent.names first second
  exact Prod.ext (by rw [← oneFile, ← twoFile, sameWish]) same

namespace Stub

open Generation

namespace Draft

def qualifierAt (file : String) : Nat → String
  | 0 => ""
  | 1 => Location.fileQualifier file
  | 2 => Location.pathQualifier file
  | place + 3 => Location.pathQualifier file ++ toString (place + 2)

theorem qualifiers_eq (file : String) (count : Nat) :
    qualifiers file count = (List.range (count + 3)).map (qualifierAt file) := by
  rw [Nat.add_comm count 3, List.range_add, List.map_append, List.map_map]
  refine congrArg₂ (· ++ ·) rfl (List.map_congr_left fun index _ => ?_)
  rw [Function.comp_apply, Nat.add_comm 3 index]
  rfl

theorem free_qualifier_first (taken : List String) (file : String) (aliases : List (Role × String)) :
    ∃ place, freeQualifier taken file aliases = qualifierAt file place ∧
      areFree taken (qualified (qualifierAt file place) aliases) = true ∧
      ∀ earlier < place, areFree taken (qualified (qualifierAt file earlier) aliases) = false := by
  have found := free_qualifier_found taken file aliases
  rw [qualifiers_eq, List.find?_map, Option.map_eq_some_iff] at found
  obtain ⟨place, first, same⟩ := found
  rw [List.find?_range_eq_some] at first
  obtain ⟨free, _, none⟩ := first
  refine ⟨place, same.symm, free, fun earlier before => ?_⟩
  simpa using none earlier before

/-- A name that an alias of the subject can take in the stub of the file. -/
structure Open (registry : Registry) (file : Id) (draft : Draft) (subject : Subject)
    (name : String) : Prop where
  library : name ∉ libraryNames.map Prod.fst
  runtime : name ∉ runtimeNames
  /-- The file of the stub neither gives the name away nor keeps it. -/
  own : registry.holder? file name = none
  /-- It stands for no alias of another subject. -/
  others : name ∉ draft.localNames subject

def boundNames (draft : Draft) : List String :=
  (draft.locals.entries.flatMap Prod.snd).map Prod.snd

/-- Imports do not get in each other's way, nor in the way of anything else in the stub. -/
structure Apart (registry : Registry) (file : Id) (draft : Draft) : Prop where
  distinct : draft.boundNames.Nodup
  library : ∀ name ∈ draft.boundNames, name ∉ libraryNames.map Prod.fst
  runtime : ∀ name ∈ draft.boundNames, name ∉ runtimeNames
  aliases : ∀ entry ∈ registry.aliases, entry.file = file → entry.name ∉ draft.boundNames
  reserved : ∀ name ∈ draft.boundNames, registry.reserved.get? (file, name) = none

end Draft

/-- An occasion to name the aliases of a subject that the file of that name declares. -/
structure Meeting where
  subject : Subject
  declaring : String

namespace Meeting

def names (registry : Registry) (meeting : Meeting) : Step Draft (List (Role × String)) :=
  Draft.localsOf meeting.subject meeting.declaring (registry.aliasesOf meeting.subject)

def chosen (registry : Registry) (meeting : Meeting) (draft : Draft) : List (Role × String) :=
  Draft.qualified (Draft.freeQualifier (draft.takenNames meeting.subject) meeting.declaring
    (registry.aliasesOf meeting.subject)) (registry.aliasesOf meeting.subject)

def namesOfAll (registry : Registry) (meetings : List Meeting) :
    Step Draft (List (List (Role × String))) :=
  meetings.mapM (names registry)

/-- Names made with the first qualifier under which all of them are open. -/
def FirstOpen (registry : Registry) (file : Id) (draft : Draft) (meeting : Meeting)
    (names : List (Role × String)) : Prop :=
  ∃ place,
    names = Draft.qualified (Draft.qualifierAt meeting.declaring place)
      (registry.aliasesOf meeting.subject) ∧
    (∀ entry ∈ names, draft.Open registry file meeting.subject entry.2) ∧
    ∀ earlier < place, ∃ entry ∈ registry.aliasesOf meeting.subject,
      ¬ draft.Open registry file meeting.subject (Draft.qualifierAt meeting.declaring earlier ++ entry.2)

/-- The subject is a node of another file, and that file is the one that declares it. -/
def Foreign (plan : Plan) (file : Node) (meeting : Meeting) : Prop :=
  ∃ target declaring, meeting = ⟨{ node := target }, declaring.name⟩ ∧
    plan.graph.file target = .ok declaring ∧ declaring.id ≠ file.id

end Meeting

section Naming

variable {registry : Registry} {file : Node} {draft before after : Draft} {meeting : Meeting}
  {names : List (Role × String)}

theorem Reserving.open_iff (reserving : Reserving registry file draft) (subject : Subject)
    (name : String) : draft.Open registry file.id subject name ↔ name ∉ draft.takenNames subject := by
  have held : name ∈ draft.registry.namesIn draft.file.id ↔
      registry.holder? file.id name ≠ none := by
    rw [← Option.isSome_iff_ne_none, Registry.holder?_isSome_iff, mem_names_in,
      reserving.reserved, reserving.ofFile]
    unfold Registry.aliasesIn
    rw [reserving.aliases]
    simp [and_assoc]
  unfold Draft.takenNames
  simp only [List.mem_append, held, not_or, ne_eq, not_not]
  exact ⟨fun free => ⟨⟨⟨free.library, free.runtime⟩, free.own⟩, free.others⟩,
    fun free => ⟨free.1.1.1, free.1.1.2, free.1.2, free.2⟩⟩

/-- A subject that is met for the first time gets the first names that are open. -/
theorem Reserving.firstOpen (reserving : Reserving registry file before)
    (returns : (meeting.names registry).Returns before names after)
    (new : before.locals.get? meeting.subject = none) :
    meeting.FirstOpen registry file.id before names ∧
      after = { before with locals := before.locals.set meeting.subject names } := by
  rcases locals_of_returns returns with ⟨known, _⟩ | ⟨_, rfl, rfl⟩
  · rw [new] at known
    cases known
  · refine ⟨?_, rfl⟩
    obtain ⟨place, same, free, none⟩ := Draft.free_qualifier_first
      (before.takenNames meeting.subject) meeting.declaring (registry.aliasesOf meeting.subject)
    refine ⟨place, by rw [same], fun entry member => ?_, fun earlier less => ?_⟩
    · rw [same] at member
      rw [reserving.open_iff]
      exact of_decide_eq_true (List.all_eq_true.mp free entry member)
    · have blocked := none earlier less
      unfold Draft.areFree Draft.qualified at blocked
      rw [List.all_map, List.all_eq_false] at blocked
      obtain ⟨entry, member, taken⟩ := blocked
      refine ⟨entry, member, ?_⟩
      rw [reserving.open_iff]
      simpa using taken

theorem Reserving.named (reserving : Reserving registry file before)
    (returns : (meeting.names registry).Returns before names after) :
    Reserving registry file after := by
  rcases locals_of_returns returns with ⟨_, rfl⟩ | ⟨_, _, rfl⟩
  · exact reserving
  · exact { reserving with }

theorem local_names_of_unmet {subject : Subject} (unmet : draft.locals.get? subject = none) :
    draft.localNames subject = draft.boundNames := by
  unfold Draft.localNames Draft.boundNames
  rw [List.filter_eq_self.mpr]
  intro entry member
  have missed := List.lookup_eq_none_iff.mp unmet entry member
  simpa [bne, BEq.comm] using missed

theorem bound_names_set {subject : Subject} (unmet : draft.locals.get? subject = none)
    (names : List (Role × String)) :
    ({ draft with locals := draft.locals.set subject names } : Draft).boundNames =
      draft.boundNames ++ names.map Prod.snd := by
  unfold Draft.boundNames
  rw [Table.entries_set_of_none unmet]
  simp

theorem Draft.Apart.named (coherent : registry.Coherent) (reserving : Reserving registry file before)
    (apart : before.Apart registry file.id)
    (returns : (meeting.names registry).Returns before names after) : after.Apart registry file.id := by
  rcases known : before.locals.get? meeting.subject with _ | earlier
  -- names are new for a subject without names only, and they were open then
  · obtain ⟨⟨place, spelled, free, _⟩, rfl⟩ := reserving.firstOpen returns known
    have bound := bound_names_set known names
    have each : ∀ name ∈ names.map Prod.snd, before.Open registry file.id meeting.subject name := by
      intro name member
      obtain ⟨entry, listed, rfl⟩ := List.mem_map.mp member
      exact free entry listed
    have new : (names.map Prod.snd).Nodup := by
      have prefixed : names.map Prod.snd =
          ((registry.aliasesOf meeting.subject).map Prod.snd).map fun name =>
            Draft.qualifierAt meeting.declaring place ++ name := by
        rw [spelled]
        simp [Draft.qualified]
      rw [prefixed]
      refine (coherent.aliases_of_nodup _).map fun one two same => ?_
      simpa using same
    constructor
    case distinct =>
      rw [bound, List.nodup_append]
      refine ⟨apart.distinct, new, fun name old other fresh same => ?_⟩
      have others := (each other fresh).others
      rw [local_names_of_unmet known] at others
      exact others (same ▸ old)
    case library =>
      rw [bound, List.forall_mem_append]
      exact ⟨apart.library, fun name member => (each name member).library⟩
    case runtime =>
      rw [bound, List.forall_mem_append]
      exact ⟨apart.runtime, fun name member => (each name member).runtime⟩
    case aliases =>
      intro entry member ofFile inside
      rw [bound, List.mem_append] at inside
      rcases inside with old | fresh
      · exact apart.aliases entry member ofFile old
      · have own := Registry.free_of_holder? (each entry.name fresh).own
        exact own.1 entry member ofFile rfl
    case reserved =>
      rw [bound, List.forall_mem_append]
      refine ⟨apart.reserved, fun name member => ?_⟩
      exact (Registry.free_of_holder? (each name member).own).2
  · rcases locals_of_returns returns with ⟨_, rfl⟩ | ⟨unknown, _, _⟩
    · exact apart
    · rw [known] at unknown
      cases unknown

theorem named_locals (returns : (meeting.names registry).Returns before names after) :
    after.locals.get? meeting.subject = some names ∧
      (∀ subject earlier, before.locals.get? subject = some earlier →
        after.locals.get? subject = some earlier) ∧
      ∀ subject, subject ≠ meeting.subject → before.locals.get? subject = none →
        after.locals.get? subject = none := by
  rcases locals_of_returns returns with ⟨known, rfl⟩ | ⟨unmet, _, rfl⟩
  · exact ⟨known, fun _ _ same => same, fun _ _ same => same⟩
  · refine ⟨by simp, fun subject earlier same => ?_, fun subject other same => by simp [other, same]⟩
    have other : subject ≠ meeting.subject := by
      rintro rfl
      rw [unmet] at same
      cases same
    simp [other, same]

/-- A subject that was met has its names again, and nothing changes. -/
theorem names_of_met (known : draft.locals.get? meeting.subject = some names) :
    (meeting.names registry).Returns draft names draft := by
  unfold Meeting.names Draft.localsOf
  simp [Step.Returns.bind_iff, known]

theorem names_of_unmet (registry : Registry) (unmet : draft.locals.get? meeting.subject = none) :
    (meeting.names registry).Returns draft (meeting.chosen registry draft)
      { draft with locals := draft.locals.set meeting.subject (meeting.chosen registry draft) } := by
  unfold Step.Returns Meeting.names Draft.localsOf
  simp only [Step.outcome_bind, Step.outcome_get]
  rw [unmet]
  rfl

structure Met (registry : Registry) (file : Node) (before : Draft) (meetings : List Meeting)
    (after : Draft) : Prop extends Reserving registry file after where
  apart : after.Apart registry file.id
  kept : ∀ subject names, before.locals.get? subject = some names →
    after.locals.get? subject = some names
  unmet : ∀ subject, subject ∉ meetings.map Meeting.subject →
    before.locals.get? subject = none → after.locals.get? subject = none

theorem Met.of_returns (coherent : registry.Coherent) (reserving : Reserving registry file before)
    (apart : before.Apart registry file.id) {meetings : List Meeting}
    {answers : List (List (Role × String))}
    (returns : (Meeting.namesOfAll registry meetings).Returns before answers after) :
    Met registry file before meetings after := by
  refine Step.Returns.mapM_stages (fun done _ draft => Met registry file before done draft) ?_ returns
    { reserving with apart, kept := fun _ _ same => same, unmet := fun _ _ same => same }
  intro done meeting rest _ _ names middle next step met
  obtain ⟨_, kept, unmet⟩ := named_locals step
  exact { met.toReserving.named step with
    apart := met.apart.named coherent met.toReserving step
    kept := fun subject names known => kept subject names (met.kept subject names known)
    unmet := by
      intro subject absent known
      rw [List.map_append, List.mem_append, not_or] at absent
      exact unmet subject (by simpa using absent.2) (met.unmet subject absent.1 known) }

theorem names_answer (registry : Registry) (meetings : List Meeting) (draft : Draft) :
    ∃ answers after, (Meeting.namesOfAll registry meetings).Returns draft answers after := by
  induction meetings generalizing draft with
  | nil => exact ⟨[], draft, rfl⟩
  | cons meeting rest induction =>
      obtain ⟨names, middle, first⟩ := locals_of_answers meeting.subject meeting.declaring
        (registry.aliasesOf meeting.subject) draft
      obtain ⟨answers, after, others⟩ := induction middle
      refine ⟨names :: answers, after, ?_⟩
      unfold Meeting.namesOfAll at others ⊢
      rw [List.mapM_cons]
      simp only [Step.Returns.bind_iff, Step.Returns.pure_iff]
      exact ⟨names, middle, first, answers, after, others, rfl, rfl⟩

theorem Reserving.taken_names_eq (reserving : Reserving registry file draft) (subject : Subject) :
    draft.takenNames subject = libraryNames.map Prod.fst ++ runtimeNames ++
      registry.namesIn file.id ++ draft.localNames subject := by
  unfold Draft.takenNames Registry.namesIn
  rw [reserving.aliases, reserving.reserved, reserving.ofFile]

/-- What a subject is named depends on the names given before and on nothing else in the draft. -/
theorem Reserving.names_alike {other : Draft} (reserving : Reserving registry file before)
    (alike : Reserving registry file other) (same : other.locals = before.locals)
    (returns : (meeting.names registry).Returns before names after) :
    (meeting.names registry).Returns other names { other with locals := after.locals } := by
  rcases locals_of_returns returns with ⟨known, rfl⟩ | ⟨unmet, spelled, rfl⟩
  · rw [← same]
    exact names_of_met (same ▸ known)
  · have taken : other.takenNames meeting.subject = before.takenNames meeting.subject := by
      rw [alike.taken_names_eq, reserving.taken_names_eq, Draft.localNames, same]
      rfl
    have chooses := names_of_unmet registry (same ▸ unmet : other.locals.get? meeting.subject = none)
    unfold Meeting.chosen at chooses
    rw [taken, ← spelled, same] at chooses
    exact chooses

end Naming

section Drafting

variable {plan : Plan} {registry : Registry} {file : Node} {start : Draft}

/-- A draft whose imports are named as they are when its foreign subjects are met in turn. -/
structure Traced (plan : Plan) (registry : Registry) (file : Node) (start draft : Draft) : Prop
    extends Reserving registry file draft where
  met : ∃ (meetings : List Meeting) (answers : List (List (Role × String))),
    (∀ meeting ∈ meetings, meeting.Foreign plan file) ∧
      (Meeting.namesOfAll registry meetings).Returns start answers
        { start with locals := draft.locals }
  prefixed : ∀ subject names, draft.locals.get? subject = some names →
    ∃ qualifier, names = Draft.qualified qualifier (registry.aliasesOf subject)
  imports : ∀ entry ∈ draft.imports, ∃ names,
    draft.locals.get? { node := entry.owner } = some names ∧ entry.localName ∈ names.map Prod.snd

theorem Traced.named (starts : Reserving registry file start) {draft next : Draft}
    (traced : Traced plan registry file start draft) {meeting : Meeting}
    (foreign : meeting.Foreign plan file) {names : List (Role × String)}
    (returns : (meeting.names registry).Returns draft names next) :
    Traced plan registry file start next := by
  obtain ⟨_, kept, _⟩ := named_locals returns
  have standing := traced.toReserving.named returns
  have drafted : next.imports = draft.imports := by
    rcases locals_of_returns returns with ⟨_, rfl⟩ | ⟨_, _, rfl⟩ <;> rfl
  refine { standing with met := ?_, prefixed := ?_, imports := ?_ }
  -- the draft has more in it than the names, but the naming would be the same without that
  · obtain ⟨meetings, answers, each, meets⟩ := traced.met
    have alike : Reserving registry file { start with locals := draft.locals } := { starts with }
    refine ⟨meetings ++ [meeting], answers ++ [names], ?_, ?_⟩
    · rw [List.forall_mem_append, List.forall_mem_singleton]
      exact ⟨each, foreign⟩
    · unfold Meeting.namesOfAll at meets ⊢
      rw [List.mapM_append, List.mapM_cons, List.mapM_nil]
      simp only [Step.Returns.bind_iff, Step.Returns.pure_iff]
      exact ⟨answers, _, meets, [names], _,
        ⟨names, _, traced.toReserving.names_alike alike rfl returns, [], _, ⟨rfl, rfl⟩, rfl, rfl⟩, rfl,
        rfl⟩
  · intro subject found known
    rcases locals_of_returns returns with ⟨_, rfl⟩ | ⟨_, rfl, rfl⟩
    · exact traced.prefixed subject found known
    · rw [Table.get?_set] at known
      split at known
      · rename_i same
        cases known
        exact ⟨_, by rw [same]⟩
      · exact traced.prefixed subject found known
  · intro entry member
    rw [drafted] at member
    obtain ⟨found, known, listed⟩ := traced.imports entry member
    exact ⟨found, kept _ _ known, listed⟩

theorem lookup_qualified (qualifier : String) (aliases : List (Role × String)) (role : Role) :
    (Draft.qualified qualifier aliases).lookup role =
      (aliases.lookup role).map fun name => qualifier ++ name := by
  induction aliases with
  | nil => rfl
  | cons entry rest induction =>
      obtain ⟨other, name⟩ := entry
      rw [Draft.qualified, List.map_cons, List.lookup_cons, List.lookup_cons]
      cases role == other with
      | true => rfl
      | false => exact induction

theorem import_aliases_traced (starts : Reserving registry file start) {target : Id}
    {declaring : Node} (inFile : plan.graph.file target = .ok declaring)
    (elsewhere : declaring.id ≠ file.id) (roles : List Role) :
    (Draft.importAliases plan target declaring roles).Keeps (Traced plan registry file start) := by
  have same : ∀ {draft : Draft}, Traced plan registry file start draft →
      draft.registry.aliasesOf { node := target } = registry.aliasesOf { node := target } := by
    intro draft traced
    unfold Registry.aliasesOf
    rw [traced.aliases]
  refine import_aliases_keeps_of_names (fun _ traced => traced.resolved) ?_ ?_ roles
  · intro draft names next traced returns
    rw [same traced] at returns
    have foreign : Meeting.Foreign plan file ⟨{ node := target }, declaring.name⟩ :=
      ⟨target, declaring, rfl, inFile, elsewhere⟩
    exact traced.named starts foreign returns
  · intro draft names role name traced known found
    rw [same traced] at found
    obtain ⟨qualifier, spelled⟩ := traced.prefixed _ names known
    refine { traced with imports := ?_ }
    intro entry member
    rcases mem_add member with rfl | earlier
    · have listed : names.lookup role = some (qualifier ++ name) := by
        rw [spelled, lookup_qualified, found]
        rfl
      obtain ⟨front, back, whole, _⟩ := List.lookup_eq_some_iff.mp listed
      rw [listed, Option.getD_some]
      exact ⟨names, known, by simp [whole]⟩
    · exact traced.imports entry earlier

theorem traced_frame (located : plan.Located) (starts : Reserving registry file start) :
    Frame plan (Traced plan registry file start) where
  targets target reference known := (located target reference known).1
  markReferenced _ _ traced := { traced with }
  anyPointer _ traced := { traced with }
  importAliases target reference declaring roles draft known found elsewhere traced := by
    obtain ⟨_, other, inFile, same⟩ := located target reference known
    rw [same, Graph.node?_of_file inFile] at found
    cases found
    rw [same, traced.ofFile] at elsewhere
    exact import_aliases_traced starts inFile elsewhere roles draft traced
  note _ _ traced := { traced with }
  markDeclared _ _ traced := { traced with }
  bind _ _ := bind_keeps fun _ _ _ traced => { traced with }
  getAlias := get_alias_keeps fun _ traced => traced.resolved

/-- A run that has given out its aliases and drafted the stubs of some files comes to the next. -/
structure ComesTo (options : Options) (graph : Graph) (plan : Plan) (resolved : Registry)
    (file : Node) (current : Registry) : Prop where
  resolves : ∃ walk surveyed asked,
    (survey graph graph.requested.eraseDups).Returns {} walk surveyed ∧
    (requestAliases graph walk.order).Returns surveyed () asked ∧
    Registry.resolve.Returns asked () resolved ∧
    plan = { graph, options, order := walk.order, references := walk.references }
  drafts : ∃ done id rest drafts, graph.requested.eraseDups = done ++ id :: rest ∧
    (done.foldlM (addFile plan) []).Returns resolved drafts current ∧ graph.file id = .ok file

/-- Up to there the aliases and the reserved names are those of the resolution. -/
theorem ComesTo.fresh {options : Options} {graph : Graph} {resolved current : Registry}
    (comes : ComesTo options graph plan resolved file current) :
    plan.Located ∧ resolved.Coherent ∧
      Reserving resolved file { registry := current, file } := by
  obtain ⟨walk, surveyed, asked, surveys, asks, resolves, rfl⟩ := comes.resolves
  obtain ⟨done, id, rest, drafts, _, delivers, _⟩ := comes.drafts
  have prepared := prepared_of_returns options surveys asks resolves
  obtain ⟨reserving, _⟩ := drafts_reserving prepared.plan_located prepared.resolved delivers
  exact ⟨prepared.plan_located, prepared.coherent, reserving file⟩

theorem comes_to_of_returns {options : Options} {graph : Graph} {drafts : List Drafted}
    {registry : Registry} (returns : (draftAll options graph).Returns {} drafts registry)
    {done rest : List Id} {id : Id} (place : graph.requested.eraseDups = done ++ id :: rest)
    (inFile : graph.file id = .ok file) :
    ∃ plan resolved current, ComesTo options graph plan resolved file current := by
  obtain ⟨walk, surveyed, asked, resolved, surveys, asks, resolves, delivers⟩ :=
    draft_all_returns returns
  rw [place, List.foldlM_append, Step.Returns.bind_iff] at delivers
  obtain ⟨drafted, current, earlier, _⟩ := delivers
  exact ⟨_, resolved, current, ⟨walk, surveyed, asked, surveys, asks, resolves, rfl⟩,
    done, id, rest, drafted, place, earlier, inFile⟩

end Drafting

/-- Whatever foreign subjects a stub meets, and in whatever order: a subject that is met for the
first time gets its names under the first qualifier that leaves them all open, it has the same names
ever after, and the imports stay apart. Composing the stub, as far as it gets, names its imports by
such meetings. -/
theorem foreign_names_first_open {options : Options} {graph : Graph} {plan : Plan}
    {resolved current : Registry} {file : Node}
    (comes : ComesTo options graph plan resolved file current) :
    (∀ (early : List Meeting) (meeting : Meeting) (late : List Meeting),
      ∃ answers met names next others reached,
      (Meeting.namesOfAll resolved early).Returns { registry := current, file } answers met ∧
      (meeting.names resolved).Returns met names next ∧
      (Meeting.namesOfAll resolved late).Returns next others reached ∧
      (meeting.subject ∉ early.map Meeting.subject → meeting.FirstOpen resolved file.id met names) ∧
      (∀ declaring, (Meeting.names resolved ⟨meeting.subject, declaring⟩).Returns reached names
        reached) ∧
      reached.Apart resolved file.id) ∧
    ∃ (reached : Draft) (meetings : List Meeting) (answers : List (List (Role × String))),
      ((compose plan file).outcome { registry := current, file }).2 = reached ∧
      (∀ meeting ∈ meetings, meeting.Foreign plan file) ∧
      (Meeting.namesOfAll resolved meetings).Returns { registry := current, file } answers
        { registry := current, file, locals := reached.locals } ∧
      (∀ entry ∈ reached.imports, ∃ names,
        reached.locals.get? { node := entry.owner } = some names ∧
          entry.localName ∈ names.map Prod.snd) ∧
      reached.registry.aliases = resolved.aliases ∧ reached.registry.reserved = resolved.reserved ∧
      reached.Apart resolved file.id := by
  obtain ⟨located, coherent, fresh⟩ := comes.fresh
  have begins : Draft.Apart resolved file.id { registry := current, file } := by
    constructor <;> simp [Draft.boundNames]
  refine ⟨fun early meeting late => ?_, ?_⟩
  · obtain ⟨answers, met, earlier⟩ := names_answer resolved early { registry := current, file }
    obtain ⟨names, next, here⟩ := locals_of_answers meeting.subject meeting.declaring
      (resolved.aliasesOf meeting.subject) met
    obtain ⟨others, reached, later⟩ := names_answer resolved late next
    have before := Met.of_returns coherent fresh begins earlier
    have standing := before.toReserving.named here
    have after := Met.of_returns coherent standing
      (before.apart.named coherent before.toReserving here) later
    refine ⟨answers, met, names, next, others, reached, earlier, here, later, fun new => ?_,
      fun declaring => ?_, after.apart⟩
    · exact (before.toReserving.firstOpen here (before.unmet _ new rfl)).1
    · exact names_of_met (after.kept _ _ (named_locals here).1)
  · have start : Traced plan resolved file { registry := current, file }
        { registry := current, file } :=
      { fresh with
        met := ⟨[], [], by simp, rfl⟩
        prefixed := by
          intro subject names known
          cases known
        imports := by simp }
    have traced := (traced_frame located fresh).compose file _ start
    obtain ⟨meetings, answers, foreign, meets⟩ := traced.met
    have met := Met.of_returns coherent fresh begins meets
    refine ⟨_, meetings, answers, rfl, foreign, meets, traced.imports, traced.aliases,
      traced.reserved, ?_⟩
    exact { met.apart with }

def painter : Node :=
  { id := 5, kind := .file, name := "main", displayName := "main", nested := [6, 7, 8] }

/-- Three files with an enumeration of one name, the last of which uses all three. -/
def palette : Graph where
  nodes := [
    { id := 1, kind := .file, name := "a", displayName := "a", nested := [2] },
    { id := 2, kind := .enum, name := "Color", displayName := "Color", scope := 1,
      enumerants := ["red"] },
    { id := 3, kind := .file, name := "sub/a", displayName := "sub/a", nested := [4] },
    { id := 4, kind := .enum, name := "Color", displayName := "Color", scope := 3,
      enumerants := ["red"] },
    painter,
    { id := 6, kind := .enum, name := "Color", displayName := "Color", scope := 5,
      enumerants := ["red"] },
    { id := 7, kind := .const, name := "one", displayName := "one", scope := 5,
      constType := some { kind := .enum, target := 2 } },
    { id := 8, kind := .const, name := "two", displayName := "two", scope := 5,
      constType := some { kind := .enum, target := 4 } }]
  requested := [5]

/-- The stub of a file with a color of its own takes the colors of two others, whose files have one
stem. -/
theorem foreign_names_first_open_palette :
    ∃ drafts registry, (draftAll {} palette).Returns {} drafts registry ∧
      drafts.map (fun drafted => drafted.imports.map Import.clause) =
        [["ColorEnum as AColorEnum", "ColorEnum as SubAColorEnum"]] ∧
      ∃ plan resolved current, ComesTo {} palette plan resolved painter current ∧
        ∃ names next others reached,
          (Meeting.names resolved ⟨{ node := 2 }, "a"⟩).Returns
            { registry := current, file := painter } names next ∧
          (Meeting.namesOfAll resolved [⟨{ node := 4 }, "sub/a"⟩]).Returns next others reached ∧
          Meeting.FirstOpen resolved painter.id { registry := current, file := painter }
            ⟨{ node := 2 }, "a"⟩ names ∧
          reached.Apart resolved painter.id := by
  have seen : (((draftAll {} palette).outcome {}).1.toOption.any fun drafts =>
      drafts.map (fun drafted => drafted.imports.map Import.clause) ==
        [["ColorEnum as AColorEnum", "ColorEnum as SubAColorEnum"]]) = true := by decide +kernel
  obtain ⟨drafts, registry, returns, clauses⟩ := Step.Returns.of_any seen
  have place : palette.requested.eraseDups = [] ++ painter.id :: [] := by decide +kernel
  have inFile : palette.file painter.id = .ok painter := rfl
  obtain ⟨plan, resolved, current, comes⟩ := comes_to_of_returns returns place inFile
  obtain ⟨_, met, names, next, others, reached, first, here, later, chosen, _, apart⟩ :=
    (foreign_names_first_open comes).1 [] ⟨{ node := 2 }, "a"⟩ [⟨{ node := 4 }, "sub/a"⟩]
  obtain ⟨_, rfl⟩ := Step.Returns.pure_iff.mp first
  exact ⟨drafts, registry, returns, eq_of_beq clauses, plan, resolved, current, comes, names, next,
    others, reached, here, later, chosen (by simp), apart⟩

end Stub

end SchemaStubs
