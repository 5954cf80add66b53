import SchemaStubs.Proofs.Naming.AliasTable
import SchemaStubs.Proofs.Naming.Locality

/-!
Priority among the requests for aliases. Requests are served by the length of their declared names,
then by their places in the file, then in the order they were made; each gets the first of its bases
that what was served before left free. A request without such a base ends the service, and the
requests before it keep what they got.
-/

namespace SchemaStubs

namespace Request

/-- The bases of a request: the local name, the same behind the names of its scopes, and that behind
the name of the file. -/
def levels (wish : Request) : List String :=
  let qualified := Text.concat wish.qualifiers ++ wish.base
  [wish.base, qualified, wish.fileQualifier ++ qualified]

/-- Leaving out empty and repeated bases does not change which one comes first. -/
theorem find?_candidates (wish : Request) (test : String → Bool) :
    wish.candidates.find? test = wish.levels.find? fun base => base != "" && test base := by
  have whole : wish.candidates = (wish.levels.filter fun base => base != "").eraseDups := rfl
  rw [whole, Lists.find?_eraseDups, List.find?_filter]
  simp only [Bool.decide_and, Bool.decide_eq_true]

end Request

namespace Registry

def turn (registry : Registry) (wish : Request) : Nat :=
  (registry.requests.map Request.subject).idxOf wish.subject

def Outranks (registry : Registry) (one two : Request) : Prop :=
  Text.size one.declared < Text.size two.declared ∨
    Text.size one.declared = Text.size two.declared ∧
      (one.order < two.order ∨ one.order = two.order ∧ registry.turn one < registry.turn two)

theorem Outranks.asymm {registry : Registry} {one two : Request} (before : registry.Outranks one two) :
    ¬registry.Outranks two one := by
  unfold Outranks at *
  omega

/-- A name that a request finds taken: its file reserved it, or a request of the file that outranks
it got it. -/
def Preempted (before reached : Registry) (wish : Request) (name : String) : Prop :=
  before.reserved.contains (wish.file, name) = true ∨
    ∃ other ∈ before.requests, before.Outranks other wish ∧ other.file = wish.file ∧
      ∃ role, (role, name) ∈ reached.aliasesOf other.subject

/-- Every base of a request is empty or has a name that is taken. -/
def Blocked (before reached : Registry) (wish : Request) : Prop :=
  ∀ base ∈ wish.levels, base = "" ∨
    ∃ role ∈ wish.roles, before.Preempted reached wish (base ++ role.word)

structure ByPriority (before : Registry) (result : Except Fault Unit) (reached : Registry) : Prop where
  /-- Subjects get their aliases in the order of the requests. -/
  inOrder : ∃ queue : List Request, queue.Perm before.requests ∧ queue.Pairwise before.Outranks ∧
    reached.assignedSubjects <+: queue.map Request.subject
  /-- All aliases of a subject have one base, the first whose names are not taken. -/
  firstFree : ∀ wish ∈ before.requests, wish.subject ∈ reached.assignedSubjects →
    ∃ passed base rest, wish.levels = passed ++ base :: rest ∧ base ≠ "" ∧
      reached.aliasesOf wish.subject = wish.roles.map (fun role => (role, base ++ role.word)) ∧
      (∀ role ∈ wish.roles, ¬before.Preempted reached wish (base ++ role.word)) ∧
      ∀ other ∈ passed, other = "" ∨
        ∃ role ∈ wish.roles, before.Preempted reached wish (other ++ role.word)
  fails : (∃ fault, result = .error fault) ↔ ∃ wish ∈ before.requests, before.Blocked reached wish
  /-- The first request without a base is where the service stops. -/
  stops : ∀ wish ∈ before.requests, before.Blocked reached wish →
    (∀ other ∈ before.requests, before.Outranks other wish → ¬before.Blocked reached other) →
    ∀ other ∈ before.requests, other.subject ∈ reached.assignedSubjects ↔ before.Outranks other wish
  serves : result = .ok () → ∀ wish ∈ before.requests, wish.subject ∈ reached.assignedSubjects

section Queue

variable {registry : Registry}

theorem turn_lt_of_sublist (distinct : (registry.requests.map Request.subject).Nodup)
    {one two : Request} (made : [one, two].Sublist registry.requests) :
    registry.turn one < registry.turn two := by
  obtain ⟨front, back, whole, inFront, inBack⟩ := List.cons_sublist_iff.mp made
  rw [List.singleton_sublist] at inBack
  unfold turn
  rw [whole, List.map_append] at distinct ⊢
  have first : one.subject ∈ front.map Request.subject := List.mem_map_of_mem inFront
  have second : two.subject ∉ front.map Request.subject := by
    intro member
    exact List.disjoint_of_nodup_append distinct member (List.mem_map_of_mem inBack)
  rw [List.idxOf_append_of_mem first, List.idxOf_append_of_notMem second]
  have bound := List.idxOf_lt_length_of_mem first
  omega

theorem queue_perm : registry.queue.Perm registry.requests :=
  Lists.sort_by_perm _ _

theorem queue_pairwise (distinct : (registry.requests.map Request.subject).Nodup) :
    registry.queue.Pairwise registry.Outranks := by
  have stable := Lists.sort_by_stable served_before_trans served_before_total registry.requests
  apply stable.imp
  rintro one two ⟨before, kept⟩
  have later := fun back => turn_lt_of_sublist distinct (kept back)
  simp only [Request.servedBefore, Bool.or_eq_true, Bool.and_eq_true, decide_eq_true_eq,
    beq_iff_eq] at before later
  unfold Outranks
  omega

/-- What comes before a request of the queue are the requests that outrank it. -/
theorem mem_done_iff (distinct : (registry.requests.map Request.subject).Nodup)
    {done rest : List Request} {wish other : Request} (queue : done ++ wish :: rest = registry.queue)
    (asked : other ∈ registry.requests) : other ∈ done ↔ registry.Outranks other wish := by
  have pairs := queue_pairwise distinct
  rw [← queue, List.pairwise_append, List.pairwise_cons] at pairs
  obtain ⟨_, ⟨later, _⟩, earlier⟩ := pairs
  constructor
  · intro member
    exact earlier other member wish List.mem_cons_self
  · intro outranks
    have inQueue : other ∈ done ++ wish :: rest := queue ▸ queue_perm.mem_iff.mpr asked
    rcases List.mem_append.mp inQueue with inDone | inRest
    · exact inDone
    · rcases List.mem_cons.mp inRest with rfl | inRest
      · exact absurd outranks outranks.asymm
      · exact absurd outranks (later other inRest).asymm

end Queue

section Service

def IsOpen (registry : Registry) (wish : Request) (base : String) : Prop :=
  base ≠ "" ∧ ∀ role ∈ wish.roles, (registry.holder? wish.file (base ++ role.word)).isSome = false

def Takes (registry : Registry) (wish : Request) (base : String) : Prop :=
  registry.IsOpen wish base ∧ ∃ passed rest, wish.levels = passed ++ base :: rest ∧
    ∀ other ∈ passed, ¬registry.IsOpen wish other

theorem first_free_eq_ok_iff {registry : Registry} {file : Id} {roles : List Role}
    {obstacle base : String} {bases : List String} :
    registry.firstFree file roles obstacle bases = .ok base ↔
      bases.find? (fun base => (registry.obstacle? file roles base).isNone) = some base := by
  induction bases generalizing obstacle with
  | nil => simp [firstFree]
  | cons first rest induction =>
      rw [firstFree, List.find?_cons]
      rcases registry.obstacle? file roles first with _ | found
      · simp
      · simp [induction]

theorem is_open_iff {registry : Registry} {wish : Request} {base : String} :
    (base != "" && (registry.obstacle? wish.file wish.roles base).isNone) = true ↔
      registry.IsOpen wish base := by
  rw [Bool.and_eq_true, Option.isNone_iff_eq_none, obstacle?_eq_none_iff, bne_iff_ne]
  rfl

theorem assign_takes_iff {registry : Registry} {wish : Request} {base : String} :
    registry.firstFree wish.file wish.roles "" wish.candidates = .ok base ↔
      registry.Takes wish base := by
  rw [first_free_eq_ok_iff, Request.find?_candidates, List.find?_eq_some_iff_append, is_open_iff]
  simp only [Bool.not_eq_true', ← Bool.not_eq_true, is_open_iff]
  rfl

theorem not_is_open_of_first_free {registry : Registry} {wish : Request} {obstacle : String}
    (failed : registry.firstFree wish.file wish.roles "" wish.candidates = .error obstacle) :
    ∀ base ∈ wish.levels, ¬registry.IsOpen wish base := by
  have none : wish.levels.find? (fun base =>
      base != "" && (registry.obstacle? wish.file wish.roles base).isNone) = none := by
    rw [← Request.find?_candidates]
    rcases found : wish.candidates.find? fun base =>
      (registry.obstacle? wish.file wish.roles base).isNone with _ | base
    · rfl
    · rw [first_free_eq_ok_iff.mpr found] at failed
      cases failed
  intro base member
  rw [← is_open_iff]
  exact List.find?_eq_none.mp none base member

/-- What requests were given, each with its base, in the order they were served. -/
abbrev Grants := List (Request × String)

def Grants.aliases (grants : Grants) : List Alias :=
  grants.flatMap fun grant => grant.1.aliases grant.2

theorem serve_grants {queue : List Request} {before reached : Registry}
    (returns : (queue.forM assign).Returns before () reached) :
    ∃ grants : Grants, grants.map Prod.fst = queue ∧
      reached.aliases = before.aliases ++ grants.aliases ∧ reached.reserved = before.reserved ∧
      ∀ front wish base back, grants = front ++ (wish, base) :: back →
        ∃ state : Registry, state.aliases = before.aliases ++ Grants.aliases front ∧
          state.reserved = before.reserved ∧ state.Takes wish base := by
  induction queue generalizing before with
  | nil =>
      obtain ⟨_, rfl⟩ := Step.Returns.pure_iff.mp returns
      refine ⟨[], rfl, by simp [Grants.aliases], rfl, ?_⟩
      intro front wish base back whole
      simp at whole
  | cons wish rest induction =>
      rw [Step.forM_cons, Step.Returns.bind_iff] at returns
      obtain ⟨_, middle, first, later⟩ := returns
      unfold Step.Returns at first
      rw [assign_outcome] at first
      rcases found : before.firstFree wish.file wish.roles "" wish.candidates with obstacle | base
      · rw [found] at first
        cases first
      · rw [found] at first
        cases first
        obtain ⟨grants, requests, aliases, reserved, each⟩ := induction later
        refine ⟨(wish, base) :: grants, by rw [List.map_cons, requests], ?_, reserved, ?_⟩
        · rw [aliases]
          simp [withAliases, Grants.aliases]
        · intro front other given back whole
          cases front with
          | nil =>
              cases whole
              exact ⟨before, by simp [Grants.aliases], rfl, assign_takes_iff.mp found⟩
          | cons grant front =>
              cases whole
              obtain ⟨state, held, kept, takes⟩ := each front other given back rfl
              refine ⟨state, ?_, kept, takes⟩
              rw [held]
              simp [withAliases, Grants.aliases]

/-- A service goes through the queue up to a request that has no open base, if there is one. -/
theorem serve_split (queue : List Request) (before : Registry) :
    ∃ done rest reached, done ++ rest = queue ∧ (done.forM assign).Returns before () reached ∧
      ((queue.forM assign).outcome before).2 = reached ∧
      (rest = [] ∧ ((queue.forM assign).outcome before).1 = .ok () ∨
        ∃ wish later fault, rest = wish :: later ∧
          ((queue.forM assign).outcome before).1 = .error fault ∧
          ∀ base ∈ wish.levels, ¬reached.IsOpen wish base) := by
  induction queue generalizing before with
  | nil => exact ⟨[], [], before, rfl, rfl, rfl, .inl ⟨rfl, rfl⟩⟩
  | cons wish queue induction =>
      rw [Step.forM_cons, Step.outcome_bind, assign_outcome]
      rcases found : before.firstFree wish.file wish.roles "" wish.candidates with obstacle | base
      · refine ⟨[], wish :: queue, before, rfl, rfl, rfl, .inr ⟨wish, queue, _, rfl, rfl, ?_⟩⟩
        exact not_is_open_of_first_free found
      · obtain ⟨done, rest, reached, whole, returns, ends, how⟩ := induction (before.withAliases wish base)
        refine ⟨wish :: done, rest, reached, by rw [← whole]; rfl, ?_, ends, how⟩
        rw [Step.forM_cons, Step.Returns.bind_iff]
        refine ⟨(), before.withAliases wish base, ?_, returns⟩
        unfold Step.Returns
        rw [assign_outcome, found]

structure Service (before reached : Registry) (grants : Grants) (unserved : List Request) : Prop where
  place : grants.map Prod.fst ++ unserved = before.queue
  aliases : reached.aliases = grants.aliases
  each : ∀ front wish base back, grants = front ++ (wish, base) :: back →
    ∃ state : Registry, state.aliases = Grants.aliases front ∧ state.reserved = before.reserved ∧
      state.Takes wish base

theorem resolve_service {before : Registry} (fresh : before.resolved = false)
    (none : before.aliases = []) :
    ∃ grants unserved, Service before (resolve.outcome before).2 grants unserved ∧
      (unserved = [] ∧ (resolve.outcome before).1 = .ok () ∨
        ∃ wish later fault, unserved = wish :: later ∧ (resolve.outcome before).1 = .error fault ∧
          ∃ state : Registry, state.aliases = grants.aliases ∧ state.reserved = before.reserved ∧
            ∀ base ∈ wish.levels, ¬state.IsOpen wish base) := by
  obtain ⟨done, rest, reached, whole, returns, ends, how⟩ :=
    serve_split before.queue { before with resolved := true }
  obtain ⟨grants, requests, aliases, reserved, each⟩ := serve_grants returns
  have same : (resolve.outcome before).2.aliases = reached.aliases ∧ (resolve.outcome before).1 =
      ((before.queue.forM assign).outcome { before with resolved := true }).1 := by
    rw [resolve_of_unresolved fresh, Step.outcome_bind]
    rcases served : (before.queue.forM assign).outcome { before with resolved := true }
      with ⟨result, last⟩
    rw [served] at ends
    cases ends
    cases result with
    | error fault => exact ⟨rfl, rfl⟩
    | ok value => exact ⟨rfl, rfl⟩
  change reached.aliases = before.aliases ++ _ at aliases
  change reached.reserved = before.reserved at reserved
  rw [none, List.nil_append] at aliases
  refine ⟨grants, rest, ⟨by rw [requests, whole], same.1.trans aliases, ?_⟩, ?_⟩
  · intro front wish base back split
    obtain ⟨state, held, kept, takes⟩ := each front wish base back split
    change state.aliases = before.aliases ++ _ at held
    rw [none, List.nil_append] at held
    exact ⟨state, held, kept, takes⟩
  · rw [same.2]
    rcases how with ⟨empty, passed⟩ | ⟨wish, later, fault, split, failed, closed⟩
    · exact .inl ⟨empty, passed⟩
    · exact .inr ⟨wish, later, fault, split, failed, reached, aliases, reserved, closed⟩

theorem Grants.mem_aliases_iff {grants : Grants} {entry : Alias} :
    entry ∈ grants.aliases ↔
      ∃ grant ∈ grants, ∃ role ∈ grant.1.roles, grant.1.aliasFor grant.2 role = entry := by
  unfold Grants.aliases
  simp only [List.mem_flatMap, Request.mem_aliases_iff]

/-- Where each subject was given one base, its aliases are those under that base. -/
theorem Grants.filter_aliases {grants : Grants}
    (distinct : (grants.map fun grant => grant.1.subject).Nodup) {wish : Request} {base : String}
    (given : (wish, base) ∈ grants) :
    (grants.aliases.filter fun entry => entry.subject == wish.subject) = wish.aliases base := by
  have own : ∀ (other : Request) (base : String), other.subject = wish.subject →
      ((other.aliases base).filter fun entry => entry.subject == wish.subject) =
        other.aliases base := by
    intro other base same
    apply List.filter_eq_self.mpr
    intro entry member
    obtain ⟨role, _, rfl⟩ := Request.mem_aliases_iff.mp member
    simpa [Request.aliasFor] using same
  have others : ∀ (other : Request) (base : String), other.subject ≠ wish.subject →
      ((other.aliases base).filter fun entry => entry.subject == wish.subject) = [] := by
    intro other base apart
    apply List.filter_eq_nil_iff.mpr
    intro entry member
    obtain ⟨role, _, rfl⟩ := Request.mem_aliases_iff.mp member
    simpa [Request.aliasFor] using apart
  induction grants with
  | nil => cases given
  | cons grant grants induction =>
      obtain ⟨other, given'⟩ := grant
      rw [List.map_cons, List.nodup_cons] at distinct
      unfold Grants.aliases at induction ⊢
      rw [List.flatMap_cons, List.filter_append]
      rcases List.mem_cons.mp given with here | later
      · cases here
        have rest : (grants.flatMap fun grant => grant.1.aliases grant.2).filter
            (fun entry => entry.subject == wish.subject) = [] := by
          rw [List.filter_flatMap]
          apply List.flatMap_eq_nil_iff.mpr
          intro grant member
          apply others
          intro same
          exact distinct.1 (same ▸ List.mem_map_of_mem member)
        rw [own wish base rfl, rest, List.append_nil]
      · have apart : other.subject ≠ wish.subject := by
          intro same
          rw [same] at distinct
          exact distinct.1 (List.mem_map_of_mem later)
        rw [others other given' apart, List.nil_append]
        exact induction distinct.2 later

/-- Requests for some role show in the table in the order they were served. -/
theorem Grants.subjects {grants : Grants}
    (distinct : (grants.map fun grant => grant.1.subject).Nodup)
    (wanted : ∀ grant ∈ grants, grant.1.roles ≠ []) :
    (grants.aliases.map Alias.subject).eraseDups = grants.map fun grant => grant.1.subject := by
  induction grants with
  | nil => rfl
  | cons grant grants induction =>
      rw [List.map_cons, List.nodup_cons] at distinct
      rw [List.forall_mem_cons] at wanted
      have own : (grant.1.aliases grant.2).map Alias.subject =
          grant.1.roles.map fun _ => grant.1.subject := by
        unfold Request.aliases
        rw [List.map_map]
        rfl
      obtain ⟨role, roles, listed⟩ := List.exists_cons_of_ne_nil wanted.1
      have rest := induction distinct.2 wanted.2
      unfold Grants.aliases at rest ⊢
      rw [List.flatMap_cons, List.map_append, own, listed, List.map_cons, List.cons_append,
        List.eraseDups_cons, List.filter_append, List.map_cons]
      have repeated : (roles.map fun _ => grant.1.subject).filter
          (fun other => !other == grant.1.subject) = [] := by
        simp
      have kept : ((grants.flatMap fun grant => grant.1.aliases grant.2).map Alias.subject).filter
          (fun other => !other == grant.1.subject) =
            (grants.flatMap fun grant => grant.1.aliases grant.2).map Alias.subject := by
        apply List.filter_eq_self.mpr
        intro subject member
        rw [← List.mem_eraseDups, rest] at member
        simp only [Bool.not_eq_true', beq_eq_false_iff_ne]
        intro same
        exact distinct.1 (same ▸ member)
      rw [repeated, kept, List.nil_append, rest]

def Wanted (registry : Registry) : Prop :=
  ∀ wish ∈ registry.requests, wish.roles ≠ []

namespace Service

variable {before reached : Registry} {grants : Grants} {unserved : List Request}

theorem asked (service : Service before reached grants unserved) {grant : Request × String}
    (member : grant ∈ grants) : grant.1 ∈ before.requests := by
  apply queue_perm.mem_iff.mp
  rw [← service.place]
  exact List.mem_append_left _ (List.mem_map_of_mem member)

theorem distinct (service : Service before reached grants unserved)
    (once : (before.requests.map Request.subject).Nodup) :
    (grants.map fun grant => grant.1.subject).Nodup := by
  have queued : (before.queue.map Request.subject).Nodup := (queue_perm.map _).nodup_iff.mpr once
  rw [← service.place, List.map_append, List.map_map] at queued
  exact (List.nodup_append.mp queued).1

/-- What a request finds taken when its turn comes is what the requests before it took, and what was
reserved. -/
theorem holder?_iff (service : Service before reached grants unserved)
    (once : (before.requests.map Request.subject).Nodup) {front : Grants} (starts : front <+: grants)
    {wish : Request} {later : List Request}
    (place : front.map Prod.fst ++ wish :: later = before.queue) {state : Registry}
    (held : state.aliases = front.aliases) (kept : state.reserved = before.reserved) (name : String) :
    (state.holder? wish.file name).isSome = true ↔ before.Preempted reached wish name := by
  rw [holder?_isSome_iff, kept, held]
  unfold Preempted
  constructor
  · rintro (⟨entry, member, sameFile, sameName⟩ | reserved)
    · obtain ⟨grant, inFront, role, inRoles, rfl⟩ := Grants.mem_aliases_iff.mp member
      have inGrants := starts.subset inFront
      have asked := service.asked inGrants
      refine .inr ⟨grant.1, asked, ?_, sameFile, role, ?_⟩
      · exact (mem_done_iff once place asked).mp (List.mem_map_of_mem inFront)
      · have whole : grant.1.aliasFor grant.2 role ∈ reached.aliases := by
          rw [service.aliases]
          exact Grants.mem_aliases_iff.mpr ⟨grant, inGrants, role, inRoles, rfl⟩
        refine List.mem_map.mpr ⟨_, List.mem_filter.mpr ⟨whole, ?_⟩, Prod.ext rfl sameName⟩
        simp [Request.aliasFor]
    · exact .inl reserved
  · rintro (reserved | ⟨other, asked, outranks, sameFile, role, got⟩)
    · exact .inr reserved
    · obtain ⟨entry, member, pair⟩ := List.mem_map.mp got
      obtain ⟨inReached, ofOther⟩ := List.mem_filter.mp member
      rw [service.aliases] at inReached
      obtain ⟨grant, inGrants, given, inRoles, rfl⟩ := Grants.mem_aliases_iff.mp inReached
      have sameSubject : grant.1.subject = other.subject := by simpa [Request.aliasFor] using ofOther
      have same : grant.1 = other :=
        List.inj_on_of_nodup_map once (service.asked inGrants) asked sameSubject
      obtain ⟨early, inFront, isOther⟩ :=
        List.mem_map.mp ((mem_done_iff once place asked).mpr outranks)
      have one : early = grant := by
        apply List.inj_on_of_nodup_map (service.distinct once) (starts.subset inFront) inGrants
        rw [isOther, same]
      subst one
      refine .inl ⟨_, Grants.mem_aliases_iff.mpr ⟨early, inFront, given, inRoles, rfl⟩, ?_, ?_⟩
      · rw [← sameFile, ← same]
        rfl
      · exact congrArg Prod.snd pair

/-- A base is open when the turn of a request comes if none of its names is taken. -/
theorem is_open_iff (service : Service before reached grants unserved)
    (once : (before.requests.map Request.subject).Nodup) {front : Grants} (starts : front <+: grants)
    {wish : Request} {later : List Request}
    (place : front.map Prod.fst ++ wish :: later = before.queue) {state : Registry}
    (held : state.aliases = front.aliases) (kept : state.reserved = before.reserved) (base : String) :
    state.IsOpen wish base ↔
      base ≠ "" ∧ ∀ role ∈ wish.roles, ¬before.Preempted reached wish (base ++ role.word) := by
  unfold IsOpen
  simp only [← service.holder?_iff once starts place held kept, Bool.not_eq_true]

theorem not_is_open_iff (service : Service before reached grants unserved)
    (once : (before.requests.map Request.subject).Nodup) {front : Grants} (starts : front <+: grants)
    {wish : Request} {later : List Request}
    (place : front.map Prod.fst ++ wish :: later = before.queue) {state : Registry}
    (held : state.aliases = front.aliases) (kept : state.reserved = before.reserved) (base : String) :
    ¬state.IsOpen wish base ↔
      base = "" ∨ ∃ role ∈ wish.roles, before.Preempted reached wish (base ++ role.word) := by
  rw [service.is_open_iff once starts place held kept]
  simp only [not_and_or, not_not, not_forall, exists_prop]

theorem assigned (service : Service before reached grants unserved)
    (once : (before.requests.map Request.subject).Nodup)
    (wanted : before.Wanted) :
    reached.assignedSubjects = grants.map fun grant => grant.1.subject := by
  unfold assignedSubjects
  rw [service.aliases]
  apply Grants.subjects (service.distinct once)
  intro grant member
  exact wanted grant.1 (service.asked member)

theorem aliases_of_given (service : Service before reached grants unserved)
    (once : (before.requests.map Request.subject).Nodup) {wish : Request} {base : String}
    (given : (wish, base) ∈ grants) :
    reached.aliasesOf wish.subject = wish.roles.map fun role => (role, base ++ role.word) := by
  unfold aliasesOf
  rw [service.aliases, Grants.filter_aliases (service.distinct once) given]
  unfold Request.aliases
  rw [List.map_map]
  rfl

/-- What a request was given is the first of its bases that the requests before it left free. -/
theorem takes (service : Service before reached grants unserved)
    (once : (before.requests.map Request.subject).Nodup) {wish : Request} {base : String}
    (given : (wish, base) ∈ grants) :
    ∃ passed rest, wish.levels = passed ++ base :: rest ∧ base ≠ "" ∧
      (∀ role ∈ wish.roles, ¬before.Preempted reached wish (base ++ role.word)) ∧
      ∀ other ∈ passed, other = "" ∨
        ∃ role ∈ wish.roles, before.Preempted reached wish (other ++ role.word) := by
  obtain ⟨front, back, split⟩ := List.append_of_mem given
  obtain ⟨state, held, kept, ⟨isOpen, passed, rest, levels, closed⟩⟩ :=
    service.each front wish base back split
  have starts : front <+: grants := ⟨_, split.symm⟩
  have place : front.map Prod.fst ++ wish :: (back.map Prod.fst ++ unserved) = before.queue := by
    rw [← service.place, split, List.map_append, List.map_cons, List.append_assoc,
      List.cons_append]
  rw [service.is_open_iff once starts place held kept] at isOpen
  refine ⟨passed, rest, levels, isOpen.1, isOpen.2, ?_⟩
  intro other member
  exact (service.not_is_open_iff once starts place held kept other).mp (closed other member)

theorem not_blocked (service : Service before reached grants unserved)
    (once : (before.requests.map Request.subject).Nodup) {wish : Request} {base : String}
    (given : (wish, base) ∈ grants) : ¬before.Blocked reached wish := by
  obtain ⟨passed, rest, levels, nonempty, free, _⟩ := service.takes once given
  intro blocked
  rcases blocked base (by simp [levels]) with empty | ⟨role, inRoles, preempted⟩
  · exact nonempty empty
  · exact free role inRoles preempted

/-- A request that found no open base when its turn came has none that is not taken. -/
theorem blocked (service : Service before reached grants unserved)
    (once : (before.requests.map Request.subject).Nodup) {wish : Request} {later : List Request}
    (next : unserved = wish :: later) {state : Registry} (held : state.aliases = grants.aliases)
    (kept : state.reserved = before.reserved)
    (closed : ∀ base ∈ wish.levels, ¬state.IsOpen wish base) : before.Blocked reached wish := by
  have place : grants.map Prod.fst ++ wish :: later = before.queue := by rw [← service.place, next]
  intro base member
  have seen := service.not_is_open_iff once (List.prefix_refl grants) place held kept base
  exact seen.mp (closed base member)

theorem stop_eq (service : Service before reached grants unserved)
    (once : (before.requests.map Request.subject).Nodup) {stop : Request} {later : List Request}
    (next : unserved = stop :: later) (stuck : before.Blocked reached stop) {wish : Request}
    (late : wish ∈ unserved)
    (first : ∀ other ∈ before.requests, before.Outranks other wish → ¬before.Blocked reached other) :
    stop = wish := by
  have pairs := queue_pairwise once
  rw [← service.place, next, List.pairwise_append, List.pairwise_cons] at pairs
  have asked : stop ∈ before.requests := by
    apply queue_perm.mem_iff.mp
    simp [← service.place, next]
  rw [next] at late
  rcases List.mem_cons.mp late with rfl | behind
  · rfl
  · exact absurd stuck (first stop asked (pairs.2.1.1 wish behind))

theorem mem_assigned_iff (service : Service before reached grants unserved)
    (once : (before.requests.map Request.subject).Nodup)
    (wanted : before.Wanted) {wish : Request}
    (asked : wish ∈ before.requests) :
    wish.subject ∈ reached.assignedSubjects ↔ ∃ base, (wish, base) ∈ grants := by
  rw [service.assigned once wanted, List.mem_map]
  constructor
  · rintro ⟨⟨other, base⟩, member, same⟩
    have one : other = wish := List.inj_on_of_nodup_map once (service.asked member) asked same
    exact ⟨base, one ▸ member⟩
  · rintro ⟨base, member⟩
    exact ⟨_, member, rfl⟩

end Service

theorem assign_wanted (wish : Request) : (assign wish).Keeps Wanted := by
  intro registry wanted
  rcases assign_cases wish registry with same | ⟨base, _, served, _⟩
  · rwa [same]
  · rw [served]
    exact wanted

theorem request_wanted (wish : Request) : (request wish).Keeps Wanted := by
  intro registry wanted
  rcases request_cases wish registry with same | ⟨_, some, _, taken⟩
  · rwa [same]
  · rw [taken]
    obtain ⟨⟨role, target⟩, others, listed⟩ := List.exists_cons_of_ne_nil some
    have inRoles : role ∈ wish.roles := by
      rw [Request.mem_roles_iff, listed]
      exact ⟨target, by simp⟩
    intro other asked
    rcases List.mem_append.mp asked with before | here
    · exact wanted other before
    · rw [List.mem_singleton.mp here]
      exact List.ne_nil_of_mem inRoles

theorem effect_wanted (graph : Graph) (operation : Operation) {registry : Registry}
    (wanted : registry.Wanted) : (operation.effect graph registry).Wanted := by
  by_cases resolving : operation.resolves = true
  · rw [effect_of_resolves graph registry resolving]
    have keeps : resolve.Keeps Wanted := resolve_keeps (fun _ _ _ kept => kept) assign_wanted
    exact keeps registry wanted
  · cases operation with
    | register id =>
        exact register_from_keeps Wanted (fun _ _ _ _ kept => kept) _ id registry wanted
    | reserve file name owner =>
        simp only [Operation.effect, reserve_outcome]
        split
        · exact wanted
        · exact wanted
    | request wish => exact request_wanted wish registry wanted
    | markReferenced id => exact wanted
    | markDeclared id => exact wanted
    | resolve | getAlias | getAliases | isClaimed => exact absurd rfl resolving

theorem after_wanted (graph : Graph) (history : List Operation) : (after graph history).Wanted := by
  apply after_invariant Wanted
  · intro wish member
    cases member
  · exact fun operation _ => effect_wanted graph operation

end Service

/-- Whatever was asked and reserved before, the first resolution goes by priority: each request up to
the first without a free base gets its first free one, and nothing else is given out. -/
theorem resolve_byPriority {graph : Graph} {history : List Operation}
    (fresh : (after graph history).resolved = false) :
    ByPriority (after graph history) (resolve.outcome (after graph history)).1
      (resolve.outcome (after graph history)).2 := by
  have coherent := after_coherent graph history
  have wanted := after_wanted graph history
  have once := coherent.subjects
  generalize after graph history = before at fresh coherent wanted once ⊢
  obtain ⟨grants, unserved, service, ending⟩ := resolve_service fresh (coherent.unresolved fresh)
  generalize (resolve.outcome before).2 = reached at service ⊢
  generalize (resolve.outcome before).1 = result at ending ⊢
  have given : ∀ {wish : Request}, wish ∈ before.requests →
      (wish.subject ∈ reached.assignedSubjects ↔ ∃ base, (wish, base) ∈ grants) :=
    fun asked => service.mem_assigned_iff once wanted asked
  have inQueue : ∀ wish ∈ before.requests,
      (∃ base, (wish, base) ∈ grants) ∨ wish ∈ unserved := by
    intro wish asked
    rw [← queue_perm.mem_iff, ← service.place, List.mem_append, List.mem_map] at asked
    rcases asked with ⟨⟨other, base⟩, member, rfl⟩ | later
    · exact .inl ⟨base, member⟩
    · exact .inr later
  constructor
  case inOrder =>
    refine ⟨before.queue, queue_perm, queue_pairwise once, ?_⟩
    rw [service.assigned once wanted, ← service.place, List.map_append, List.map_map]
    apply List.prefix_append
  case firstFree =>
    intro wish asked assigned
    obtain ⟨base, member⟩ := (given asked).mp assigned
    obtain ⟨passed, rest, levels, nonempty, free, others⟩ := service.takes once member
    exact ⟨passed, base, rest, levels, nonempty, service.aliases_of_given once member, free, others⟩
  case fails =>
    rcases ending with ⟨rfl, rfl⟩ | ⟨wish, later, fault, next, rfl, state, held, kept, closed⟩
    · constructor
      · rintro ⟨fault, failed⟩
        cases failed
      · rintro ⟨wish, asked, blocked⟩
        rcases inQueue wish asked with ⟨base, member⟩ | none
        · exact absurd blocked (service.not_blocked once member)
        · cases none
    · have asked : wish ∈ before.requests := by
        apply queue_perm.mem_iff.mp
        simp [← service.place, next]
      exact ⟨fun _ => ⟨wish, asked, service.blocked once next held kept closed⟩, fun _ => ⟨fault, rfl⟩⟩
  case stops =>
    intro wish asked blocked first other otherAsked
    rcases inQueue wish asked with ⟨base, member⟩ | late
    · exact absurd blocked (service.not_blocked once member)
    · rcases ending with ⟨rfl, _⟩ | ⟨stop, later, _, next, _, state, held, kept, closed⟩
      · cases late
      · have place : grants.map Prod.fst ++ stop :: later = before.queue := by
          rw [← service.place, next]
        have stuck := service.blocked once next held kept closed
        have same := service.stop_eq once next stuck late first
        subst same
        rw [given otherAsked, ← mem_done_iff once place otherAsked, List.mem_map]
        constructor
        · rintro ⟨base, member⟩
          exact ⟨_, member, rfl⟩
        · rintro ⟨⟨_, base⟩, member, rfl⟩
          exact ⟨base, member⟩
  case serves =>
    intro passed wish asked
    rcases ending with ⟨rfl, _⟩ | ⟨_, _, _, _, failed, _⟩
    · rw [given asked]
      rcases inQueue wish asked with found | none
      · exact found
      · cases none
    · rw [failed] at passed
      cases passed

def plea (node : Id) (declared base : String) (qualifiers : List String) : Request where
  subject := { node }
  declared
  base
  qualifiers
  fileQualifier := "Club"
  file := 1
  order := 0
  targets := [(.reader, ""), (.builder, "")]

/-- Four namesakes, the last of which has no way to be told apart, and a name that is spoken for. -/
def namesakes : List Operation := [
  .request (plea 4 "Team.User" "User" ["Team"]),
  .request (plea 5 "Team.User" "User" ["Team"]),
  .reserve 1 "UserReader" 9,
  .request (plea 2 "User" "User" []),
  .request (plea 6 "Team.User" "User" ["Team"])]

theorem resolve_byPriority_namesakes :
    (after ⟨[], []⟩ namesakes).resolved = false ∧
      ByPriority (after ⟨[], []⟩ namesakes) (resolve.outcome (after ⟨[], []⟩ namesakes)).1
        (resolve.outcome (after ⟨[], []⟩ namesakes)).2 ∧
      (resolve.outcome (after ⟨[], []⟩ namesakes)).2.aliasesOf { node := 2 } =
        [(.builder, "ClubUserBuilder"), (.reader, "ClubUserReader")] ∧
      (resolve.outcome (after ⟨[], []⟩ namesakes)).2.assignedSubjects =
        [{ node := 2 }, { node := 4 }, { node := 5 }] := by
  have fresh : (after ⟨[], []⟩ namesakes).resolved = false := by decide
  exact ⟨fresh, resolve_byPriority fresh, by decide +kernel, by decide +kernel⟩

end Registry

end SchemaStubs
