import SchemaStubs.Proofs.Naming.Priority

/-!
What comes later does not matter. The aliases of a request depend on the reservations of its file and
on the requests of its file that outrank it: two registries that agree on those give it the same
aliases, whatever else they were asked for, and even if one of them does not get to the end of it.
-/

namespace SchemaStubs.Registry

theorem Outranks.trans {registry : Registry} {one two three : Request}
    (first : registry.Outranks one two) (second : registry.Outranks two three) :
    registry.Outranks one three := by
  unfold Outranks at *
  omega

/-- The requests that lead up to a request: those of its file that outrank it, in the order they are
served. -/
structure LeadsTo (registry : Registry) (front : List Request) (wish : Request) : Prop where
  asked : wish ∈ registry.requests
  ranked : front.Pairwise registry.Outranks
  ahead : ∀ other, other ∈ front ↔
    other ∈ registry.requests ∧ other.file = wish.file ∧ registry.Outranks other wish

namespace LeadsTo

variable {registry : Registry} {front : List Request} {wish : Request}

theorem of_ranks (asked : wish ∈ registry.requests) (ranked : front.Pairwise registry.Outranks)
    (on : ∀ other ∈ front,
      other ∈ registry.requests ∧ other.file = wish.file ∧ registry.Outranks other wish)
    (off : ∀ other ∈ registry.requests, other ∈ front ∨ other = wish ∨ other.file ≠ wish.file ∨
      registry.Outranks wish other) : registry.LeadsTo front wish := by
  refine ⟨asked, ranked, fun other => ⟨on other, ?_⟩⟩
  rintro ⟨otherAsked, file, outranks⟩
  rcases off other otherAsked with member | rfl | apart | behind
  · exact member
  · exact absurd outranks outranks.asymm
  · exact absurd file apart
  · exact absurd outranks behind.asymm

/-- What leads up to a request leads up to each request of it on the way. -/
theorem on_way {early late : List Request} {other : Request}
    (leads : registry.LeadsTo (early ++ other :: late) wish) : registry.LeadsTo early other := by
  obtain ⟨asked, file, outranks⟩ := (leads.ahead other).mp (by simp)
  have ranked := leads.ranked
  rw [List.pairwise_append, List.pairwise_cons] at ranked
  obtain ⟨early_ranked, ⟨before_late, _⟩, across⟩ := ranked
  refine ⟨asked, early_ranked, ?_⟩
  intro third
  constructor
  · intro member
    obtain ⟨thirdAsked, thirdFile, _⟩ := (leads.ahead third).mp (by simp [member])
    exact ⟨thirdAsked, thirdFile.trans file.symm, across third member other List.mem_cons_self⟩
  · rintro ⟨thirdAsked, thirdFile, before⟩
    have inFront := (leads.ahead third).mpr ⟨thirdAsked, thirdFile.trans file, before.trans outranks⟩
    rcases List.mem_append.mp inFront with here | there
    · exact here
    · rcases List.mem_cons.mp there with rfl | later
      · exact absurd before before.asymm
      · exact absurd before (before_late third later).asymm

/-- Only the requests that lead up to a request can take a name before it. -/
theorem preempted_iff (leads : registry.LeadsTo front wish) {reached : Registry} {name : String} :
    registry.Preempted reached wish name ↔ registry.reserved.contains (wish.file, name) = true ∨
      ∃ other ∈ front, ∃ role, (role, name) ∈ reached.aliasesOf other.subject := by
  unfold Preempted
  simp only [leads.ahead]
  constructor
  · rintro (reserved | ⟨other, asked, outranks, file, got⟩)
    · exact .inl reserved
    · exact .inr ⟨other, ⟨asked, file, outranks⟩, got⟩
  · rintro (reserved | ⟨other, ⟨asked, file, outranks⟩, got⟩)
    · exact .inl reserved
    · exact .inr ⟨other, asked, outranks, file, got⟩

end LeadsTo

theorem Service.serves_ahead {before reached : Registry} {grants : Grants} {unserved : List Request}
    (service : Service before reached grants unserved)
    (once : (before.requests.map Request.subject).Nodup) {wish other : Request}
    (served : ∃ base, (wish, base) ∈ grants) (asked : other ∈ before.requests)
    (outranks : before.Outranks other wish) : ∃ base, (other, base) ∈ grants := by
  obtain ⟨base, given⟩ := served
  obtain ⟨front, back, split⟩ := List.append_of_mem given
  have place : front.map Prod.fst ++ wish :: (back.map Prod.fst ++ unserved) = before.queue := by
    rw [← service.place, split, List.map_append, List.map_cons, List.append_assoc, List.cons_append]
  obtain ⟨⟨_, earlier⟩, inFront, rfl⟩ := List.mem_map.mp ((mem_done_iff once place asked).mpr outranks)
  exact ⟨earlier, split ▸ List.mem_append_left _ inFront⟩

section Pair

variable {one two oneReached twoReached : Registry} {oneGrants twoGrants : Grants}
  {oneLeft twoLeft : List Request}

theorem Service.same_aliases (oneService : Service one oneReached oneGrants oneLeft)
    (twoService : Service two twoReached twoGrants twoLeft)
    (oneOnce : (one.requests.map Request.subject).Nodup)
    (twoOnce : (two.requests.map Request.subject).Nodup) {wish : Request}
    (alike : ∀ name, one.Preempted oneReached wish name ↔ two.Preempted twoReached wish name)
    (oneServed : ∃ base, (wish, base) ∈ oneGrants) (twoServed : ∃ base, (wish, base) ∈ twoGrants) :
    oneReached.aliasesOf wish.subject = twoReached.aliasesOf wish.subject := by
  obtain ⟨base, oneGiven⟩ := oneServed
  obtain ⟨other, twoGiven⟩ := twoServed
  obtain ⟨early, late, levels, nonempty, free, passed⟩ := oneService.takes oneOnce oneGiven
  obtain ⟨early', late', levels', nonempty', free', passed'⟩ := twoService.takes twoOnce twoGiven
  -- a base that is passed over in one is not free in the other, so neither comes before the other
  have same : base = other := by
    rw [levels, List.append_eq_append_iff] at levels'
    rcases levels' with ⟨between, whole, split⟩ | ⟨between, whole, split⟩
    · cases between with
      | nil => exact (List.cons.inj split).1
      | cons first between =>
          obtain ⟨rfl, _⟩ := List.cons.inj split
          rcases passed' base (by simp [whole]) with empty | ⟨role, inRoles, taken⟩
          · exact absurd empty nonempty
          · exact absurd ((alike _).mpr taken) (free role inRoles)
    · cases between with
      | nil => exact (List.cons.inj split).1.symm
      | cons first between =>
          obtain ⟨rfl, _⟩ := List.cons.inj split
          rcases passed other (by simp [whole]) with empty | ⟨role, inRoles, taken⟩
          · exact absurd empty nonempty'
          · exact absurd ((alike _).mp taken) (free' role inRoles)
  rw [oneService.aliases_of_given oneOnce oneGiven, twoService.aliases_of_given twoOnce twoGiven, same]

/-- By induction on what leads up to a request: the requests on the way got the same aliases, so the
request finds the same names taken. -/
theorem Service.insulated (oneService : Service one oneReached oneGrants oneLeft)
    (twoService : Service two twoReached twoGrants twoLeft)
    (oneOnce : (one.requests.map Request.subject).Nodup)
    (twoOnce : (two.requests.map Request.subject).Nodup) {file : Id}
    (reserved : ∀ name, one.reserved.contains (file, name) = two.reserved.contains (file, name))
    {front : List Request} {wish : Request} (own : wish.file = file)
    (oneLeads : one.LeadsTo front wish) (twoLeads : two.LeadsTo front wish)
    (oneServed : ∃ base, (wish, base) ∈ oneGrants) (twoServed : ∃ base, (wish, base) ∈ twoGrants) :
    oneReached.aliasesOf wish.subject = twoReached.aliasesOf wish.subject := by
  induction bound : front.length using Nat.strongRecOn generalizing front wish with
  | _ size induction =>
      have earlier : ∀ other ∈ front,
          oneReached.aliasesOf other.subject = twoReached.aliasesOf other.subject := by
        intro other member
        obtain ⟨oneAsked, inFile, oneRank⟩ := (oneLeads.ahead other).mp member
        obtain ⟨twoAsked, _, twoRank⟩ := (twoLeads.ahead other).mp member
        obtain ⟨early, late, rfl⟩ := List.append_of_mem member
        have shorter : early.length < size := by
          rw [← bound, List.length_append, List.length_cons]
          omega
        apply induction early.length shorter (inFile.trans own) oneLeads.on_way twoLeads.on_way
        · exact oneService.serves_ahead oneOnce oneServed oneAsked oneRank
        · exact twoService.serves_ahead twoOnce twoServed twoAsked twoRank
        · rfl
      apply oneService.same_aliases twoService oneOnce twoOnce _ oneServed twoServed
      intro name
      rw [oneLeads.preempted_iff, twoLeads.preempted_iff, own, reserved]
      apply or_congr Iff.rfl
      constructor
      · rintro ⟨other, member, role, got⟩
        exact ⟨other, member, role, earlier other member ▸ got⟩
      · rintro ⟨other, member, role, got⟩
        exact ⟨other, member, role, (earlier other member).symm ▸ got⟩

end Pair

/-- Whatever two registries were asked for besides, a request gets the same aliases in both when they
reserve the same names of its file and the same requests lead up to it. -/
theorem aliases_by_precedence {oneGraph twoGraph : Graph} {oneHistory twoHistory : List Operation}
    {front : List Request} {wish : Request}
    (oneFresh : (after oneGraph oneHistory).resolved = false)
    (twoFresh : (after twoGraph twoHistory).resolved = false)
    (reserved : ∀ name, (after oneGraph oneHistory).reserved.contains (wish.file, name) =
      (after twoGraph twoHistory).reserved.contains (wish.file, name))
    (oneLeads : (after oneGraph oneHistory).LeadsTo front wish)
    (twoLeads : (after twoGraph twoHistory).LeadsTo front wish)
    (oneServed : wish.subject ∈
      (resolve.outcome (after oneGraph oneHistory)).2.assignedSubjects)
    (twoServed : wish.subject ∈
      (resolve.outcome (after twoGraph twoHistory)).2.assignedSubjects) :
    (resolve.outcome (after oneGraph oneHistory)).2.aliasesOf wish.subject =
      (resolve.outcome (after twoGraph twoHistory)).2.aliasesOf wish.subject := by
  have one := after_coherent oneGraph oneHistory
  have two := after_coherent twoGraph twoHistory
  obtain ⟨_, _, oneService, _⟩ := resolve_service oneFresh (one.unresolved oneFresh)
  obtain ⟨_, _, twoService, _⟩ := resolve_service twoFresh (two.unresolved twoFresh)
  rw [oneService.mem_assigned_iff one.subjects (after_wanted _ _) oneLeads.asked] at oneServed
  rw [twoService.mem_assigned_iff two.subjects (after_wanted _ _) twoLeads.asked] at twoServed
  exact oneService.insulated twoService one.subjects two.subjects reserved rfl oneLeads twoLeads
    oneServed twoServed

def calm : List Operation := [
  .request (plea 2 "User" "User" []),
  .request (plea 4 "Team.User" "User" ["Team"])]

def stranger : Request :=
  { plea 7 "A" "User" [] with file := 2 }

/-- A request that is served after both, and has no base left. -/
def straggler : Request :=
  { plea 8 "Team.Other.User" "User" [] with fileQualifier := "" }

/-- The two requests amid others, in the other order, and a name that only the other file reserves. -/
def crowded : List Operation := [
  .request stranger,
  .request (plea 4 "Team.User" "User" ["Team"]),
  .reserve 2 "UserReader" 9,
  .request straggler,
  .request (plea 2 "User" "User" [])]

theorem calm_leads_to :
    (after ⟨[], []⟩ calm).LeadsTo [plea 2 "User" "User" []] (plea 4 "Team.User" "User" ["Team"]) := by
  have requests : (after ⟨[], []⟩ calm).requests =
      [plea 2 "User" "User" [], plea 4 "Team.User" "User" ["Team"]] := rfl
  apply LeadsTo.of_ranks (by simp [requests]) (List.pairwise_singleton _ _)
  · rw [List.forall_mem_singleton]
    exact ⟨by simp [requests], rfl, .inl (by decide)⟩
  · simp [requests]

theorem crowded_leads_to :
    (after ⟨[], []⟩ crowded).LeadsTo [plea 2 "User" "User" []]
      (plea 4 "Team.User" "User" ["Team"]) := by
  have requests : (after ⟨[], []⟩ crowded).requests =
      [stranger, plea 4 "Team.User" "User" ["Team"], straggler, plea 2 "User" "User" []] := rfl
  apply LeadsTo.of_ranks (by simp [requests]) (List.pairwise_singleton _ _)
  · rw [List.forall_mem_singleton]
    exact ⟨by simp [requests], rfl, .inl (by decide)⟩
  · have apart : stranger.file ≠ (plea 4 "Team.User" "User" ["Team"]).file := by decide
    have behind : (after ⟨[], []⟩ crowded).Outranks (plea 4 "Team.User" "User" ["Team"])
        straggler := .inl (by decide)
    simp [requests, apart, behind]

theorem aliases_by_precedence_crowded :
    (resolve.outcome (after ⟨[], []⟩ calm)).2.aliasesOf { node := 4 } =
        (resolve.outcome (after ⟨[], []⟩ crowded)).2.aliasesOf { node := 4 } ∧
      (resolve.outcome (after ⟨[], []⟩ calm)).2.aliasesOf { node := 4 } =
        [(.builder, "TeamUserBuilder"), (.reader, "TeamUserReader")] := by
  refine ⟨?_, by decide +kernel⟩
  apply aliases_by_precedence (by decide) (by decide) _ calm_leads_to crowded_leads_to
    (by decide +kernel) (by decide +kernel)
  intro name
  rfl

end SchemaStubs.Registry
