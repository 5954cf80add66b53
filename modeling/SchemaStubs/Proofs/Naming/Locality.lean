import SchemaStubs.Fault
import SchemaStubs.Proofs.Naming.AliasTable

/-!
Files are name spaces of their own. What a file is given when the requests are served depends on its
own requests and reservations only: the requests of other files may be served in between or left
out. A resolution that succeeds has served every request, and one that fails does so at a collision;
asking for aliases fails on nothing that was asked once, in time, and for some role.
-/

namespace SchemaStubs.Registry

def aliasesIn (registry : Registry) (file : Id) : List Alias :=
  registry.aliases.filter fun entry => entry.file == file

def requestsIn (registry : Registry) (file : Id) : List Request :=
  registry.requests.filter fun wish => wish.file == file

/-- Two registries agree on which names of a file are given away, and to whom. -/
structure Agree (file : Id) (one two : Registry) : Prop where
  aliases : one.aliasesIn file = two.aliasesIn file
  reserved : ∀ name, one.reserved.contains (file, name) = two.reserved.contains (file, name)

namespace Agree

variable {file : Id} {one two three : Registry}

theorem refl (file : Id) (registry : Registry) : Agree file registry registry :=
  ⟨rfl, fun _ => rfl⟩

theorem symm (agree : Agree file one two) : Agree file two one :=
  ⟨agree.aliases.symm, fun name => (agree.reserved name).symm⟩

theorem trans (first : Agree file one two) (second : Agree file two three) : Agree file one three :=
  ⟨first.aliases.trans second.aliases,
    fun name => (first.reserved name).trans (second.reserved name)⟩

theorem isHeld (agree : Agree file one two) (name : String) :
    (one.holder? file name).isSome = (two.holder? file name).isSome := by
  have member : ∀ registry : Registry,
      (∃ entry ∈ registry.aliases, entry.file = file ∧ entry.name = name) ↔
        ∃ entry ∈ registry.aliasesIn file, entry.name = name := by
    intro registry
    simp [aliasesIn, and_assoc]
  rw [Bool.eq_iff_iff, holder?_isSome_iff, holder?_isSome_iff, member, member, agree.aliases,
    agree.reserved]

end Agree

theorem assign_elsewhere {file : Id} {wish : Request} {before after : Registry}
    (apart : wish.file ≠ file) (returns : (assign wish).Returns before () after) :
    Agree file before after := by
  unfold Step.Returns at returns
  rw [assign_outcome] at returns
  split at returns
  · rename_i base _
    cases returns
    refine ⟨?_, fun _ => rfl⟩
    have none : (wish.aliases base).filter (fun entry => entry.file == file) = [] := by
      refine List.filter_eq_nil_iff.mpr fun entry member => ?_
      obtain ⟨role, _, rfl⟩ := Request.mem_aliases_iff.mp member
      simpa [Request.aliasFor] using apart
    simp [aliasesIn, withAliases, none]
  · cases returns

theorem assign_agree {wish : Request} {one two after : Registry}
    (agree : Agree wish.file one two) (returns : (assign wish).Returns one () after) :
    ∃ other, (assign wish).Returns two () other ∧ Agree wish.file after other := by
  unfold Step.Returns at returns ⊢
  rw [assign_outcome] at returns
  rw [assign_outcome, ← first_free_congr agree.isHeld]
  split at returns
  · rename_i base _
    cases returns
    refine ⟨_, rfl, ?_, agree.reserved⟩
    have kept := agree.aliases
    unfold aliasesIn at kept ⊢
    simp [withAliases, kept]
  · cases returns

/-- Serving a queue gives a file what serving its own requests alone gives it. -/
theorem serve_agree {file : Id} {queue : List Request} {one two after : Registry}
    (agree : Agree file one two) (returns : (queue.forM assign).Returns one () after) :
    ∃ other, ((queue.filter fun wish => wish.file == file).forM assign).Returns two () other ∧
      Agree file after other := by
  induction queue generalizing one two with
  | nil =>
      obtain ⟨_, rfl⟩ := Step.Returns.pure_iff.mp returns
      exact ⟨two, rfl, agree⟩
  | cons wish rest induction =>
      rw [Step.forM_cons, Step.Returns.bind_iff] at returns
      obtain ⟨_, middle, first, later⟩ := returns
      by_cases own : wish.file = file
      · subst own
        obtain ⟨served, same, next⟩ := assign_agree agree first
        obtain ⟨other, others, last⟩ := induction next later
        refine ⟨other, ?_, last⟩
        rw [List.filter_cons_of_pos (by simp), Step.forM_cons, Step.Returns.bind_iff]
        exact ⟨_, served, same, others⟩
      · rw [List.filter_cons_of_neg (by simpa using own)]
        exact induction ((assign_elsewhere own first).symm.trans agree) later

theorem served_before_trans (one two three : Request) (first : one.servedBefore two)
    (second : two.servedBefore three) : one.servedBefore three := by
  simp only [Request.servedBefore, Bool.or_eq_true, Bool.and_eq_true, decide_eq_true_eq,
    beq_iff_eq] at *
  omega

theorem served_before_total (one two : Request) :
    one.servedBefore two || two.servedBefore one := by
  simp only [Request.servedBefore, Bool.or_eq_true, Bool.and_eq_true, decide_eq_true_eq,
    beq_iff_eq]
  omega

/-- A first resolution that succeeds serves the queue, and only the journal is written after
that. -/
theorem resolve_returns {before after : Registry} (fresh : before.resolved = false)
    (returns : resolve.Returns before () after) :
    ∃ served journal, (before.queue.forM assign).Returns { before with resolved := true } () served ∧
      after = { served with journal } := by
  unfold Step.Returns at returns
  rw [resolve_of_unresolved fresh] at returns
  obtain ⟨_, served, first, rest⟩ := Step.Returns.bind_iff.mp returns
  simp only [note, Step.Returns.bind_iff, Step.Returns.get_iff, Step.Returns.modify_iff] at rest
  obtain ⟨_, _, ⟨rfl, rfl⟩, rfl⟩ := rest
  exact ⟨served, _, first, rfl⟩

theorem resolve_requests {before after : Registry} (fresh : before.resolved = false)
    (returns : resolve.Returns before () after) :
    after.requests = before.requests ∧ after.resolved = true := by
  obtain ⟨served, journal, serves, rfl⟩ := resolve_returns fresh returns
  have keeps : (before.queue.forM assign).Keeps fun registry =>
      registry.requests = before.requests ∧ registry.resolved = true := by
    refine .of_forM fun wish _ registry kept => ?_
    rcases assign_cases wish registry with same | ⟨base, _, assigned, _⟩
    · rwa [same]
    · rw [assigned]
      exact kept
  have kept := keeps.returns serves ⟨rfl, rfl⟩
  exact kept

theorem queue_filter (registry : Registry) (file : Id) :
    (registry.queue.filter fun wish => wish.file == file) =
      sortBy Request.servedBefore (registry.requestsIn file) :=
  Lists.filter_sort_by served_before_trans served_before_total _ _

/-- Two registries with the same requests and reservations of a file give that file the same
aliases, whatever else they hold. -/
theorem resolve_agree {file : Id} {one two oneAfter twoAfter : Registry}
    (agree : Agree file one two) (asked : one.requestsIn file = two.requestsIn file)
    (oneFresh : one.resolved = false) (twoFresh : two.resolved = false)
    (oneResolves : resolve.Returns one () oneAfter)
    (twoResolves : resolve.Returns two () twoAfter) : Agree file oneAfter twoAfter := by
  obtain ⟨oneServed, _, oneServes, rfl⟩ := resolve_returns oneFresh oneResolves
  obtain ⟨twoServed, _, twoServes, rfl⟩ := resolve_returns twoFresh twoResolves
  -- both queues, cut down to the file, are served from one and the same registry
  obtain ⟨alone, first, oneAlone⟩ := serve_agree (Agree.refl file _) oneServes
  have start : Agree file { two with resolved := true } { one with resolved := true } :=
    ⟨agree.symm.aliases, agree.symm.reserved⟩
  obtain ⟨other, second, twoAlone⟩ := serve_agree start twoServes
  rw [queue_filter] at first second
  rw [← asked] at second
  obtain ⟨_, rfl⟩ := first.unique second
  have served := oneAlone.trans twoAlone.symm
  exact ⟨served.aliases, served.reserved⟩

def Has (registry : Registry) (subject : Subject) (role : Role) : Prop :=
  ∃ entry ∈ registry.aliases, entry.subject = subject ∧ entry.role = role

theorem lookup_of_has {registry : Registry} {subject : Subject} {role : Role}
    (has : registry.Has subject role) :
    ∃ name, (registry.aliasesOf subject).lookup role = some name := by
  obtain ⟨entry, listed, same, inRole⟩ := has
  rw [← Option.isSome_iff_exists, List.lookup_isSome_iff]
  refine ⟨(entry.role, entry.name), ?_, by simpa using inRole.symm⟩
  exact List.mem_map.mpr ⟨entry, List.mem_filter.mpr ⟨listed, by simpa using same⟩, rfl⟩

theorem resolve_serves {before after : Registry} (fresh : before.resolved = false)
    (returns : resolve.Returns before () after) {wish : Request} (asked : wish ∈ before.requests)
    {role : Role} (wanted : role ∈ wish.roles) : after.Has wish.subject role := by
  obtain ⟨served, journal, serves, rfl⟩ := resolve_returns fresh returns
  have all : ∀ wish ∈ before.queue, ∀ role ∈ wish.roles, served.Has wish.subject role := by
    refine Step.Returns.forM_stages
      (fun done registry => ∀ wish ∈ done, ∀ role ∈ wish.roles, registry.Has wish.subject role)
      ?_ serves (by simp)
    intro done wish rest _ state _ next step earlier
    -- a request that was served has added its aliases to those there were
    have assigned := assign_outcome wish state
    rw [step] at assigned
    split at assigned
    · rename_i base _
      cases assigned
      intro other member role inRoles
      rcases List.mem_append.mp member with before | here
      · obtain ⟨entry, listed, same⟩ := earlier other before role inRoles
        exact ⟨entry, List.mem_append_left _ listed, same⟩
      · cases List.mem_singleton.mp here
        refine ⟨wish.aliasFor base role, List.mem_append_right _ ?_, rfl, rfl⟩
        exact Request.mem_aliases_iff.mpr ⟨role, inRoles, rfl⟩
    · cases assigned
  exact all wish (Lists.mem_sort_by.mpr asked) role wanted

theorem resolve_fails_as {faults : Fault → Prop}
    (collides : ∀ name one two, faults (Cause.nameCollision name one two)) :
    resolve.FailsAs faults := by
  have assigns : ∀ wish, (assign wish).FailsAs faults := by
    intro wish registry fault _ failed
    rw [assign_outcome] at failed
    split at failed
    · cases failed
    · cases failed
      exact collides _ _ _
  unfold resolve
  refine .of_bind .of_get fun registry => ?_
  split
  · exact .of_pure _
  · refine .of_bind (.of_set _) fun _ => .of_bind (.of_forM fun wish _ => assigns wish) fun _ => ?_
    exact .of_bind .of_get fun reached => .of_modify _

/-- What was asked before the resolution, for some role, and not already, is not refused. -/
theorem request_accepted {wish : Request} {registry : Registry} (fresh : registry.resolved = false)
    (wanted : wish.targets ≠ []) (new : ∀ other ∈ registry.requests, other.subject ≠ wish.subject)
    (fault : Fault) : ((request wish).outcome registry).1 ≠ .error fault := by
  have unasked : (registry.requests.any fun other => other.subject == wish.subject) = false := by
    simpa using new
  unfold request
  rw [Step.outcome_bind, Step.outcome_get]
  simp [fresh, wanted, unasked]

end SchemaStubs.Registry
