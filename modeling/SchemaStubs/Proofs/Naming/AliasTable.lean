import SchemaStubs.Proofs.Naming.History
import SchemaStubs.Proofs.Text.ByteOrder

/-!
The table of aliases after any history. No file binds one alias twice, a subject that got aliases
has exactly one in each of its roles, and the names reserved before the first resolution are no
aliases. The resolution may fail on the way: what it had given out until then obeys the same rules.
-/

namespace SchemaStubs

namespace Id

theorem le_trans {one two three : Id} (first : one ≤ two) (second : two ≤ three) : one ≤ three :=
  UInt64.le_trans first second

theorem le_total (one two : Id) : one ≤ two ∨ two ≤ one :=
  UInt64.le_total one.value two.value

theorem lt_of_le_of_ne {one two : Id} (less : one ≤ two) (different : one ≠ two) : one < two := by
  have values : one.value ≠ two.value := by
    intro same
    cases one
    cases two
    exact different (by simpa using same)
  exact UInt64.lt_of_le_of_ne less values

end Id

namespace Alias

theorem listed_before_iff {one two : Alias} :
    one.listedBefore two ↔ one.name < two.name ∨ one.name = two.name ∧ one.file ≤ two.file := by
  simp [listedBefore]

theorem listed_before_trans (one two three : Alias) (first : one.listedBefore two)
    (second : two.listedBefore three) : one.listedBefore three := by
  rw [listed_before_iff] at *
  rcases first with less | ⟨same, files⟩
  · rcases second with more | ⟨alike, _⟩
    · exact Or.inl (String.lt_trans less more)
    · exact Or.inl (alike ▸ less)
  · rcases second with more | ⟨alike, others⟩
    · exact Or.inl (same ▸ more)
    · exact Or.inr ⟨same.trans alike, Id.le_trans files others⟩

theorem listed_before_total (one two : Alias) : one.listedBefore two || two.listedBefore one := by
  rw [Bool.or_eq_true, listed_before_iff, listed_before_iff]
  by_cases less : one.name < two.name
  · exact Or.inl (Or.inl less)
  · by_cases more : two.name < one.name
    · exact Or.inr (Or.inl more)
    · have same : one.name = two.name :=
        String.le_antisymm (String.not_lt.mp more) (String.not_lt.mp less)
      rcases Id.le_total one.file two.file with files | files
      · exact Or.inl (Or.inr ⟨same, files⟩)
      · exact Or.inr (Or.inr ⟨same.symm, files⟩)

end Alias

namespace Registry

structure Coherent (registry : Registry) : Prop where
  /-- A subject asks once. -/
  subjects : (registry.requests.map Request.subject).Nodup
  /-- Aliases are given out by the resolution only. -/
  unresolved : registry.resolved = false → registry.aliases = []
  names : (registry.aliases.map fun entry => (entry.file, entry.name)).Nodup
  roles : (registry.aliases.map fun entry => (entry.subject, entry.role)).Nodup
  /-- Every alias was asked for. -/
  origin : ∀ entry ∈ registry.aliases, ∃ wish ∈ registry.requests,
    wish.subject = entry.subject ∧ wish.file = entry.file ∧
      wish.targets.lookup entry.role = some entry.target
  /-- A subject gets all its aliases or none. -/
  complete : ∀ wish ∈ registry.requests, wish.subject ∈ registry.aliases.map Alias.subject →
    ∀ role ∈ wish.roles, ∃ entry ∈ registry.aliases,
      entry.subject = wish.subject ∧ entry.role = role

theorem coherent_empty : Coherent {} := by
  constructor <;> simp

theorem with_aliases_coherent {registry : Registry} (coherent : registry.Coherent) {wish : Request}
    (asked : wish ∈ registry.requests)
    (unserved : wish.subject ∉ registry.aliases.map Alias.subject)
    (done : registry.resolved = true) {base : String}
    (free : registry.obstacle? wish.file wish.roles base = none) :
    (registry.withAliases wish base).Coherent := by
  rw [obstacle?_eq_none_iff] at free
  have held : ∀ entry ∈ wish.aliases base, entry.subject = wish.subject := by
    intro entry member
    obtain ⟨role, _, rfl⟩ := Request.mem_aliases_iff.mp member
    rfl
  constructor
  case subjects =>
    exact coherent.subjects
  case unresolved =>
    intro fresh
    change registry.resolved = false at fresh
    rw [done] at fresh
    cases fresh
  case names =>
    change ((registry.aliases ++ wish.aliases base).map _).Nodup
    rw [List.map_append, List.nodup_append]
    refine ⟨coherent.names, wish.nodup_alias_names base, ?_⟩
    -- a name that was taken before would have stood in the way of the base
    rintro key old _ new rfl
    obtain ⟨entry, member, same⟩ := List.mem_map.mp old
    obtain ⟨given, added, alike⟩ := List.mem_map.mp new
    obtain ⟨role, roleMember, rfl⟩ := Request.mem_aliases_iff.mp added
    have taken : (registry.holder? wish.file (base ++ role.word)).isSome := by
      rw [holder?_isSome_iff]
      rw [← alike] at same
      exact Or.inl ⟨entry, member, congrArg Prod.fst same, congrArg Prod.snd same⟩
    rw [free role roleMember] at taken
    cases taken
  case roles =>
    change ((registry.aliases ++ wish.aliases base).map _).Nodup
    rw [List.map_append, List.nodup_append]
    refine ⟨coherent.roles, wish.nodup_alias_roles base, ?_⟩
    rintro key old _ new rfl
    obtain ⟨entry, member, same⟩ := List.mem_map.mp old
    obtain ⟨given, added, alike⟩ := List.mem_map.mp new
    have subject : entry.subject = wish.subject := by
      rw [← held given added]
      exact congrArg Prod.fst (same.trans alike.symm)
    exact unserved (subject ▸ List.mem_map_of_mem member)
  case origin =>
    intro entry member
    rcases List.mem_append.mp member with old | new
    · exact coherent.origin entry old
    · obtain ⟨role, roleMember, rfl⟩ := Request.mem_aliases_iff.mp new
      exact ⟨wish, asked, rfl, rfl, Request.lookup_target roleMember⟩
  case complete =>
    intro other otherAsked served role roleMember
    by_cases same : other.subject = wish.subject
    · have equal : other = wish :=
        List.inj_on_of_nodup_map coherent.subjects otherAsked asked same
      subst equal
      refine ⟨other.aliasFor base role, List.mem_append_right _ ?_, rfl, rfl⟩
      exact Request.mem_aliases_iff.mpr ⟨role, roleMember, rfl⟩
    · have before : other.subject ∈ registry.aliases.map Alias.subject := by
        obtain ⟨entry, member, subject⟩ := List.mem_map.mp served
        rcases List.mem_append.mp member with old | new
        · exact subject ▸ List.mem_map_of_mem old
        · exact absurd (subject.symm.trans (held entry new)) same
      obtain ⟨entry, member, facts⟩ := coherent.complete other otherAsked before role roleMember
      exact ⟨entry, List.mem_append_left _ member, facts⟩

/-- Serving a queue of requests that were not served before keeps the registry coherent, however
far it gets. -/
theorem serve_coherent {queue : List Request} {registry : Registry} (coherent : registry.Coherent)
    (done : registry.resolved = true) (asked : ∀ wish ∈ queue, wish ∈ registry.requests)
    (distinct : (queue.map Request.subject).Nodup)
    (unserved : ∀ wish ∈ queue, wish.subject ∉ registry.aliases.map Alias.subject) :
    ((queue.forM assign).outcome registry).2.Coherent := by
  induction queue generalizing registry with
  | nil => exact coherent
  | cons wish rest induction =>
      rw [List.map_cons, List.nodup_cons] at distinct
      rw [Step.forM_cons, Step.outcome_bind, assign_outcome]
      rcases found : registry.firstFree wish.file wish.roles "" wish.candidates with obstacle | base
      · exact coherent
      · have free := (first_free_ok found).2
        have next := with_aliases_coherent coherent (asked wish (by simp)) (unserved wish (by simp))
          done free
        refine induction next done (fun other member => asked other (by simp [member]))
          distinct.2 ?_
        intro other member served
        obtain ⟨entry, entryMember, subject⟩ := List.mem_map.mp served
        rcases List.mem_append.mp entryMember with old | new
        · exact unserved other (by simp [member]) (subject ▸ List.mem_map_of_mem old)
        · obtain ⟨role, _, rfl⟩ := Request.mem_aliases_iff.mp new
          have same : wish.subject = other.subject := subject
          exact distinct.1 (same ▸ List.mem_map_of_mem member)

theorem resolve_coherent {registry : Registry} (coherent : registry.Coherent) :
    (resolve.outcome registry).2.Coherent := by
  by_cases done : registry.resolved = true
  · rw [resolve_of_resolved done]
    exact coherent
  · have fresh : registry.resolved = false := by simpa using done
    have started : Coherent { registry with resolved := true } :=
      { coherent with unresolved := by simp }
    have none := coherent.unresolved fresh
    have queued : registry.queue.Perm registry.requests := Lists.sort_by_perm _ _
    have served : ((registry.queue.forM assign).outcome { registry with resolved := true }).2.Coherent :=
      serve_coherent started rfl (fun wish member => queued.mem_iff.mp member)
        ((queued.map _).nodup_iff.mpr coherent.subjects) (by simp [none])
    rw [resolve_of_unresolved fresh, Step.outcome_bind]
    rcases reached : (registry.queue.forM assign).outcome { registry with resolved := true }
      with ⟨result, last⟩
    rw [reached] at served
    cases result with
    | error fault => exact served
    | ok value => exact { served with }

theorem request_coherent (wish : Request) {registry : Registry} (coherent : registry.Coherent) :
    ((request wish).outcome registry).2.Coherent := by
  rcases request_cases wish registry with same | ⟨fresh, _, new, taken⟩
  · rwa [same]
  · have none := coherent.unresolved fresh
    rw [taken]
    constructor
    · simp only [List.map_append, List.map_cons, List.map_nil]
      exact List.nodup_append.mpr ⟨coherent.subjects, by simp,
        fun subject member other one => by
          rw [List.mem_singleton.mp one]
          exact fun same => new (same ▸ member)⟩
    · exact coherent.unresolved
    · exact coherent.names
    · exact coherent.roles
    · intro entry member
      simp [none] at member
    · intro other _ served
      simp [none] at served

theorem effect_coherent (graph : Graph) (operation : Operation) {registry : Registry}
    (coherent : registry.Coherent) : (operation.effect graph registry).Coherent := by
  by_cases resolving : operation.resolves = true
  · rw [effect_of_resolves graph registry resolving]
    exact resolve_coherent coherent
  · cases operation with
    | register id =>
        refine register_from_keeps Coherent ?_ _ id registry coherent
        exact fun _ _ _ _ before => { before with }
    | reserve file name owner =>
        simp only [Operation.effect, reserve_outcome]
        split
        · exact coherent
        · exact { coherent with }
    | request wish => exact request_coherent wish coherent
    | markReferenced id => exact { coherent with }
    | markDeclared id => exact { coherent with }
    | resolve | getAlias | getAliases | isClaimed => exact absurd rfl resolving

theorem after_coherent (graph : Graph) (history : List Operation) :
    (after graph history).Coherent :=
  after_invariant Coherent coherent_empty (fun operation _ => effect_coherent graph operation)
    history

def Withheld (file : Id) (name : String) (registry : Registry) : Prop :=
  registry.reserved.contains (file, name) = true ∧
    ∀ entry ∈ registry.aliases, ¬(entry.file = file ∧ entry.name = name)

theorem assign_withheld (file : Id) (name : String) (wish : Request) :
    (assign wish).Keeps (Withheld file name) := by
  intro registry withheld
  rcases assign_cases wish registry with same | ⟨base, _, served, free⟩
  · rwa [same]
  · rw [served]
    refine ⟨withheld.1, ?_⟩
    intro entry member same
    rcases List.mem_append.mp member with old | new
    · exact withheld.2 entry old same
    · obtain ⟨role, roleMember, rfl⟩ := Request.mem_aliases_iff.mp new
      have taken : (registry.holder? wish.file (base ++ role.word)).isSome := by
        rw [holder?_isSome_iff]
        have key : (wish.file, base ++ role.word) = (file, name) := Prod.ext same.1 same.2
        exact Or.inr (key ▸ withheld.1)
      rw [obstacle?_eq_none_iff.mp free role roleMember] at taken
      cases taken

theorem resolve_withheld (file : Id) (name : String) : resolve.Keeps (Withheld file name) :=
  resolve_keeps (fun _ _ _ withheld => withheld) (assign_withheld file name)

theorem effect_withheld (graph : Graph) (operation : Operation) {file : Id} {name : String}
    {registry : Registry} (withheld : Withheld file name registry) :
    Withheld file name (operation.effect graph registry) := by
  by_cases resolving : operation.resolves = true
  · rw [effect_of_resolves graph registry resolving]
    exact resolve_withheld file name registry withheld
  · cases operation with
    | register id =>
        refine register_from_keeps (Withheld file name) ?_ _ id registry withheld
        exact fun _ _ _ _ before => before
    | reserve other taken owner =>
        refine ⟨?_, ?_⟩
        · change ((reserve other taken owner).outcome registry).2.reserved.contains _ = true
          rw [reserve_contains, withheld.1, Bool.true_or]
        · simp only [Operation.effect, reserve_outcome]
          split
          · exact withheld.2
          · exact withheld.2
    | request wish =>
        simp only [Operation.effect]
        rcases request_cases wish registry with same | ⟨_, _, _, taken⟩
        · rwa [same]
        · rw [taken]
          exact withheld
    | markReferenced id => exact withheld
    | markDeclared id => exact withheld
    | resolve | getAlias | getAliases | isClaimed => exact absurd rfl resolving

/-- Until some operation needs aliases, the registry has not resolved. -/
theorem effect_unresolved (graph : Graph) {operation : Operation}
    (quiet : operation.resolves = false) {registry : Registry} (fresh : registry.resolved = false) :
    (operation.effect graph registry).resolved = false := by
  cases operation with
  | register id =>
      refine register_from_keeps (fun registry => registry.resolved = false) ?_ _ id registry fresh
      exact fun _ _ _ _ before => before
  | reserve file name owner =>
      simp only [Operation.effect, reserve_outcome]
      split
      · exact fresh
      · exact fresh
  | request wish =>
      simp only [Operation.effect]
      rcases request_cases wish registry with same | ⟨_, _, _, taken⟩
      · rwa [same]
      · rw [taken]
        exact fresh
  | markReferenced id => exact fresh
  | markDeclared id => exact fresh
  | resolve | getAlias | getAliases | isClaimed => cases quiet

theorem after_unresolved {graph : Graph} {history : List Operation}
    (quiet : ∀ operation ∈ history, operation.resolves = false) :
    (after graph history).resolved = false := by
  induction history using List.reverseRecOn with
  | nil => rfl
  | append_singleton history operation induction =>
      rw [after_append_singleton]
      refine effect_unresolved graph (quiet operation (by simp)) (induction ?_)
      exact fun other member => quiet other (by simp [member])

theorem after_withheld {graph : Graph} {earlier later : List Operation} {file : Id} {name : String}
    {owner : Id} (quiet : ∀ operation ∈ earlier, operation.resolves = false)
    (reserved : .reserve file name owner ∈ earlier) :
    Withheld file name (after graph (earlier ++ later)) := by
  obtain ⟨first, second, rfl⟩ := List.append_of_mem reserved
  have start : Withheld file name (after graph (first ++ [.reserve file name owner])) := by
    have fresh : (after graph (first ++ [.reserve file name owner])).resolved = false :=
      after_unresolved fun operation member => quiet operation (by
        rcases List.mem_append.mp member with before | here
        · simp [before]
        · simp [List.mem_singleton.mp here])
    refine ⟨?_, ?_⟩
    · rw [after_append_singleton]
      change ((reserve file name owner).outcome _).2.reserved.contains _ = true
      rw [reserve_contains, beq_self_eq_true, Bool.or_true]
    · rw [(after_coherent graph _).unresolved fresh]
      simp
  have whole : (first ++ .reserve file name owner :: second) ++ later =
      (first ++ [.reserve file name owner]) ++ (second ++ later) := by simp
  rw [whole]
  exact after_append_invariant _ (fun operation _ => effect_withheld graph operation) _ _ start

theorem mem_table_iff {registry : Registry} {entry : Alias} :
    entry ∈ registry.table ↔ entry ∈ registry.aliases :=
  Lists.mem_sort_by

/-- Names that do not repeat in a file are listed in strictly increasing order. -/
theorem table_pairwise {registry : Registry}
    (names : (registry.aliases.map fun entry => (entry.file, entry.name)).Nodup) :
    registry.table.Pairwise fun first second =>
      Text.bytes first.name < Text.bytes second.name ∨
        first.name = second.name ∧ first.file < second.file := by
  have sorted : registry.table.Pairwise fun first second => first.listedBefore second = true :=
    Lists.pairwise_sort_by Alias.listed_before_trans Alias.listed_before_total _
  have listed : (registry.table.map fun entry => (entry.file, entry.name)).Nodup :=
    ((Lists.sort_by_perm _ _).map _).nodup_iff.mpr names
  rw [List.Nodup, List.pairwise_map] at listed
  apply (sorted.and listed).imp
  rintro first second ⟨before, different⟩
  rcases Alias.listed_before_iff.mp before with less | ⟨same, files⟩
  · exact Or.inl (Text.bytes_lt_of_lt less)
  · refine Or.inr ⟨same, Id.lt_of_le_of_ne files ?_⟩
    exact fun file => different (Prod.ext file same)

/-- In a coherent registry a served subject has one entry in each of its roles. -/
theorem table_filter_role {registry : Registry} (coherent : registry.Coherent) {wish : Request}
    (asked : wish ∈ registry.requests) (served : wish.subject ∈ registry.assignedSubjects)
    {role : Role} {target : String} (wanted : wish.targets.lookup role = some target) :
    ∃ name, (registry.table.filter fun entry => entry.subject = wish.subject ∧ entry.role = role) =
      [⟨name, target, role, wish.subject, wish.file⟩] := by
  have roleMember : role ∈ wish.roles := Request.mem_roles_iff.mpr ⟨target, wanted⟩
  have named : wish.subject ∈ registry.aliases.map Alias.subject := List.mem_eraseDups.mp served
  obtain ⟨entry, member, subject, sameRole⟩ :=
    coherent.complete wish asked named role roleMember
  obtain ⟨origin, originAsked, originSubject, file, originTarget⟩ := coherent.origin entry member
  have same : origin = wish :=
    List.inj_on_of_nodup_map coherent.subjects originAsked asked (originSubject.trans subject)
  subst same
  have roles : (registry.table.map fun entry => (entry.subject, entry.role)).Nodup :=
    ((Lists.sort_by_perm _ _).map _).nodup_iff.mpr coherent.roles
  have only := Lists.filter_key_eq_singleton (fun entry : Alias => (entry.subject, entry.role))
    roles (mem_table_iff.mpr member)
  refine ⟨entry.name, ?_⟩
  have shape : entry = ⟨entry.name, target, role, origin.subject, origin.file⟩ := by
    rw [sameRole, wanted] at originTarget
    cases entry
    simp_all
  rw [← shape, ← only]
  refine List.filter_congr fun other _ => ?_
  simp [subject, sameRole]

/-- After every history the table is strictly sorted by name and file, lists each served subject
once in each of its roles with what it asked for, lists nothing else, and keeps clear of the names
reserved before the first resolution. -/
theorem after_table_sound (graph : Graph) (history : List Operation) :
    ((after graph history).table.Pairwise fun first second =>
        Text.bytes first.name < Text.bytes second.name ∨
          first.name = second.name ∧ first.file < second.file) ∧
      ((after graph history).requests.map Request.subject).Nodup ∧
      (∀ wish ∈ (after graph history).requests,
        wish.subject ∈ (after graph history).assignedSubjects →
        ∀ role target, wish.targets.lookup role = some target →
          ∃ name, ((after graph history).table.filter fun entry =>
              entry.subject = wish.subject ∧ entry.role = role) =
            [⟨name, target, role, wish.subject, wish.file⟩]) ∧
      (∀ entry ∈ (after graph history).table, ∃ wish ∈ (after graph history).requests,
        wish.subject = entry.subject ∧ wish.file = entry.file ∧
          wish.targets.lookup entry.role = some entry.target) ∧
      ∀ earlier later file name owner, history = earlier ++ later →
        (∀ operation ∈ earlier, operation.resolves = false) →
        .reserve file name owner ∈ earlier →
        ∀ entry ∈ (after graph history).table, ¬(entry.file = file ∧ entry.name = name) := by
  have coherent := after_coherent graph history
  refine ⟨table_pairwise coherent.names, coherent.subjects, ?_, ?_, ?_⟩
  · intro wish asked served role target wanted
    exact table_filter_role coherent asked served wanted
  · intro entry member
    exact coherent.origin entry (mem_table_iff.mp member)
  · rintro earlier later file name owner rfl quiet reserved entry member
    exact (after_withheld quiet reserved).2 entry (mem_table_iff.mp member)

end Registry

end SchemaStubs
