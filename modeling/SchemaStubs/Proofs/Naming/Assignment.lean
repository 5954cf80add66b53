import Mathlib.Data.List.Nodup
import SchemaStubs.Naming.Resolution
import SchemaStubs.Proofs.Lists
import SchemaStubs.Proofs.Step

/-!
What it means to serve one request for aliases: which base it takes, which names this adds to its
file, and that nothing else changes. A request that finds no base leaves the registry as it was.
-/

namespace SchemaStubs

theorem Role.mem_sorted {roles : List Role} {role : Role} : role ∈ Role.sorted roles ↔ role ∈ roles := by
  unfold Role.sorted
  rw [Lists.mem_sort_by, List.mem_eraseDups]

theorem Role.nodup_sorted (roles : List Role) : (Role.sorted roles).Nodup := by
  unfold Role.sorted
  exact (Lists.sort_by_perm _ _).nodup_iff.mpr (Lists.nodup_eraseDups roles)

namespace Request

theorem nodup_roles (wish : Request) : wish.roles.Nodup :=
  Role.nodup_sorted _

theorem mem_roles_iff {wish : Request} {role : Role} :
    role ∈ wish.roles ↔ ∃ target, wish.targets.lookup role = some target := by
  unfold roles
  rw [Role.mem_sorted, ← Option.isSome_iff_exists, List.lookup_isSome_iff]
  constructor
  · intro member
    obtain ⟨entry, found, same⟩ := List.mem_map.mp member
    exact ⟨entry, found, by simp [same]⟩
  · rintro ⟨entry, found, same⟩
    rw [beq_iff_eq] at same
    exact same ▸ List.mem_map_of_mem found

theorem lookup_target {wish : Request} {role : Role} (member : role ∈ wish.roles) :
    wish.targets.lookup role = some (wish.target role) := by
  obtain ⟨target, found⟩ := mem_roles_iff.mp member
  simp [Request.target, found]

def aliasFor (wish : Request) (base : String) (role : Role) : Alias :=
  ⟨base ++ role.word, wish.target role, role, wish.subject, wish.file⟩

def aliases (wish : Request) (base : String) : List Alias :=
  wish.roles.map (wish.aliasFor base)

theorem mem_aliases_iff {wish : Request} {base : String} {entry : Alias} :
    entry ∈ wish.aliases base ↔ ∃ role ∈ wish.roles, wish.aliasFor base role = entry := by
  simp [aliases]

theorem nodup_alias_names (wish : Request) (base : String) :
    ((wish.aliases base).map fun entry => (entry.file, entry.name)).Nodup := by
  unfold aliases
  rw [List.map_map]
  refine List.Nodup.map_on ?_ wish.nodup_roles
  intro one _ two _ same
  have words : base ++ one.word = base ++ two.word := congrArg Prod.snd same
  have word : one.word = two.word := by
    have chars := congrArg String.toList words
    rw [String.toList_append, String.toList_append] at chars
    exact String.toList_inj.mp (List.append_cancel_left chars)
  cases one
  cases two
  simpa using word

theorem nodup_alias_roles (wish : Request) (base : String) :
    ((wish.aliases base).map fun entry => (entry.subject, entry.role)).Nodup := by
  unfold aliases
  rw [List.map_map]
  refine List.Nodup.map_on ?_ wish.nodup_roles
  intro one _ two _ same
  exact congrArg Prod.snd same

end Request

namespace Registry

theorem alias_owner?_eq_none_iff {registry : Registry} {file : Id} {name : String} :
    registry.aliasOwner? file name = none ↔
      ∀ entry ∈ registry.aliases, ¬(entry.file = file ∧ entry.name = name) := by
  unfold aliasOwner?
  rw [Option.map_eq_none_iff, List.find?_eq_none]
  simp

theorem holder?_isSome_iff {registry : Registry} {file : Id} {name : String} :
    (registry.holder? file name).isSome ↔
      (∃ entry ∈ registry.aliases, entry.file = file ∧ entry.name = name) ∨
        registry.reserved.contains (file, name) := by
  unfold holder? Table.contains
  rcases owner : registry.aliasOwner? file name with _ | subject
  · rw [alias_owner?_eq_none_iff] at owner
    constructor
    · exact Or.inr
    · rintro (⟨entry, member, same⟩ | held)
      · exact absurd same (owner entry member)
      · exact held
  · refine ⟨fun _ => Or.inl ?_, fun _ => rfl⟩
    by_contra none
    have free : registry.aliasOwner? file name = .none := by
      rw [alias_owner?_eq_none_iff]
      exact fun entry member same => none ⟨entry, member, same⟩
    rw [free] at owner
    cases owner

theorem obstacle?_eq_none_iff {registry : Registry} {file : Id} {roles : List Role}
    {base : String} :
    registry.obstacle? file roles base = none ↔
      ∀ role ∈ roles, (registry.holder? file (base ++ role.word)).isSome = false := by
  unfold obstacle?
  rw [List.find?_eq_none]
  simp

theorem first_free_ok {registry : Registry} {file : Id} {roles : List Role} {bases : List String}
    {obstacle base : String} (found : registry.firstFree file roles obstacle bases = .ok base) :
    base ∈ bases ∧ registry.obstacle? file roles base = none := by
  induction bases generalizing obstacle with
  | nil => simp [firstFree] at found
  | cons first rest induction =>
      unfold firstFree at found
      split at found
      · rename_i free
        cases found
        exact ⟨by simp, free⟩
      · obtain ⟨member, free⟩ := induction found
        exact ⟨by simp [member], free⟩

theorem first_free_congr {one two : Registry} {file : Id}
    (same : ∀ name, (one.holder? file name).isSome = (two.holder? file name).isSome)
    (roles : List Role) (obstacle : String) (bases : List String) :
    one.firstFree file roles obstacle bases = two.firstFree file roles obstacle bases := by
  have obstacles : ∀ base, one.obstacle? file roles base = two.obstacle? file roles base := by
    intro base
    simp only [obstacle?, same]
  induction bases generalizing obstacle with
  | nil => rfl
  | cons base rest induction =>
      simp only [firstFree, obstacles base, induction]

def withAliases (registry : Registry) (wish : Request) (base : String) : Registry :=
  { registry with
    aliases := registry.aliases ++ wish.aliases base
    journal := registry.journal ++ wish.roles.map fun role =>
      .aliasAssigned wish.subject.text (base ++ role.word) role.word }

theorem assign_roles_outcome (wish : Request) (base : String) (roles : List Role)
    (registry : Registry) :
    (roles.forM (assignRole wish base)).outcome registry =
      (.ok (), { registry with
        aliases := registry.aliases ++ roles.map (wish.aliasFor base)
        journal := registry.journal ++ roles.map fun role =>
          .aliasAssigned wish.subject.text (base ++ role.word) role.word }) := by
  induction roles generalizing registry with
  | nil =>
      rw [List.map_nil, List.map_nil, List.append_nil, List.append_nil]
      rfl
  | cons role rest induction =>
      rw [Step.forM_cons, Step.outcome_bind]
      simp only [assignRole, note, Step.outcome_bind, Step.outcome_modify, induction,
        List.map_cons, List.append_assoc, List.singleton_append, Request.aliasFor]

theorem assign_outcome (wish : Request) (registry : Registry) :
    (assign wish).outcome registry =
      match registry.firstFree wish.file wish.roles "" wish.candidates with
      | .ok base => (.ok (), registry.withAliases wish base)
      | .error obstacle =>
          (.error (Cause.nameCollision obstacle
            ((registry.holder? wish.file obstacle).getD 0) wish.subject.node), registry) := by
  simp only [assign, Step.outcome_bind, Step.outcome_get]
  rcases registry.firstFree wish.file wish.roles "" wish.candidates with obstacle | base
  · rfl
  · exact assign_roles_outcome wish base wish.roles registry

/-- Serving a request either leaves the registry as it is or adds its aliases under a base that
none of its names was held for. -/
theorem assign_cases (wish : Request) (registry : Registry) :
    ((assign wish).outcome registry).2 = registry ∨
      ∃ base ∈ wish.candidates, (assign wish).Returns registry () (registry.withAliases wish base) ∧
        registry.obstacle? wish.file wish.roles base = none := by
  unfold Step.Returns
  rw [assign_outcome]
  rcases found : registry.firstFree wish.file wish.roles "" wish.candidates with obstacle | base
  · exact Or.inl rfl
  · obtain ⟨member, free⟩ := first_free_ok found
    exact Or.inr ⟨base, member, rfl, free⟩

end Registry

end SchemaStubs
