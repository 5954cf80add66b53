import Mathlib.Data.List.ProdSigma
import SchemaStubs.Proofs.Stub.Imports

/-!
Under which names a stub imports the aliases of other stubs. The qualifiers that are tried always
contain one under which all aliases of a subject are free, so no import takes a name of the runtime,
and a name is imported from a module once.
-/

namespace SchemaStubs.Stub

theorem number_inj {one two : Nat} (same : toString one = toString two) : one = two := by
  rw [Nat.toString_eq_ofList_toDigits, Nat.toString_eq_ofList_toDigits, String.ofList_inj] at same
  have read := congrArg (fun digits => Nat.ofDigitChars 10 digits 0) same
  simpa using read

namespace Draft

/-- Among the qualifiers to try there is one under which all aliases are free: each taken name
stands in the way of each alias under one number at most. -/
theorem free_qualifier_found (taken : List String) (file : String) (aliases : List (Role × String)) :
    ((qualifiers file (aliases.length * taken.length + 1)).find? fun qualifier =>
      areFree taken (qualified qualifier aliases)) = some (freeQualifier taken file aliases) := by
  unfold freeQualifier
  rcases found : (qualifiers file (aliases.length * taken.length + 1)).find? fun qualifier =>
    areFree taken (qualified qualifier aliases) with _ | qualifier
  · exfalso
    have blocked : ∀ number ∈ List.range (aliases.length * taken.length + 1),
        ∃ pair ∈ aliases ×ˢ taken,
          Location.pathQualifier file ++ toString (number + 2) ++ pair.1.2 = pair.2 := by
      intro number inside
      have tried : Location.pathQualifier file ++ toString (number + 2) ∈
          qualifiers file (aliases.length * taken.length + 1) :=
        List.mem_append_right _ (List.mem_map.mpr ⟨number, inside, rfl⟩)
      have failed := List.find?_eq_none.mp found _ tried
      simp only [areFree, qualified, List.all_map, List.all_eq_true, Function.comp_apply,
        decide_eq_true_eq, not_forall, not_not] at failed
      obtain ⟨entry, member, inTheWay⟩ := failed
      exact ⟨(entry, _), List.mem_product.mpr ⟨member, inTheWay⟩, rfl⟩
    choose! pair inside spelled using blocked
    have distinct : ((List.range (aliases.length * taken.length + 1)).map pair).Nodup := by
      apply List.Nodup.map_on _ List.nodup_range
      intro one inOne two inTwo same
      have first := spelled one inOne
      rw [same, ← spelled two inTwo, String.append_left_inj, String.append_right_inj] at first
      have numbers := number_inj first
      omega
    have listed : (List.range (aliases.length * taken.length + 1)).map pair ⊆ aliases ×ˢ taken := by
      intro entry member
      obtain ⟨number, known, rfl⟩ := List.mem_map.mp member
      exact inside number known
    have short := (List.subperm_of_subset distinct listed).length_le
    rw [List.length_map, List.length_range, List.length_product] at short
    omega
  · rfl

theorem free_qualifier_free (taken : List String) (file : String)
    (aliases : List (Role × String)) :
    areFree taken (qualified (freeQualifier taken file aliases) aliases) = true := by
  have free := List.find?_some (free_qualifier_found taken file aliases)
  exact free

/-- The qualifier depends on which names are taken and not on their order: trying more numbers than
are needed changes nothing. -/
theorem free_qualifier_congr {one two : List String} (same : ∀ name, name ∈ one ↔ name ∈ two)
    (file : String) (aliases : List (Role × String)) :
    freeQualifier one file aliases = freeQualifier two file aliases := by
  have free : (fun qualifier => areFree one (qualified qualifier aliases)) =
      fun qualifier => areFree two (qualified qualifier aliases) := by
    funext qualifier
    simp only [areFree, same]
  have longer : ∀ {fewer more : Nat}, fewer ≤ more →
      qualifiers file fewer <+: qualifiers file more := by
    intro fewer more most
    have numbers : List.range fewer <+: List.range more := by
      have taken := List.take_prefix fewer (List.range more)
      rwa [List.take_range, Nat.min_eq_left most] at taken
    exact (List.prefix_append_right_inj _).mpr (numbers.map _)
  have ofOne := free_qualifier_found one file aliases
  have ofTwo := free_qualifier_found two file aliases
  rw [free] at ofOne
  rcases Nat.le_total (aliases.length * one.length + 1) (aliases.length * two.length + 1) with
    less | more
  · rw [(longer less).find?_eq_some ofOne] at ofTwo
    exact Option.some.inj ofTwo
  · rw [(longer more).find?_eq_some ofTwo] at ofOne
    exact (Option.some.inj ofOne).symm

end Draft

/-- How a draft has named its imports: aliases keep their roles, no name is one of the runtime, and
a module has one import under a name. -/
structure Renaming (draft : Draft) : Prop where
  resolved : draft.registry.resolved = true
  locals : ∀ subject names, draft.locals.get? subject = some names →
    names.map Prod.fst = (draft.registry.aliasesOf subject).map Prod.fst ∧
      ∀ entry ∈ names, entry.2 ∉ runtimeNames
  imports : ∀ entry ∈ draft.imports, entry.localName ∉ runtimeNames
  keyed : (draft.imports.map fun entry => (entry.fromModule, entry.localName)).Nodup

theorem map_add (entry : Import) (imports : List Import) :
    (Import.add entry imports).map (fun other => (other.fromModule, other.localName)) =
      if (entry.fromModule, entry.localName) ∈
          imports.map (fun other => (other.fromModule, other.localName)) then
        imports.map fun other => (other.fromModule, other.localName)
      else
        imports.map (fun other => (other.fromModule, other.localName)) ++
          [(entry.fromModule, entry.localName)] := by
  induction imports with
  | nil => rfl
  | cons first rest induction =>
      unfold Import.add
      by_cases same : first.fromModule = entry.fromModule ∧ first.localName = entry.localName
      · simp [same]
      · have other : (entry.fromModule, entry.localName) ≠ (first.fromModule, first.localName) := by
          intro alike
          rw [Prod.mk.injEq] at alike
          exact same ⟨alike.1.symm, alike.2.symm⟩
        rw [if_neg same, List.map_cons, induction, List.map_cons]
        simp only [List.mem_cons, other, false_or]
        split <;> rfl

theorem nodup_add {entry : Import} {imports : List Import}
    (keyed : (imports.map fun other => (other.fromModule, other.localName)).Nodup) :
    ((Import.add entry imports).map fun other => (other.fromModule, other.localName)).Nodup := by
  rw [map_add]
  split
  · exact keyed
  · rename_i new
    rw [List.nodup_append]
    refine ⟨keyed, by simp, ?_⟩
    intro key earlier other single same
    cases List.mem_singleton.mp single
    exact new (same ▸ earlier)

theorem lookup_isSome_of_roles {one two : List (Role × String)} {role : Role} {name : String}
    (same : one.map Prod.fst = two.map Prod.fst) (found : two.lookup role = some name) :
    ∃ other, one.lookup role = some other := by
  have inTwo : role ∈ two.map Prod.fst := by
    obtain ⟨front, back, whole, _⟩ := List.lookup_eq_some_iff.mp found
    simp [whole]
  rw [← same] at inTwo
  obtain ⟨entry, member, rfl⟩ := List.mem_map.mp inTwo
  rcases sought : one.lookup entry.1 with _ | other
  · have absent := List.lookup_eq_none_iff.mp sought entry member
    simp at absent
  · exact ⟨other, rfl⟩

theorem import_aliases_renaming (plan : Plan) (target : Id) (file : Node) (roles : List Role) :
    (Draft.importAliases plan target file roles).Keeps Renaming := by
  refine import_aliases_keeps (fun draft named => named.resolved) ?_ ?_ roles
  · intro draft aliases named same
    refine { named with locals := ?_ }
    intro subject names known
    rw [Table.get?_set] at known
    split at known
    · rename_i own
      cases known
      subst own
      refine ⟨by simp [Draft.qualified, same], ?_⟩
      intro entry member
      have free := Draft.free_qualifier_free (draft.takenNames { node := target }) file.name aliases
      have untaken := of_decide_eq_true (List.all_eq_true.mp free entry member)
      intro ofRuntime
      exact untaken (by simp [Draft.takenNames, ofRuntime])
    · exact named.locals subject names known
  · intro draft names role name named known found
    obtain ⟨alike, apart⟩ := named.locals _ names known
    refine { named with imports := ?_, keyed := nodup_add named.keyed }
    intro entry member
    rcases mem_add member with rfl | earlier
    · obtain ⟨given, sought⟩ := lookup_isSome_of_roles alike found
      have inside : (role, given) ∈ names := by
        obtain ⟨front, back, whole, _⟩ := List.lookup_eq_some_iff.mp sought
        simp [whole]
      rw [sought]
      exact apart _ inside
    · exact named.imports entry earlier

/-- Drafting a stub never lets an import take a name of the runtime. -/
theorem renaming_frame {plan : Plan} (located : plan.Located) : Frame plan Renaming where
  targets target reference known := (located target reference known).1
  markReferenced _ _ named := { named with }
  anyPointer _ named := { named with }
  importAliases target _ file roles _ _ _ _ := import_aliases_renaming plan target file roles _
  note _ _ named := { named with }
  markDeclared _ _ named := { named with }
  bind _ _ := bind_keeps fun _ _ _ named => { named with }
  getAlias := get_alias_keeps fun _ named => named.resolved

end SchemaStubs.Stub
