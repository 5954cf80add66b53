import SchemaStubs.Proofs.Step
import SchemaStubs.Proofs.Text.ByteOrder
import SchemaStubs.Stub.Import

/-!
Imports in any order. The imports recorded for a stub are a table of modules, each with a table of
names, and such tables are gone through in no order of their own. Each import is checked against
those met before it, and its clause is put behind the clauses of its module that came earlier. Yet
neither the verdict nor the statements tell in which order the imports were met.
-/

namespace SchemaStubs.Stub

variable {bindings : Import.Bindings}

/-- What the imports met so far have come to: the node each name was imported for, and the clauses
of each module as they came. -/
structure Tally where
  owners : Table String Id := {}
  clauses : Table String (List String) := {}

namespace Tally

def clausesOf (tally : Tally) (fromModule : String) : List String :=
  (tally.clauses.get? fromModule).getD []

def count (tally : Tally) (entry : Import) : Tally where
  owners := tally.owners.set entry.localName entry.owner
  clauses := tally.clauses.set entry.fromModule
    (tally.clausesOf entry.fromModule ++ [entry.clause])

/-- Takes one more import, unless its name is bound by the stub, was met for another node, or is a
name of the standard library. -/
def add (bindings : Import.Bindings) (tally : Tally) (entry : Import) : Except Fault Tally :=
  match bindings.get? entry.localName with
  | some owner => .error (Cause.nameCollision entry.localName owner entry.owner)
  | none =>
      match (tally.owners.get? entry.localName).filter fun other => other != entry.owner with
      | some other => .error (Cause.nameCollision entry.localName other entry.owner)
      | none =>
          match libraryModule? entry.localName with
          | some fromModule =>
              .error (Cause.shadowedImport entry.localName entry.owner fromModule)
          | none => .ok (tally.count entry)

def modules (tally : Tally) : List (String × List String) :=
  (Text.sorted tally.clauses.keys).map fun fromModule =>
    (fromModule, Text.sorted (tally.clausesOf fromModule))

end Tally

namespace ImportSection

def ofNames (used : List String) (relative : List (String × List String)) : ImportSection where
  library := gather (used.filterMap fun name =>
    (libraryModule? name).map fun fromModule => (fromModule, name))
  runtime := Text.sorted (used.filter fun name => name ∈ runtimeNames)
  relative := relative

/-- Collects the imports of a stub when the recorded ones are met in the given order. -/
def collectAlong (bindings : Import.Bindings) (order : List Import) (body : String) :
    Except Fault ImportSection := do
  let used := identifiers body
  used.forM (Import.checkUsed bindings)
  let tally ← order.foldlM (Tally.add bindings) {}
  .ok (ofNames used tally.modules)

end ImportSection

structure Importable (bindings : Import.Bindings) (imports : List Import) : Prop where
  unbound : ∀ entry ∈ imports, bindings.get? entry.localName = none
  foreign : ∀ entry ∈ imports, libraryModule? entry.localName = none
  /-- A name is imported for one node. -/
  shared : ∀ one ∈ imports, ∀ two ∈ imports, one.localName = two.localName → one.owner = two.owner

theorem Importable.of_subset {imports others : List Import} (importable : Importable bindings imports)
    (inside : others ⊆ imports) : Importable bindings others where
  unbound entry member := importable.unbound entry (inside member)
  foreign entry member := importable.foreign entry (inside member)
  shared one first two second := importable.shared one (inside first) two (inside second)

structure Tally.Counts (bindings : Import.Bindings) (met : List Import) (tally : Tally) : Prop where
  importable : Importable bindings met
  owners : ∀ name owner, tally.owners.get? name = some owner ↔
    ∃ entry ∈ met, entry.localName = name ∧ entry.owner = owner
  clauses : ∀ fromModule, tally.clausesOf fromModule =
    (met.filter fun entry => entry.fromModule == fromModule).map Import.clause
  modules : tally.clauses.keys = (met.map Import.fromModule).eraseDups

theorem Tally.counts_nothing (bindings : Import.Bindings) : Tally.Counts bindings [] {} where
  importable := ⟨by simp, by simp, by simp⟩
  owners name owner := by simp [Table.get?]
  clauses fromModule := by simp [clausesOf, Table.get?]
  modules := by simp [Table.keys]

namespace Tally.Counts

variable {met : List Import} {tally : Tally}

theorem other_owner (counts : Counts bindings met tally) (entry : Import) :
    ((tally.owners.get? entry.localName).filter fun other => other != entry.owner) =
      ((met.reverse.find? fun other =>
        other.localName == entry.localName && other.owner != entry.owner).map Import.owner) := by
  cases found : met.reverse.find? fun other =>
      other.localName == entry.localName && other.owner != entry.owner with
  | none =>
      rw [Option.map_none, Option.filter_eq_none_iff]
      intro owner known
      obtain ⟨other, member, sameName, sameOwner⟩ := (counts.owners _ _).mp known
      have passed := List.find?_eq_none.mp found other (List.mem_reverse.mpr member)
      simpa [sameName, sameOwner] using passed
  | some other =>
      have member := List.mem_reverse.mp (List.mem_of_find?_eq_some found)
      have fits := List.find?_some found
      rw [Bool.and_eq_true, beq_iff_eq] at fits
      have known := (counts.owners entry.localName other.owner).mpr ⟨other, member, fits.1, rfl⟩
      rw [known, Option.map_some, Option.filter_some, if_pos fits.2]

theorem importable_append (importable : Importable bindings met) {entry : Import}
    (unbound : bindings.get? entry.localName = none)
    (foreign : libraryModule? entry.localName = none)
    (shared : ∀ other ∈ met, other.localName = entry.localName → other.owner = entry.owner) :
    Importable bindings (met ++ [entry]) where
  unbound := by
    rw [List.forall_mem_append, List.forall_mem_singleton]
    exact ⟨importable.unbound, unbound⟩
  foreign := by
    rw [List.forall_mem_append, List.forall_mem_singleton]
    exact ⟨importable.foreign, foreign⟩
  shared := by
    simp only [List.forall_mem_append, List.forall_mem_singleton]
    refine ⟨fun one first => ⟨importable.shared one first, shared one first⟩, fun two second => ?_,
      fun _ => trivial⟩
    exact fun same => (shared two second same.symm).symm

theorem clauses_of_count (tally : Tally) (entry : Import) (fromModule : String) :
    (tally.count entry).clausesOf fromModule =
      tally.clausesOf fromModule ++
        ([entry].filter fun other => other.fromModule == fromModule).map Import.clause := by
  unfold clausesOf count
  rw [Table.get?_set]
  by_cases here : fromModule = entry.fromModule
  · simp [here, clausesOf]
  · simp [here, Ne.symm here]

theorem count (counts : Counts bindings met tally) {entry : Import}
    (importable : Importable bindings (met ++ [entry])) :
    Counts bindings (met ++ [entry]) (tally.count entry) where
  importable := importable
  owners name owner := by
    have last : entry ∈ met ++ [entry] := List.mem_append_right _ List.mem_cons_self
    unfold Tally.count
    rw [Table.get?_set]
    by_cases same : name = entry.localName
    · rw [if_pos same, Option.some_inj]
      constructor
      · rintro rfl
        exact ⟨entry, last, same.symm, rfl⟩
      · rintro ⟨other, member, alike, rfl⟩
        exact importable.shared entry last other member (same.symm.trans alike.symm)
    · rw [if_neg same, counts.owners]
      simp [Ne.symm same]
  clauses fromModule := by
    rw [clauses_of_count, counts.clauses, List.filter_append, List.map_append]
  modules := by
    have known : entry.fromModule ∈ tally.clauses.keys ↔
        entry.fromModule ∈ met.map Import.fromModule := by
      rw [counts.modules, List.mem_eraseDups]
    unfold Tally.count
    rw [Table.keys_set, List.map_append, List.eraseDups_append]
    by_cases inside : entry.fromModule ∈ met.map Import.fromModule
    · rw [if_pos (known.mpr inside), counts.modules]
      simp [List.removeAll, inside, -List.mem_map]
    · rw [if_neg fun held => inside (known.mp held), counts.modules]
      simp [List.removeAll, List.eraseDups_cons, inside, -List.mem_map]

/-- One more import is either counted, or stopped because it does not go with those met. -/
theorem add (counts : Counts bindings met tally) (entry : Import) :
    (∃ next, tally.add bindings entry = .ok next ∧ Counts bindings (met ++ [entry]) next) ∨
      ∃ fault, tally.add bindings entry = .error fault ∧ fault.class? = some .nameCollision ∧
        ¬ Importable bindings (met ++ [entry]) := by
  have last : entry ∈ met ++ [entry] := List.mem_append_right _ List.mem_cons_self
  unfold Tally.add
  split
  case h_1 owner bound =>
    refine .inr ⟨_, rfl, rfl, fun importable => ?_⟩
    rw [importable.unbound entry last] at bound
    cases bound
  case h_2 unbound =>
    split
    case h_1 other known =>
      refine .inr ⟨_, rfl, rfl, fun importable => ?_⟩
      obtain ⟨known, different⟩ := Option.filter_eq_some_iff.mp known
      obtain ⟨earlier, member, sameName, rfl⟩ := (counts.owners _ _).mp known
      have same := importable.shared earlier (List.mem_append_left _ member) entry last sameName
      simp [same] at different
    case h_2 unshared =>
      split
      case h_1 fromModule known =>
        refine .inr ⟨_, rfl, rfl, fun importable => ?_⟩
        rw [importable.foreign entry last] at known
        cases known
      case h_2 unknown =>
        refine .inl ⟨_, rfl, counts.count (importable_append counts.importable unbound unknown ?_)⟩
        intro other member sameName
        have known := (counts.owners entry.localName other.owner).mpr ⟨other, member, sameName, rfl⟩
        rw [known, Option.filter_some] at unshared
        simpa using unshared

/-- All that comes is counted, or some import is stopped because not all of them go together. -/
theorem addAll (counts : Counts bindings met tally) (coming : List Import) :
    (∃ reached, coming.foldlM (Tally.add bindings) tally = .ok reached ∧
        Counts bindings (met ++ coming) reached) ∨
      ∃ fault, coming.foldlM (Tally.add bindings) tally = .error fault ∧
        fault.class? = some .nameCollision ∧ ¬ Importable bindings (met ++ coming) := by
  induction coming generalizing met tally with
  | nil => exact .inl ⟨tally, rfl, by rwa [List.append_nil]⟩
  | cons entry rest induction =>
      have whole : met ++ entry :: rest = met ++ [entry] ++ rest := by simp
      rw [List.foldlM_cons, whole]
      rcases counts.add entry with ⟨next, added, counted⟩ | ⟨fault, stopped, collides, unfit⟩
      · rw [added]
        exact induction counted
      · rw [stopped]
        refine .inr ⟨fault, rfl, collides, fun importable => unfit ?_⟩
        exact importable.of_subset (List.subset_append_left _ _)

/-- The check of an import looks at those met before, and so does its tally. -/
theorem check_local_eq (counts : Counts bindings met tally) (entry : Import) :
    Import.checkLocal bindings met.reverse entry = (tally.add bindings entry).map fun _ => () := by
  unfold Import.checkLocal Tally.add
  rw [counts.other_owner entry]
  cases bindings.get? entry.localName with
  | some owner => rfl
  | none =>
      cases met.reverse.find? fun other =>
          other.localName == entry.localName && other.owner != entry.owner with
      | some other => rfl
      | none => cases libraryModule? entry.localName <;> rfl

theorem check_locals_eq (counts : Counts bindings met tally) (coming : List Import) :
    Import.checkLocals bindings met.reverse coming =
      (coming.foldlM (Tally.add bindings) tally).map fun _ => () := by
  induction coming generalizing met tally with
  | nil => rfl
  | cons entry rest induction =>
      rw [Import.checkLocals, List.foldlM_cons, counts.check_local_eq entry]
      rcases counts.add entry with ⟨next, added, counted⟩ | ⟨fault, stopped, _, _⟩
      · rw [added]
        have before : entry :: met.reverse = (met ++ [entry]).reverse := by simp
        rw [before]
        exact induction counted
      · rw [stopped]
        rfl

theorem modules_eq (counts : Counts bindings met tally) : tally.modules =
    ImportSection.gather (met.map fun entry => (entry.fromModule, entry.clause)) := by
  unfold Tally.modules ImportSection.gather
  rw [counts.modules, List.map_map]
  refine List.map_congr_left fun fromModule _ => ?_
  rw [counts.clauses, List.filter_map, List.map_map]
  rfl

end Tally.Counts

namespace ImportSection

/-- What is gathered depends on the names alone, not on the order they come in. -/
theorem gather_eq_of_perm {names others : List (String × String)} (perm : names.Perm others) :
    gather names = gather others := by
  have modules : (names.map Prod.fst).eraseDups.Perm (others.map Prod.fst).eraseDups := by
    rw [List.perm_ext_iff_of_nodup (Lists.nodup_eraseDups _) (Lists.nodup_eraseDups _)]
    intro fromModule
    rw [List.mem_eraseDups, List.mem_eraseDups, (perm.map Prod.fst).mem_iff]
  unfold gather
  rw [Text.sorted_eq_of_perm modules]
  refine List.map_congr_left fun fromModule _ => ?_
  rw [Text.sorted_eq_of_perm ((perm.filter _).map Prod.snd)]

/-- The statements of a stub: modules in the order of their bytes, and so the names of each. -/
structure InOrder (statements : ImportSection) : Prop where
  library : (statements.library.map Prod.fst).Pairwise fun one two => Text.bytes one < Text.bytes two
  libraryNames : ∀ entry ∈ statements.library,
    entry.2.Pairwise fun one two => Text.bytes one ≤ Text.bytes two
  runtime : statements.runtime.Pairwise fun one two => Text.bytes one ≤ Text.bytes two
  relative : (statements.relative.map Prod.fst).Pairwise fun one two =>
    Text.bytes one < Text.bytes two
  relativeNames : ∀ entry ∈ statements.relative,
    entry.2.Pairwise fun one two => Text.bytes one ≤ Text.bytes two

theorem gather_modules (names : List (String × String)) :
    ((gather names).map Prod.fst).Pairwise fun one two => Text.bytes one < Text.bytes two := by
  have modules : (gather names).map Prod.fst = Text.sorted (names.map Prod.fst).eraseDups := by
    unfold gather
    rw [List.map_map]
    exact List.map_id _
  rw [modules]
  exact Text.sorted_strictly (Lists.nodup_eraseDups _)

theorem gather_names_sorted {names : List (String × String)} {entry : String × List String}
    (member : entry ∈ gather names) :
    entry.2.Pairwise fun one two => Text.bytes one ≤ Text.bytes two := by
  obtain ⟨fromModule, _, rfl⟩ := List.mem_map.mp member
  exact Text.sorted_by_bytes _

theorem of_names_in_order (used : List String) (names : List (String × String)) :
    (ofNames used (gather names)).InOrder where
  library := gather_modules _
  libraryNames _ member := gather_names_sorted member
  runtime := Text.sorted_by_bytes _
  relative := gather_modules _
  relativeNames _ member := gather_names_sorted member

/-- Imports by their modules and names are one of the orders in which they may be met. -/
theorem collect_eq_collect_along (bindings : Import.Bindings) (imports : List Import) (body : String) :
    collect bindings imports body =
      collectAlong bindings (sortBy Import.listedBefore imports) body := by
  have nothing := Tally.counts_nothing bindings
  -- the checks look back at the imports themselves, the tally at what they came to
  have checks := nothing.check_locals_eq (sortBy Import.listedBefore imports)
  rw [List.reverse_nil] at checks
  unfold collect collectAlong
  simp only [checks]
  rcases nothing.addAll (sortBy Import.listedBefore imports) with
    ⟨reached, added, counts⟩ | ⟨fault, stopped, _, _⟩
  · have gathered : reached.modules =
        gather (imports.map fun entry => (entry.fromModule, entry.clause)) := by
      rw [counts.modules_eq]
      exact gather_eq_of_perm ((Lists.sort_by_perm _ _).map _)
    rw [← gathered, added]
    rfl
  · rw [stopped]
    rfl

variable {bindings : Import.Bindings} {imports order : List Import} {body : String}

theorem collect_along_ok (perm : order.Perm imports)
    (used : (identifiers body).forM (Import.checkUsed bindings) = .ok ())
    (importable : Importable bindings imports) :
    collectAlong bindings order body = .ok (ofNames (identifiers body)
      (gather (imports.map fun entry => (entry.fromModule, entry.clause)))) := by
  have fit : Importable bindings ([] ++ order) := importable.of_subset perm.subset
  rcases (Tally.counts_nothing bindings).addAll order with
    ⟨reached, added, counts⟩ | ⟨_, _, _, unfit⟩
  · unfold collectAlong
    simp only [used, added]
    rw [← gather_eq_of_perm (perm.map _)]
    exact congrArg (fun modules => Except.ok (ofNames _ modules)) counts.modules_eq
  · exact absurd fit unfit

theorem collect_along_error (perm : order.Perm imports)
    (stops : (identifiers body).forM (Import.checkUsed bindings) ≠ .ok () ∨
      ¬ Importable bindings imports) :
    ∃ fault, collectAlong bindings order body = .error fault ∧
      fault.class? = some .nameCollision := by
  unfold collectAlong
  cases used : (identifiers body).forM (Import.checkUsed bindings) with
  | error fault =>
      obtain ⟨name, _, failed⟩ := except_forM_error used
      refine ⟨fault, by simp only [used]; rfl, ?_⟩
      unfold Import.checkUsed at failed
      split at failed
      · cases failed
        rfl
      · cases failed
  | ok _ =>
      have unfit := stops.resolve_left fun differs => differs used
      rcases (Tally.counts_nothing bindings).addAll order with
        ⟨_, _, counts⟩ | ⟨fault, stopped, collides, _⟩
      · exact absurd (counts.importable.of_subset perm.symm.subset) unfit
      · exact ⟨fault, by simp only [used, stopped]; rfl, collides⟩

/-- Whatever a stub binds, imports and uses: when its imports are met in any two orders, be it module
by module or not, there is either a collision in both, or both come to the same statements, with the
modules in the order of their bytes and so the names of each module. The program does what they
do. -/
theorem collect_in_any_order (bindings : Import.Bindings) (imports : List Import) (body : String)
    {one two : List Import} (first : one.Perm imports) (second : two.Perm imports) :
    (∀ attempt ∈ [collect bindings imports body, collectAlong bindings one body,
        collectAlong bindings two body],
      ∃ fault, attempt = .error fault ∧ fault.class? = some .nameCollision) ∨
    ∃ statements, collect bindings imports body = .ok statements ∧
      collectAlong bindings one body = .ok statements ∧
      collectAlong bindings two body = .ok statements ∧ statements.InOrder := by
  have own := Lists.sort_by_perm Import.listedBefore imports
  rw [collect_eq_collect_along]
  by_cases passes : (identifiers body).forM (Import.checkUsed bindings) = .ok () ∧
      Importable bindings imports
  · obtain ⟨used, importable⟩ := passes
    exact .inr ⟨_, collect_along_ok own used importable, collect_along_ok first used importable,
      collect_along_ok second used importable, of_names_in_order _ _⟩
  · rw [not_and_or] at passes
    simp only [List.forall_mem_cons]
    exact .inl ⟨collect_along_error own passes, collect_along_error first passes,
      collect_along_error second passes, by simp⟩

def drawnImports : List Import :=
  [⟨"._shapes", "Point", "Point", ⟨3⟩⟩, ⟨"._colors", "Red", "colorsRed", ⟨1⟩⟩,
    ⟨"._shapes", "Line", "Line", ⟨2⟩⟩]

def drawnStatements : ImportSection where
  library := [("typing", ["Any"])]
  runtime := []
  relative := [("._colors", ["Red as colorsRed"]), ("._shapes", ["Line", "Point"])]

/-- Backwards, and with the modules kept together. -/
theorem collect_in_any_order_drawn :
    drawnImports.reverse.Perm drawnImports ∧
      (sortBy Import.listedBefore drawnImports).Perm drawnImports ∧
      collectAlong {} drawnImports.reverse "Any" = .ok drawnStatements ∧
      collectAlong {} (sortBy Import.listedBefore drawnImports) "Any" = .ok drawnStatements := by
  have backwards := List.reverse_perm drawnImports
  have together := Lists.sort_by_perm Import.listedBefore drawnImports
  have collected : collect {} drawnImports "Any" = .ok drawnStatements := by decide +kernel
  refine ⟨backwards, together, ?_⟩
  rcases collect_in_any_order {} drawnImports "Any" backwards together with
    collides | ⟨statements, own, first, second, _⟩
  · obtain ⟨fault, failed, _⟩ := collides _ List.mem_cons_self
    rw [collected] at failed
    cases failed
  · rw [collected] at own
    cases own
    exact ⟨first, second⟩

end ImportSection

end SchemaStubs.Stub
