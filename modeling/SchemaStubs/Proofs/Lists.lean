import Mathlib.Data.List.Forall2
import SchemaStubs.Sorting

/-!
Facts about lists that the naming of nodes rests on: repetitions are removed, an entry with a key of
its own is the only one found under that key, and a stable sort may be done before or after entries
are picked out.
-/

namespace SchemaStubs.Lists

variable {α β : Type}

/-- What is checked entry by entry, whether or not the type of the entries is finite. -/
theorem forall_of_all {property : α → Prop} [DecidablePred property] {items : List α}
    (checked : (items.all fun item => decide (property item)) = true) :
    ∀ item ∈ items, property item := by
  simpa using checked

/-- Repetitions are removed item by item, from a rest that the item was taken out of. -/
theorem eraseDups_induction [DecidableEq α] {motive : List α → Prop} (nil : motive [])
    (cons : ∀ item rest, motive (rest.filter fun other => !other == item) → motive (item :: rest))
    (items : List α) : motive items := by
  induction bound : items.length using Nat.strongRecOn generalizing items with
  | _ size induction =>
      cases items with
      | nil => exact nil
      | cons item rest =>
          have shorter : (rest.filter fun other => !other == item).length < size := by
            have filtered := List.length_filter_le (fun other => !other == item) rest
            simp only [List.length_cons] at bound
            omega
          exact cons item rest (induction _ shorter _ rfl)

theorem nodup_eraseDups [DecidableEq α] (items : List α) : items.eraseDups.Nodup := by
  induction items using eraseDups_induction with
  | nil => simp
  | cons item rest induction =>
      rw [List.eraseDups_cons, List.nodup_cons]
      refine ⟨?_, induction⟩
      rw [List.mem_eraseDups, List.mem_filter]
      simp

theorem filter_image {image : α → β} {test : β → Bool} {test' : α → Bool}
    (same : ∀ item, test (image item) = test' item) (items : List α) :
    (items.map image).filter test = (items.filter test').map image := by
  rw [List.filter_map, show test ∘ image = test' from funext same]

theorem find?_image {image : α → β} {test : β → Bool} {test' : α → Bool}
    (same : ∀ item, test (image item) = test' item) (items : List α) :
    (items.map image).find? test = (items.find? test').map image := by
  rw [List.find?_map, show test ∘ image = test' from funext same]

theorem eraseDups_map [DecidableEq α] [DecidableEq β] {image : α → β}
    (injective : Function.Injective image) (items : List α) :
    (items.map image).eraseDups = items.eraseDups.map image := by
  induction items using eraseDups_induction with
  | nil => simp
  | cons item rest induction =>
      have left : (rest.map image).filter (fun other => !other == image item) =
          (rest.filter fun other => !other == item).map image :=
        filter_image (fun other => by rw [injective.beq_eq]) rest
      rw [List.map_cons, List.eraseDups_cons, List.eraseDups_cons, List.map_cons, left, induction]

/-- What is found first in a list is found first among its different items. -/
theorem find?_eraseDups [DecidableEq α] (test : α → Bool) (items : List α) :
    items.eraseDups.find? test = items.find? test := by
  induction items using eraseDups_induction with
  | nil => simp
  | cons item rest induction =>
      rw [List.eraseDups_cons, List.find?_cons, List.find?_cons]
      by_cases passes : test item = true
      · simp only [passes]
      · simp only [Bool.not_eq_true] at passes
        simp only [passes]
        rw [induction, List.find?_filter]
        congr 1
        funext other
        by_cases same : other = item
        · subst same
          simp [passes]
        · simp [same]

/-- When keys do not repeat, an entry is all that is found under its key. -/
theorem filter_key_eq_singleton [DecidableEq β] (key : α → β) {items : List α} {item : α}
    (distinct : (items.map key).Nodup) (member : item ∈ items) :
    (items.filter fun other => key other = key item) = [item] := by
  induction items with
  | nil => simp at member
  | cons first rest induction =>
      rw [List.map_cons, List.nodup_cons] at distinct
      rcases List.mem_cons.mp member with rfl | later
      · have others : (rest.filter fun other => key other = key item) = [] := by
          rw [List.filter_eq_nil_iff]
          intro other otherMember same
          apply distinct.1
          rw [← of_decide_eq_true same]
          exact List.mem_map_of_mem otherMember
        rw [List.filter_cons_of_pos (by simp), others]
      · have different : key first ≠ key item := by
          intro same
          exact distinct.1 (same ▸ List.mem_map_of_mem later)
        rw [List.filter_cons_of_neg (by simpa using different)]
        exact induction distinct.2 later

section Sorting

variable {precedes : α → α → Bool}

theorem insert_by_perm (precedes : α → α → Bool) (item : α) (items : List α) :
    (insertBy precedes item items).Perm (item :: items) := by
  induction items with
  | nil => simp
  | cons first rest induction =>
      rw [insert_by_cons]
      split
      · exact .refl _
      · exact (induction.cons first).trans (.swap item first rest)

theorem sort_by_perm (precedes : α → α → Bool) (items : List α) :
    (sortBy precedes items).Perm items := by
  induction items with
  | nil => simp
  | cons item rest induction =>
      rw [sort_by_cons]
      exact (insert_by_perm precedes item _).trans (induction.cons item)

@[simp] theorem mem_sort_by {item : α} {items : List α} : item ∈ sortBy precedes items ↔ item ∈ items :=
  (sort_by_perm precedes items).mem_iff

theorem insert_by_map {β : Type} {image : α → β} {precedes' : β → β → Bool} {item : α} {items : List α}
    (same : ∀ other ∈ items, precedes' (image item) (image other) = precedes item other) :
    insertBy precedes' (image item) (items.map image) = (insertBy precedes item items).map image := by
  induction items with
  | nil => simp
  | cons first rest induction =>
      rw [List.map_cons, insert_by_cons, insert_by_cons, same first List.mem_cons_self,
        induction fun other member => same other (List.mem_cons_of_mem _ member)]
      split <;> rfl

theorem sort_by_map {β : Type} {image : α → β} {precedes' : β → β → Bool} {items : List α}
    (same : ∀ one ∈ items, ∀ two ∈ items, precedes' (image one) (image two) = precedes one two) :
    sortBy precedes' (items.map image) = (sortBy precedes items).map image := by
  induction items with
  | nil => simp
  | cons item rest induction =>
      rw [List.map_cons, sort_by_cons, sort_by_cons, induction fun one inOne two inTwo =>
        same one (List.mem_cons_of_mem _ inOne) two (List.mem_cons_of_mem _ inTwo)]
      refine insert_by_map fun other member => ?_
      exact same item List.mem_cons_self other (List.mem_cons_of_mem _ (mem_sort_by.mp member))

theorem insert_by_eq_cons {item : α} {items : List α}
    (first : ∀ other ∈ items, precedes item other = true) :
    insertBy precedes item items = item :: items := by
  cases items with
  | nil => simp
  | cons other rest => rw [insert_by_cons, if_pos (first other List.mem_cons_self)]

theorem filter_insert_by_of_neg (pick : α → Bool) {item : α} (left : ¬ pick item = true)
    (items : List α) : (insertBy precedes item items).filter pick = items.filter pick := by
  induction items with
  | nil => simp [left]
  | cons first rest induction =>
      rw [insert_by_cons]
      split
      · rw [List.filter_cons_of_neg left]
      · rw [List.filter_cons, List.filter_cons, induction]

variable (trans : ∀ one two three, precedes one two → precedes two three → precedes one three)
  (total : ∀ one two, precedes one two || precedes two one)

include trans in
/-- An item is put between those that stay before it and those that stay behind it. -/
theorem pairwise_insert_by {stays : α → α → Prop} {item : α} {items : List α}
    (sorted : items.Pairwise fun one two => precedes one two = true) (pairs : items.Pairwise stays)
    (before : ∀ other ∈ items, precedes item other = true → stays item other)
    (after : ∀ other ∈ items, precedes item other = false → stays other item) :
    (insertBy precedes item items).Pairwise stays := by
  induction items with
  | nil => simp
  | cons first rest induction =>
      obtain ⟨least, others⟩ := List.pairwise_cons.mp sorted
      obtain ⟨here, later⟩ := List.pairwise_cons.mp pairs
      rw [List.forall_mem_cons] at before after
      rw [insert_by_cons]
      by_cases leads : precedes item first = true
      · rw [if_pos leads]
        apply List.pairwise_cons.mpr
        refine ⟨?_, pairs⟩
        rw [List.forall_mem_cons]
        refine ⟨before.1 leads, fun other member => before.2 other member ?_⟩
        exact trans _ _ _ leads (least other member)
      · rw [if_neg leads]
        apply List.pairwise_cons.mpr
        refine ⟨fun other member => ?_, induction others later before.2 after.2⟩
        rcases List.mem_cons.mp ((insert_by_perm precedes item rest).mem_iff.mp member) with
          rfl | inRest
        · exact after.1 (by simpa using leads)
        · exact here other inRest

include trans total in
theorem pairwise_sort_by (items : List α) :
    (sortBy precedes items).Pairwise fun one two => precedes one two = true := by
  induction items with
  | nil => simp
  | cons item rest induction =>
      rw [sort_by_cons]
      apply pairwise_insert_by trans induction induction
      · intro other _ leads
        exact leads
      · intro other _ follows
        have either := total other item
        rwa [follows, Bool.or_false] at either

include trans total in
/-- Items that may stand in either order stand in the order they came in. -/
theorem sort_by_stable (items : List α) :
    (sortBy precedes items).Pairwise fun one two =>
      precedes one two = true ∧ (precedes two one = true → [one, two].Sublist items) := by
  induction items with
  | nil => simp
  | cons item rest induction =>
      rw [sort_by_cons]
      apply pairwise_insert_by trans (pairwise_sort_by trans total rest)
      · apply induction.imp
        intro one two kept
        exact ⟨kept.1, fun back => (kept.2 back).cons item⟩
      · intro other member leads
        have inRest := mem_sort_by.mp member
        exact ⟨leads, fun _ => (List.singleton_sublist.mpr inRest).cons_cons item⟩
      · intro other _ follows
        have either := total other item
        rw [follows, Bool.or_false] at either
        exact ⟨either, fun leads => by rw [follows] at leads; cases leads⟩

include trans in
theorem filter_insert_by (pick : α → Bool) {item : α} (picked : pick item = true) {items : List α}
    (sorted : items.Pairwise fun one two => precedes one two = true) :
    (insertBy precedes item items).filter pick = insertBy precedes item (items.filter pick) := by
  induction items with
  | nil => simp [picked]
  | cons first rest induction =>
      obtain ⟨least, later⟩ := List.pairwise_cons.mp sorted
      by_cases before : precedes item first = true
      · have all : ∀ other ∈ (first :: rest).filter pick, precedes item other = true := by
          intro other member
          rcases List.mem_cons.mp (List.mem_of_mem_filter member) with rfl | inRest
          · exact before
          · exact trans _ _ _ before (least other inRest)
        rw [insert_by_cons, if_pos before, List.filter_cons_of_pos picked, insert_by_eq_cons all]
      · rw [insert_by_cons, if_neg before, List.filter_cons, List.filter_cons]
        split
        · rw [insert_by_cons, if_neg before, induction later]
        · exact induction later

include trans total in
/-- Picking entries out of a sorted list gives the sorted list of the picked entries, in their
order where the sorting leaves them equal. -/
theorem filter_sort_by (pick : α → Bool) (items : List α) :
    (sortBy precedes items).filter pick = sortBy precedes (items.filter pick) := by
  induction items with
  | nil => simp
  | cons item rest induction =>
      have sorted := pairwise_sort_by trans total rest
      by_cases picked : pick item = true
      · rw [sort_by_cons, filter_insert_by trans pick picked sorted, induction,
          List.filter_cons_of_pos picked, sort_by_cons]
      · rw [sort_by_cons, filter_insert_by_of_neg pick picked, induction, List.filter_cons_of_neg picked]

include trans total in
/-- Sorting forgets the order in which items come, if no two of them stand at one place. -/
theorem sort_by_eq_of_perm {ones twos : List α} (perm : ones.Perm twos)
    (apart : ∀ one ∈ ones, ∀ two ∈ ones, precedes one two → precedes two one → one = two) :
    sortBy precedes ones = sortBy precedes twos := by
  have sorted : (sortBy precedes ones).Perm (sortBy precedes twos) :=
    (sort_by_perm precedes ones).trans (perm.trans (sort_by_perm precedes twos).symm)
  refine sorted.eq_of_pairwise (fun one two inOnes inTwos => ?_)
    (pairwise_sort_by trans total ones) (pairwise_sort_by trans total twos)
  exact apart one (mem_sort_by.mp inOnes) two (perm.mem_iff.mpr (mem_sort_by.mp inTwos))

end Sorting

/-- What occurs at most once in the parts of a list is in one part only. -/
theorem eq_of_count_flatMap_le_one {α β : Type} [DecidableEq β] {parts : α → List β}
    {items : List α} {value : β} (once : (items.flatMap parts).count value ≤ 1) {one two : α}
    (first : one ∈ items) (second : two ∈ items) (inOne : value ∈ parts one)
    (inTwo : value ∈ parts two) : one = two := by
  obtain ⟨front, back, rfl⟩ := List.append_of_mem first
  simp only [List.flatMap_append, List.flatMap_cons, List.count_append] at once
  have here := List.count_pos_iff.mpr inOne
  have elsewhere : value ∉ front.flatMap parts ∧ value ∉ back.flatMap parts :=
    ⟨List.count_eq_zero.mp (by omega), List.count_eq_zero.mp (by omega)⟩
  rcases List.mem_append.mp second with inFront | inRest
  · exact absurd (List.mem_flatMap.mpr ⟨two, inFront, inTwo⟩) elsewhere.1
  · rcases List.mem_cons.mp inRest with rfl | inBack
    · rfl
    · exact absurd (List.mem_flatMap.mpr ⟨two, inBack, inTwo⟩) elsewhere.2

/-- What stands in the first of two related lists has a partner in the second. -/
theorem exists_of_mem_left {related : α → β → Prop} {ones : List α} {twos : List β}
    (all : List.Forall₂ related ones twos) {one : α} (member : one ∈ ones) :
    ∃ two ∈ twos, related one two := by
  induction all with
  | nil => cases member
  | cons first _ induction =>
      rcases List.mem_cons.mp member with rfl | later
      · exact ⟨_, List.mem_cons_self, first⟩
      · obtain ⟨two, listed, partner⟩ := induction later
        exact ⟨two, List.mem_cons_of_mem _ listed, partner⟩

theorem forall₂_imp {related other : α → β → Prop} {ones : List α} {twos : List β}
    (each : ∀ one ∈ ones, ∀ two, related one two → other one two)
    (all : List.Forall₂ related ones twos) : List.Forall₂ other ones twos := by
  have listed : List.Forall₂ (fun one two => one ∈ ones ∧ related one two) ones twos :=
    (List.forall₂_and_left ones twos).mpr ⟨fun _ member => member, all⟩
  exact listed.imp fun one two ⟨member, holds⟩ => each one member two holds

theorem forall₂_filterMap {γ : Type} {find : α → Option β} {related : β → γ → Prop} {items : List α}
    {others : List γ}
    (all : List.Forall₂ (fun item other => ∃ found, find item = some found ∧ related found other) items
      others) : List.Forall₂ related (items.filterMap find) others := by
  induction all with
  | nil => exact .nil
  | cons first _ induction =>
      obtain ⟨found, same, holds⟩ := first
      rw [List.filterMap_cons_some same]
      exact .cons holds induction

end SchemaStubs.Lists
