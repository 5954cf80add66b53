import Mathlib.Data.List.Basic
import Mathlib.Data.List.Infix
import Mathlib.Data.List.TakeWhile
import SchemaStubs.Text.Join

/-!
Texts put together with a separator and taken apart at it again, or cut at the last separator. Taking
apart undoes putting together when no text has the separator in it, and so does the cut for the last
text. A word cannot reach over a character it does not have, so what contains it is one of the parts
between such characters.
-/

namespace SchemaStubs.Text

theorem toList_join_with (separator : String) (texts : List String) :
    (joinWith separator texts).toList = separator.toList.intercalate (texts.map String.toList) := by
  induction texts using joinWith.induct with
  | case1 => rfl
  | case2 text => simp [joinWith]
  | case3 text next rest induction =>
      rw [joinWith, String.toList_append, String.toList_append, induction]
      simp

theorem join_with_append_singleton (separator last : String) {texts : List String} (some : texts ≠ []) :
    joinWith separator (texts ++ [last]) = joinWith separator texts ++ separator ++ last := by
  induction texts using joinWith.induct with
  | case1 => exact absurd rfl some
  | case2 text => rfl
  | case3 text next rest induction =>
      have later := induction (List.cons_ne_nil _ _)
      simp only [List.cons_append, joinWith] at later ⊢
      rw [later]
      simp only [String.append_assoc]

theorem join_with_append_last (separator : String) (front : List String) (last ending : String) :
    joinWith separator (front ++ [last ++ ending]) = joinWith separator (front ++ [last]) ++ ending := by
  cases front with
  | nil => rfl
  | cons first front =>
      rw [join_with_append_singleton _ _ (List.cons_ne_nil _ _),
        join_with_append_singleton _ _ (List.cons_ne_nil _ _), String.append_assoc, String.append_assoc,
        String.append_assoc]

theorem join_with_ne_empty {separator : String} {texts : List String} (some : texts ≠ [])
    (present : ∀ text ∈ texts, text ≠ "") : joinWith separator texts ≠ "" := by
  cases texts with
  | nil => exact absurd rfl some
  | cons first rest =>
      have filled := present first List.mem_cons_self
      cases rest with
      | nil => exact filled
      | cons next rest =>
          intro empty
          have chars := congrArg String.toList empty
          simp only [joinWith, String.toList_append] at chars
          simp at chars
          exact filled chars.1

theorem mem_join_with {separator : String} {c : Char} (apart : c ∉ separator.toList)
    (texts : List String) : c ∈ (joinWith separator texts).toList ↔ ∃ text ∈ texts, c ∈ text.toList := by
  induction texts using joinWith.induct with
  | case1 => simp [joinWith]
  | case2 text => simp [joinWith]
  | case3 text next rest induction =>
      rw [joinWith, String.toList_append, String.toList_append, List.mem_append, List.mem_append,
        induction, or_iff_left apart]
      exact (List.exists_mem_cons_iff (fun text => c ∈ text.toList) text (next :: rest)).symm

theorem size_join_with_cons (separator text : String) {rest : List String} (some : rest ≠ []) :
    size (joinWith separator (text :: rest)) =
      size text + size separator + size (joinWith separator rest) := by
  cases rest with
  | nil => exact absurd rfl some
  | cons next rest =>
      unfold size
      rw [joinWith, String.utf8ByteSize_append, String.utf8ByteSize_append]

theorem not_mem_of_mem_splitOn {separator : Char} {text piece : List Char}
    (member : piece ∈ text.splitOn separator) : separator ∉ piece := by
  unfold List.splitOn at member
  induction text generalizing piece with
  | nil =>
      rw [List.splitOnP_nil, List.mem_singleton] at member
      rw [member]
      exact List.not_mem_nil
  | cons first rest induction =>
      rw [List.splitOnP_cons_eq_if_modifyHead] at member
      split at member
      · rcases List.mem_cons.mp member with rfl | later
        · exact List.not_mem_nil
        · exact induction later
      · rename_i other
        obtain ⟨head, pieces, split⟩ :=
          List.exists_cons_of_ne_nil (List.splitOnP_ne_nil (fun c => c == separator) rest)
        rw [split, List.modifyHead_cons] at member
        rw [split] at induction
        rcases List.mem_cons.mp member with rfl | later
        · rw [List.mem_cons, not_or]
          refine ⟨?_, induction List.mem_cons_self⟩
          rintro rfl
          exact other (beq_self_eq_true _)
        · exact induction (List.mem_cons_of_mem _ later)

theorem not_mem_of_mem_split_at {separator : Char} {text piece : String}
    (member : piece ∈ splitAt separator text) : separator ∉ piece.toList := by
  obtain ⟨chars, listed, rfl⟩ := List.mem_map.mp member
  rw [String.toList_ofList]
  exact not_mem_of_mem_splitOn listed

theorem join_with_split_at (separator : Char) (text : String) :
    joinWith (String.singleton separator) (splitAt separator text) = text := by
  have pieces : (splitAt separator text).map String.toList = text.toList.splitOn separator := by
    unfold splitAt
    rw [List.map_map]
    simp [Function.comp_def]
  rw [← String.toList_inj, toList_join_with, pieces, String.toList_singleton,
    List.intercalate_splitOn]

theorem mem_of_mem_split_at {separator c : Char} {text piece : String}
    (member : piece ∈ splitAt separator text) (inside : c ∈ piece.toList) : c ∈ text.toList := by
  have other : c ∉ (String.singleton separator).toList := by
    rw [String.toList_singleton, List.mem_singleton]
    rintro rfl
    exact not_mem_of_mem_split_at member inside
  rw [← join_with_split_at separator text]
  exact (mem_join_with other _).mpr ⟨piece, member, inside⟩

theorem split_at_ne_nil (separator : Char) (text : String) : splitAt separator text ≠ [] := by
  unfold splitAt
  rw [Ne, List.map_eq_nil_iff]
  exact List.splitOnP_ne_nil _ _

theorem split_at_append (separator : Char) (front back : String) :
    splitAt separator (front ++ String.singleton separator ++ back) =
      splitAt separator front ++ splitAt separator back := by
  have split : (front.toList ++ separator :: back.toList).splitOn separator =
      front.toList.splitOn separator ++ back.toList.splitOn separator :=
    List.splitOnP_append_cons _ _ (beq_self_eq_true _)
  unfold splitAt
  rw [String.toList_append, String.toList_append, String.toList_singleton, List.append_assoc,
    List.singleton_append, split, List.map_append]

theorem split_at_eq_singleton {separator : Char} {text : String} (whole : separator ∉ text.toList) :
    splitAt separator text = [text] := by
  unfold splitAt List.splitOn
  rw [List.splitOnP_eq_singleton, List.map_singleton, String.ofList_toList]
  intro c member
  rw [beq_eq_false_iff_ne]
  rintro rfl
  exact whole member

theorem split_at_join_with {separator : Char} {texts : List String} (some : texts ≠ [])
    (whole : ∀ text ∈ texts, separator ∉ text.toList) :
    splitAt separator (joinWith (String.singleton separator) texts) = texts := by
  induction texts using joinWith.induct with
  | case1 => exact absurd rfl some
  | case2 text => exact split_at_eq_singleton (whole text List.mem_cons_self)
  | case3 text next rest induction =>
      rw [List.forall_mem_cons] at whole
      rw [joinWith, split_at_append, split_at_eq_singleton whole.1,
        induction (List.cons_ne_nil _ _) whole.2, List.singleton_append]

variable {separator : Char} {front back text : String}

theorem not_mem_after_last (separator : Char) (text : String) :
    separator ∉ (afterLast separator text).toList := by
  unfold afterLast
  rw [String.toList_ofList, List.mem_reverse]
  intro member
  have kept := List.mem_takeWhile_imp member
  simp at kept

theorem after_last_append (absent : separator ∉ back.toList) :
    afterLast separator (front ++ back) = afterLast separator front ++ back := by
  have whole : ∀ c ∈ back.toList.reverse, (c != separator) = true := by
    intro c member
    have different : c ≠ separator := by
      intro same
      exact absent (same ▸ List.mem_reverse.mp member)
    simpa using different
  unfold afterLast
  rw [String.toList_append, List.reverse_append, List.takeWhile_append_of_pos whole,
    List.reverse_append, List.reverse_reverse, String.ofList_append, String.ofList_toList]

theorem after_last_eq_self (absent : separator ∉ text.toList) : afterLast separator text = text := by
  have appended : afterLast separator ("" ++ text) = afterLast separator "" ++ text :=
    after_last_append absent
  rw [String.empty_append] at appended
  rw [appended]
  simp [afterLast]

theorem holds_word_iff_isInfix {word text : List Char} :
    holdsWord word text = true ↔ word <:+: text := by
  induction text with
  | nil => simp [holdsWord, List.infix_nil]
  | cons c rest induction =>
      rw [holdsWord, Bool.or_eq_true, induction, List.isPrefixOf_iff_prefix, List.infix_cons_iff]

theorem contains_iff_isInfix {word text : String} :
    contains word text = true ↔ word.toList <:+: text.toList :=
  holds_word_iff_isInfix

variable {word : String}

theorem contains_of_append_left {front back : String} (inside : contains word front = true) :
    contains word (front ++ back) = true := by
  rw [contains_iff_isInfix, String.toList_append]
  exact (contains_iff_isInfix.mp inside).trans (List.prefix_append _ _).isInfix

theorem contains_of_append_right {front back : String} (inside : contains word back = true) :
    contains word (front ++ back) = true := by
  rw [contains_iff_isInfix, String.toList_append]
  exact (contains_iff_isInfix.mp inside).trans (List.suffix_append _ _).isInfix

/-- A word in front of a character that it does not have ends before it. -/
theorem prefix_of_apart {letters front back : List Char} {c : Char} (apart : c ∉ letters)
    (starts : letters <+: front ++ c :: back) : letters <+: front := by
  rcases Nat.lt_or_ge front.length letters.length with longer | short
  · have reaches : front ++ [c] <+: letters := by
      refine List.prefix_of_prefix_length_le ?_ starts (by simpa [Nat.succ_le_iff] using longer)
      simp
    exact absurd (reaches.subset (by simp)) apart
  · exact List.prefix_of_prefix_length_le starts (List.prefix_append _ _) short

theorem infix_of_apart {letters front back : List Char} {c : Char} (apart : c ∉ letters)
    (inside : letters <:+: front ++ c :: back) : letters <:+: front ∨ letters <:+: back := by
  induction front with
  | nil =>
      rcases List.infix_cons_iff.mp inside with starts | later
      · exact .inl (prefix_of_apart apart starts).isInfix
      · exact .inr later
  | cons first rest induction =>
      rcases List.infix_cons_iff.mp inside with starts | later
      · exact .inl (prefix_of_apart apart starts).isInfix
      · exact (induction later).imp_left fun within => List.infix_cons_iff.mpr (.inr within)

theorem contains_append_of_head {front back : String} {c : Char}
    (opens : back.toList.head? = some c) (apart : c ∉ word.toList)
    (inside : contains word (front ++ back) = true) :
    contains word front = true ∨ contains word back = true := by
  obtain ⟨rest, chars⟩ := List.head?_eq_some_iff.mp opens
  rw [contains_iff_isInfix, String.toList_append, chars] at inside
  rw [contains_iff_isInfix, contains_iff_isInfix, chars]
  exact (infix_of_apart apart inside).imp_right fun within => List.infix_cons_iff.mpr (.inr within)

theorem contains_append_of_last {front back : String} {c : Char}
    (closes : front.toList.getLast? = some c) (apart : c ∉ word.toList)
    (inside : contains word (front ++ back) = true) :
    contains word front = true ∨ contains word back = true := by
  obtain ⟨rest, chars⟩ := List.getLast?_eq_some_iff.mp closes
  rw [contains_iff_isInfix, String.toList_append, chars, List.append_assoc,
    List.singleton_append] at inside
  rw [contains_iff_isInfix, contains_iff_isInfix, chars]
  exact (infix_of_apart apart inside).imp_left fun within =>
    within.trans (List.prefix_append _ _).isInfix

/-- Texts joined by a separator that begins and ends with characters the word does not have. -/
theorem contains_join_with {separator : String} {first last : Char}
    (opens : separator.toList.head? = some first) (closes : separator.toList.getLast? = some last)
    (apart : first ∉ word.toList ∧ last ∉ word.toList) (without : contains word separator = false)
    (filled : contains word "" = false) {texts : List String}
    (inside : contains word (joinWith separator texts) = true) :
    ∃ text ∈ texts, contains word text = true := by
  induction texts using joinWith.induct with
  | case1 =>
      rw [joinWith, filled] at inside
      cases inside
  | case2 text => exact ⟨text, List.mem_singleton_self _, inside⟩
  | case3 text next rest induction =>
      have ends : (text ++ separator).toList.getLast? = some last := by
        rw [String.toList_append, List.getLast?_append, closes]
        rfl
      rw [joinWith] at inside
      rcases contains_append_of_last ends apart.2 inside with front | back
      · rcases contains_append_of_head opens apart.1 front with here | between
        · exact ⟨text, List.mem_cons_self, here⟩
        · rw [without] at between
          cases between
      · obtain ⟨found, listed, held⟩ := induction back
        exact ⟨found, List.mem_cons_of_mem _ listed, held⟩

end SchemaStubs.Text
