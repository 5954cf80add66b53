import Mathlib.Tactic.SplitIfs
import SchemaStubs.Proofs.Lists
import SchemaStubs.Text.Join
import SchemaStubs.Text.Octets

/-!
The order of texts is the order of their bytes. Texts are compared by code point, and the encoding
gives a greater code point a greater row of bytes, so a list sorted by one order is sorted by the
other.
-/

namespace SchemaStubs.Text

def bytes (text : String) : List UInt8 :=
  text.toUTF8.data.toList

theorem bytes_eq_flatMap (text : String) : bytes text = text.toList.flatMap utf8 := by
  have encoded : text.toUTF8 = text.toList.utf8Encode := by
    rw [← String.toByteArray_ofList, String.ofList_toList]
    rfl
  unfold bytes
  rw [encoded, List.utf8Encode, List.toList_data_toByteArray]
  rfl

theorem ofNat_lt_iff {first second : Nat} (firstBound : first < 256) (secondBound : second < 256) :
    UInt8.ofNat first < UInt8.ofNat second ↔ first < second := by
  rw [UInt8.lt_iff_toNat_lt, UInt8.toNat_ofNat_of_lt' firstBound,
    UInt8.toNat_ofNat_of_lt' secondBound]

theorem ofNat_eq_iff {first second : Nat} (firstBound : first < 256) (secondBound : second < 256) :
    UInt8.ofNat first = UInt8.ofNat second ↔ first = second := by
  rw [← UInt8.toNat_inj, UInt8.toNat_ofNat_of_lt' firstBound,
    UInt8.toNat_ofNat_of_lt' secondBound]

/-- The bytes of a lesser character are less, whatever follows them: two encodings differ within
the shorter of them. -/
theorem utf8_lt_of_lt {first second : Char} (less : first < second) (one two : List UInt8) :
    utf8 first ++ one < utf8 second ++ two := by
  have below : first.val.toNat < second.val.toNat := less
  have bound : second.val.toNat < 0x110000 := by
    have valid := second.valid
    simp only [UInt32.isValidChar, Nat.isValidChar] at valid
    omega
  unfold utf8 String.utf8EncodeChar
  generalize first.val.toNat = code at *
  generalize second.val.toNat = greater at *
  simp only []
  split_ifs
  all_goals simp (disch := omega) only [List.cons_append, List.nil_append,
    List.cons_lt_cons_iff, ofNat_lt_iff, ofNat_eq_iff]
  all_goals try omega
  -- Four bytes each: the places are compared one by one, the highest first.
  have highest : code / 262144 ≤ greater / 262144 := by omega
  rcases Nat.lt_or_eq_of_le highest with different | same
  · exact Or.inl (by omega)
  · have next : code / 4096 ≤ greater / 4096 := by omega
    rcases Nat.lt_or_eq_of_le next with different | alike
    · exact Or.inr ⟨by omega, Or.inl (by omega)⟩
    · refine Or.inr ⟨by omega, Or.inr ⟨by omega, ?_⟩⟩
      omega

theorem flatMap_utf8_lt_of_lt {first second : List Char} (less : first < second) :
    first.flatMap utf8 < second.flatMap utf8 := by
  induction less with
  | @nil head tail =>
      rw [List.flatMap_nil, List.flatMap_cons]
      rcases shape : utf8 head with _ | ⟨byte, rest⟩
      · exact absurd shape String.utf8EncodeChar_ne_nil
      · exact List.nil_lt_cons _ _
  | @cons head one two _ induction =>
      rw [List.flatMap_cons, List.flatMap_cons]
      exact List.append_left_lt induction
  | @rel one ones two twos smaller =>
      rw [List.flatMap_cons, List.flatMap_cons]
      exact utf8_lt_of_lt smaller _ _

theorem bytes_lt_of_lt {first second : String} (less : first < second) :
    bytes first < bytes second := by
  rw [bytes_eq_flatMap, bytes_eq_flatMap]
  exact flatMap_utf8_lt_of_lt less

variable {texts others : List String}

theorem precedes_trans (one two three : String) (first : precedes one two)
    (second : precedes two three) : precedes one three :=
  decide_eq_true (String.le_trans (of_decide_eq_true first) (of_decide_eq_true second))

theorem precedes_total (one two : String) : precedes one two || precedes two one := by
  simpa [precedes] using String.le_total one two

theorem sorted_eq_of_perm (perm : texts.Perm others) : sorted texts = sorted others :=
  Lists.sort_by_eq_of_perm precedes_trans precedes_total perm fun _ _ _ _ before behind =>
    String.le_antisymm (of_decide_eq_true before) (of_decide_eq_true behind)

theorem bytes_lt_or_eq {first second : String} (before : precedes first second) :
    bytes first < bytes second ∨ first = second := by
  have ordered : first ≤ second := of_decide_eq_true before
  by_cases less : first < second
  · exact .inl (bytes_lt_of_lt less)
  · exact .inr (String.le_antisymm ordered (String.not_lt.mp less))

theorem sorted_by_bytes (texts : List String) :
    (sorted texts).Pairwise fun one two => bytes one ≤ bytes two := by
  refine (Lists.pairwise_sort_by precedes_trans precedes_total texts).imp fun before => ?_
  rcases bytes_lt_or_eq before with less | rfl
  · exact List.lt_asymm less
  · exact List.lt_irrefl _

theorem sorted_strictly (distinct : texts.Nodup) :
    (sorted texts).Pairwise fun one two => bytes one < bytes two := by
  have ordered := Lists.pairwise_sort_by precedes_trans precedes_total texts
  have apart : (sorted texts).Nodup := (Lists.sort_by_perm precedes texts).nodup_iff.mpr distinct
  refine (ordered.and apart).imp fun both => ?_
  exact (bytes_lt_or_eq both.1).resolve_right both.2

end SchemaStubs.Text
