import Mathlib.Data.List.Forall2
import Mathlib.Data.Nat.Digits.Defs
import Mathlib.Tactic.IntervalCases
import SchemaStubs.Document.Dialect
import SchemaStubs.Proofs.Lists

/-!
Identifiers as texts. Between blanks an identifier is written with decimal digits, or with hexadecimal
digits after `0x` or `0X`, as many as one likes, for a number that fits 64 bits; nothing else is read.
The text and the token that an identifier is written as are read back as that identifier.
-/

namespace SchemaStubs.Id

open Text (Piece piecesOf)

/-- The character is a digit of the base; letters stand for digits in either case. -/
def IsDigit (base digit : Nat) (c : Char) : Prop :=
  digit < base ∧ (c = digit.digitChar ∨ c = digit.digitChar.toUpper)

/-- The characters are digits of a number, at least one, the first one the most significant. -/
def Spells (base value : Nat) (numeral : List Char) : Prop :=
  numeral ≠ [] ∧ ∃ digits, List.Forall₂ (IsDigit base) digits numeral ∧
    value = Nat.ofDigits base digits.reverse

inductive Written (value : Nat) : List Char → Prop where
  | decimal {digits : List Char} (spelled : Spells 10 value digits) : Written value digits
  | hexadecimal {mark : Char} {digits : List Char} (marked : mark = 'x' ∨ mark = 'X')
      (spelled : Spells 16 value digits) : Written value ('0' :: mark :: digits)

/-- A text holds a number, written as an identifier, between blanks. -/
def Holds (text : List Piece) (value : Nat) : Prop :=
  ∃ front numeral back, text = front ++ piecesOf numeral ++ back ∧
    (∀ piece ∈ front ++ back, piece.isBlank = true) ∧ Written value numeral

section Digits

theorem toNat_digitChar {digit : Nat} (small : digit < 16) :
    digit.digitChar.toNat = if digit < 10 then 48 + digit else 87 + digit := by
  interval_cases digit <;> rfl

theorem toNat_to_upper_digitChar {digit : Nat} (small : digit < 16) :
    digit.digitChar.toUpper.toNat = if digit < 10 then 48 + digit else 55 + digit := by
  interval_cases digit <;> rfl

theorem is_digit_iff {base digit : Nat} {c : Char} (fits : base ≤ 16) :
    IsDigit base digit c ↔ digit < base ∧
      (c.toNat = (if digit < 10 then 48 + digit else 87 + digit) ∨
        c.toNat = if digit < 10 then 48 + digit else 55 + digit) := by
  unfold IsDigit
  refine and_congr_right fun inside => ?_
  have small : digit < 16 := by omega
  rw [← Char.toNat_inj, ← Char.toNat_inj, toNat_digitChar small, toNat_to_upper_digitChar small]

theorem decimal_value_eq_some_iff {c : Char} {digit : Nat} :
    decimalValue c = some digit ↔ IsDigit 10 digit c := by
  rw [is_digit_iff (by decide)]
  unfold decimalValue
  simp only [Bool.and_eq_true, decide_eq_true_eq]
  split_ifs <;> simp only [Option.some.injEq, false_iff] <;> omega

theorem hex_value_eq_some_iff {c : Char} {digit : Nat} :
    Text.hexValue c = some digit ↔ IsDigit 16 digit c := by
  rw [is_digit_iff (by decide)]
  unfold Text.hexValue
  simp only [Bool.and_eq_true, decide_eq_true_eq]
  split_ifs <;> simp only [Option.some.injEq, false_iff] <;> omega

end Digits

section Numerals

variable {base : Nat} {digit : Char → Option Nat}

/-- Digits are read one after the other, the value so far moving up by one place each time. -/
theorem foldlM_eq_some_iff (reads : ∀ c value, digit c = some value ↔ IsDigit base value c)
    {numeral : List Char} {start value : Nat} :
    numeral.foldlM (fun value c => (digit c).map (value * base + ·)) start = some value ↔
      ∃ digits, List.Forall₂ (IsDigit base) digits numeral ∧
        value = digits.foldl (fun value digit => value * base + digit) start := by
  induction numeral generalizing start with
  | nil =>
      simp only [List.foldlM_nil, List.forall₂_nil_right_iff, exists_eq_left, List.foldl_nil]
      exact Option.some_inj.trans eq_comm
  | cons c rest induction =>
      rw [List.foldlM_cons]
      constructor
      · intro read
        obtain ⟨next, first, later⟩ := Option.bind_eq_some_iff.mp read
        obtain ⟨place, isDigit, rfl⟩ := Option.map_eq_some_iff.mp first
        obtain ⟨digits, each, same⟩ := induction.mp later
        exact ⟨place :: digits, .cons ((reads c place).mp isDigit) each, same⟩
      · rintro ⟨digits, each, same⟩
        cases each with
        | @cons place _ others _ isDigit later =>
            refine Option.bind_eq_some_iff.mpr
              ⟨start * base + place, ?_, induction.mpr ⟨others, later, same⟩⟩
            rw [(reads c place).mpr isDigit, Option.map_some]

theorem foldl_eq_ofDigits (base : Nat) (digits : List Nat) :
    digits.foldl (fun value digit => value * base + digit) 0 = Nat.ofDigits base digits.reverse := by
  rw [Nat.ofDigits_eq_foldr, List.foldr_reverse]
  congr 1
  funext value digit
  rw [Nat.cast_id, Nat.mul_comm, Nat.add_comm]

theorem ofNat_eq_iff {value : Nat} {id : Id} :
    value < UInt64.size ∧ ofNat value = id ↔ value = id.value.toNat := by
  obtain ⟨word⟩ := id
  rw [ofNat, mk.injEq]
  constructor
  · rintro ⟨fits, rfl⟩
    exact (UInt64.toNat_ofNat_of_lt fits).symm
  · rintro rfl
    exact ⟨word.toNat_lt_size, UInt64.ofNat_toNat⟩

theorem numeral_eq_some_iff (reads : ∀ c value, digit c = some value ↔ IsDigit base value c)
    {digits : List Char} {id : Id} :
    numeral base digit digits = some id ↔ Spells base id.value.toNat digits := by
  unfold numeral Spells
  cases digits with
  | nil => simp
  | cons first rest =>
      have filled : ¬ (first :: rest).isEmpty = true := Bool.false_ne_true
      rw [if_neg filled]
      change Option.bind _ _ = _ ↔ _
      rw [Option.bind_eq_some_iff]
      constructor
      · rintro ⟨value, folded, fits⟩
        obtain ⟨digits, each, same⟩ := (foldlM_eq_some_iff reads).mp folded
        split at fits
        · rename_i small
          have whole := ofNat_eq_iff.mp ⟨small, Option.some.inj fits⟩
          rw [foldl_eq_ofDigits, whole] at same
          exact ⟨List.cons_ne_nil _ _, digits, each, same⟩
        · cases fits
      · rintro ⟨_, digits, each, same⟩
        obtain ⟨small, isId⟩ := ofNat_eq_iff.mpr (rfl : id.value.toNat = _)
        rw [← foldl_eq_ofDigits] at same
        refine ⟨id.value.toNat, (foldlM_eq_some_iff reads).mpr ⟨digits, each, same⟩, ?_⟩
        rw [if_pos small, isId]

theorem not_spells_mark {value : Nat} {mark : Char} {digits : List Char}
    (marked : mark = 'x' ∨ mark = 'X') : ¬ Spells 10 value ('0' :: mark :: digits) := by
  rintro ⟨_, places, _ | ⟨_, _ | ⟨isDigit, _⟩⟩, _⟩
  rw [← decimal_value_eq_some_iff] at isDigit
  rcases marked with rfl | rfl <;> cases isDigit

theorem written_marked_iff {value : Nat} {mark : Char} {digits : List Char}
    (marked : mark = 'x' ∨ mark = 'X') : Written value ('0' :: mark :: digits) ↔ Spells 16 value digits := by
  constructor
  · intro written
    cases written with
    | decimal spelled => exact absurd spelled (not_spells_mark marked)
    | hexadecimal _ spelled => exact spelled
  · exact .hexadecimal marked

theorem of_chars?_eq_some_iff {numeral : List Char} {id : Id} :
    ofChars? numeral = some id ↔ Written id.value.toNat numeral := by
  have hexadecimals : ∀ digits, Id.numeral 16 Text.hexValue digits = some id ↔
      Spells 16 id.value.toNat digits :=
    fun _ => numeral_eq_some_iff fun _ _ => hex_value_eq_some_iff
  unfold ofChars?
  split
  · rw [hexadecimals, written_marked_iff (.inl rfl)]
  · rw [hexadecimals, written_marked_iff (.inr rfl)]
  · rename_i lower upper
    rw [numeral_eq_some_iff fun _ _ => decimal_value_eq_some_iff]
    constructor
    · exact .decimal
    · intro written
      cases written with
      | decimal spelled => exact spelled
      | hexadecimal marked _ =>
          rcases marked with rfl | rfl
          · exact (lower _ rfl).elim
          · exact (upper _ rfl).elim

end Numerals

section Blanks

theorem not_is_blank_of_is_digit {base digit : Nat} {c : Char} (fits : base ≤ 16)
    (isDigit : IsDigit base digit c) : Text.isBlank c = false := by
  obtain ⟨inside, codes⟩ := (is_digit_iff fits).mp isDigit
  unfold Text.isBlank
  generalize c.toNat = code at codes ⊢
  simp only [Bool.or_eq_false_iff, Bool.and_eq_false_iff, decide_eq_false_iff_not, beq_eq_false_iff_ne]
  split_ifs at codes <;> omega

theorem Spells.solid {base value : Nat} {numeral : List Char} (fits : base ≤ 16)
    (spelled : Spells base value numeral) : ∀ c ∈ numeral, Text.isBlank c = false := by
  obtain ⟨_, digits, each, _⟩ := spelled
  intro c member
  obtain ⟨digit, _, isDigit⟩ := Lists.exists_of_mem_left each.flip member
  exact not_is_blank_of_is_digit fits isDigit

theorem Written.solid {value : Nat} {numeral : List Char} (written : Written value numeral) :
    numeral ≠ [] ∧ ∀ c ∈ numeral, Text.isBlank c = false := by
  cases written with
  | decimal spelled => exact ⟨spelled.1, spelled.solid (by decide)⟩
  | hexadecimal marked spelled =>
      refine ⟨List.cons_ne_nil _ _, ?_⟩
      rw [List.forall_mem_cons, List.forall_mem_cons]
      refine ⟨by decide, ?_, spelled.solid (by decide)⟩
      rcases marked with rfl | rfl <;> decide

theorem mapM_char?_eq_some_iff {text : List Piece} {chars : List Char} :
    text.mapM Piece.char? = some chars ↔ text = piecesOf chars := by
  induction text generalizing chars with
  | nil => cases chars <;> simp [piecesOf]
  | cons piece rest induction =>
      rw [List.mapM_cons]
      constructor
      · intro read
        obtain ⟨c, first, read⟩ := Option.bind_eq_some_iff.mp read
        obtain ⟨others, later, same⟩ := Option.bind_eq_some_iff.mp read
        obtain rfl := Option.some.inj same
        cases piece with
        | stray byte => cases first
        | char found =>
            obtain rfl := Option.some.inj first
            rw [induction.mp later]
            rfl
      · intro same
        cases chars with
        | nil => cases same
        | cons c others =>
            obtain ⟨rfl, rfl⟩ := List.cons_eq_cons.mp same
            exact Option.bind_eq_some_iff.mpr ⟨c, rfl, Option.bind_eq_some_iff.mpr
              ⟨others, induction.mpr rfl, rfl⟩⟩

section Trimming

variable {α : Type} {blank : α → Bool} {front core back text : List α}

theorem dropWhile_solid (present : core ≠ []) (blanks : ∀ item ∈ front, blank item = true)
    (solid : ∀ item ∈ core, blank item = false) :
    (front ++ (core ++ back)).dropWhile blank = core ++ back := by
  rw [List.dropWhile_append_of_pos blanks]
  cases core with
  | nil => exact absurd rfl present
  | cons first rest =>
      have stays := solid first List.mem_cons_self
      rw [List.cons_append, List.dropWhile_cons_of_neg (by rw [stays]; exact Bool.false_ne_true)]

/-- What is left when both ends are dropped stands between two runs of blanks. -/
theorem trimmed_eq_iff (present : core ≠ []) (solid : ∀ item ∈ core, blank item = false) :
    ((text.dropWhile blank).reverse.dropWhile blank).reverse = core ↔
      ∃ front back, text = front ++ core ++ back ∧ ∀ item ∈ front ++ back, blank item = true := by
  constructor
  · intro left
    let ahead := text.takeWhile blank
    let behind := (text.dropWhile blank).reverse.takeWhile blank
    have whole : text = ahead ++ core ++ behind.reverse := by
      rw [← left, List.append_assoc, ← List.reverse_append, List.takeWhile_append_dropWhile,
        List.reverse_reverse, List.takeWhile_append_dropWhile]
    refine ⟨ahead, behind.reverse, whole, fun item member => ?_⟩
    rcases List.mem_append.mp member with inFront | inBack
    · exact List.all_eq_true.mp List.all_takeWhile item inFront
    · exact List.all_eq_true.mp List.all_takeWhile item (List.mem_reverse.mp inBack)
  · rintro ⟨front, back, rfl, blanks⟩
    have turned : (core ++ back).reverse = back.reverse ++ (core.reverse ++ []) := by
      rw [List.reverse_append, List.append_nil]
    rw [List.append_assoc,
      dropWhile_solid present (fun item member => blanks item (List.mem_append_left _ member)) solid,
      turned,
      dropWhile_solid (by rwa [ne_eq, List.reverse_eq_nil_iff])
        (fun item member => blanks item (List.mem_append_right _ (List.mem_reverse.mp member)))
        (fun item member => solid item (List.mem_reverse.mp member)),
      List.append_nil, List.reverse_reverse]

end Trimming

end Blanks

section Reading

theorem of_pieces?_eq_some_iff {text : List Piece} {id : Id} :
    ofPieces? text = some id ↔ Holds text id.value.toNat := by
  have solid : ∀ {numeral}, Written id.value.toNat numeral →
      piecesOf numeral ≠ [] ∧ ∀ piece ∈ piecesOf numeral, piece.isBlank = false := by
    intro numeral written
    obtain ⟨present, solid⟩ := written.solid
    exact ⟨List.map_eq_nil_iff.not.mpr present, List.forall_mem_map.mpr solid⟩
  constructor
  · intro read
    obtain ⟨numeral, inside, isId⟩ := Option.bind_eq_some_iff.mp read
    have written := of_chars?_eq_some_iff.mp isId
    have trimmed := mapM_char?_eq_some_iff.mp inside
    obtain ⟨front, back, whole, blanks⟩ := (trimmed_eq_iff (solid written).1 (solid written).2).mp trimmed
    exact ⟨front, numeral, back, whole, blanks, written⟩
  · rintro ⟨front, numeral, back, whole, blanks, written⟩
    have trimmed : Text.trimPieces text = piecesOf numeral :=
      (trimmed_eq_iff (solid written).1 (solid written).2).mpr ⟨front, back, whole, blanks⟩
    exact Option.bind_eq_some_iff.mpr
      ⟨numeral, mapM_char?_eq_some_iff.mpr trimmed, of_chars?_eq_some_iff.mpr written⟩

theorem trim_pieces_pieces_of (chars : List Char) :
    Text.trimPieces (piecesOf chars) = piecesOf (Text.trimChars chars) := by
  have sameTest : Piece.isBlank ∘ Piece.char = Text.isBlank := rfl
  unfold Text.trimPieces piecesOf Text.trimChars Text.dropEndWhile
  rw [List.dropWhile_map, ← List.map_reverse, List.dropWhile_map, ← List.map_reverse, sameTest]

theorem of_text?_eq (text : String) : ofText? text = ofPieces? (piecesOf text.toList) := by
  unfold ofText? ofPieces?
  rw [trim_pieces_pieces_of, mapM_char?_eq_some_iff.mpr rfl]
  rfl

end Reading

section Writing

theorem hex_digit_eq_digitChar {value : Nat} (small : value < 16) : Text.hexDigit value = value.digitChar := by
  interval_cases value <;> rfl

/-- Padded digits stand for what is left of the number when its higher places are cut off. -/
theorem digits_hex_padded (width value : Nat) :
    ∃ digits, List.Forall₂ (IsDigit 16) digits (Text.hexPadded width value) ∧
      value % 16 ^ width = Nat.ofDigits 16 digits.reverse := by
  induction width generalizing value with
  | zero => exact ⟨[], .nil, Nat.mod_one value⟩
  | succ width induction =>
      obtain ⟨digits, each, cut⟩ := induction (value / 16)
      have last : IsDigit 16 (value % 16) (Text.hexDigit (value % 16)) :=
        have small := Nat.mod_lt value (by decide)
        ⟨small, .inl (hex_digit_eq_digitChar small)⟩
      refine ⟨digits ++ [value % 16], List.rel_append each (.cons last .nil), ?_⟩
      rw [List.reverse_append, List.reverse_singleton, List.singleton_append, Nat.ofDigits_cons, ← cut,
        Nat.pow_succ', Nat.mod_mul]

theorem written_chars (id : Id) : Written id.value.toNat id.chars := by
  obtain ⟨digits, each, cut⟩ := digits_hex_padded 16 id.value.toNat
  have fits : id.value.toNat < 16 ^ 16 := id.value.toNat_lt_size
  rw [Nat.mod_eq_of_lt fits] at cut
  have present : Text.hexPadded 16 id.value.toNat ≠ [] :=
    List.append_ne_nil_of_right_ne_nil _ (List.cons_ne_nil _ _)
  exact .hexadecimal (.inl rfl) ⟨present, digits, each, cut⟩

theorem of_pieces?_chars (id : Id) : ofPieces? (piecesOf id.chars) = some id :=
  of_pieces?_eq_some_iff.mpr ⟨[], id.chars, [], (List.append_nil _).symm, by simp, written_chars id⟩

theorem of_text?_text (id : Id) : ofText? id.text = some id := by
  rw [of_text?_eq, text, String.toList_ofList, of_pieces?_chars]

end Writing

section Quoting

/-- A character that stands for itself between quotes and takes one byte. -/
structure Plain (c : Char) : Prop where
  printable : 32 ≤ c.toNat ∧ c.toNat < 127
  unmarked : c ≠ '"'
  unescaped : c ≠ '\\'

variable {c : Char} {text : List Char}

theorem Plain.quoteChar (plain : Plain c) : Text.quoteChar c = [c] := by
  obtain ⟨⟨low, high⟩, unmarked, unescaped⟩ := plain
  have narrow : c.toNat < 128 := by omega
  simp [Text.quoteChar, Text.isPrintable, low, high, unmarked, unescaped, narrow]

theorem Plain.utf8 (plain : Plain c) : Text.utf8 c = [UInt8.ofNat c.toNat] := by
  have narrow : c.val.toNat ≤ 127 := Nat.le_of_lt plain.printable.2
  unfold Text.utf8 String.utf8EncodeChar
  simp only [narrow, if_true]
  rfl

theorem Plain.readQuotedChar (plain : Plain c) (rest : List Char) :
    Text.readQuotedChar '"' (c :: rest) = some (Text.utf8 c, rest) := by
  have sameLine : c ≠ '\n' := by
    rintro rfl
    exact absurd plain.printable.1 (by decide)
  simp [Text.readQuotedChar, plain.unmarked, plain.unescaped, sameLine]

theorem read_quoted_plain (plain : ∀ c ∈ text, Plain c) {bound : Nat} (enough : text.length < bound) :
    Text.readQuoted bound (text ++ ['"']) = some (text.flatMap Text.utf8) := by
  induction text generalizing bound with
  | nil =>
      cases bound with
      | zero => cases enough
      | succ bound => rfl
  | cons c rest induction =>
      cases bound with
      | zero => cases enough
      | succ bound =>
          rw [List.forall_mem_cons] at plain
          have later := induction plain.2 (Nat.lt_of_succ_lt_succ enough)
          rw [List.cons_append, Text.readQuoted, plain.1.readQuotedChar]
          · simp only [Option.bind_eq_bind, Option.bind_some, later, List.flatMap_cons]
          · intro closing
            exact plain.1.unmarked (List.cons_eq_cons.mp closing).1

theorem Plain.firstChar? (plain : Plain c) (rest : List UInt8) :
    Text.firstChar? (Text.utf8 c ++ rest) = some (c, 1) := by
  have narrow : c.toNat < 0x80 := by
    have high := plain.printable.2
    omega
  have code : (UInt8.ofNat c.toNat).toNat = c.toNat :=
    UInt8.toNat_ofNat_of_lt' (Nat.lt_trans narrow (by decide))
  have lead : Text.leadByte? (UInt8.ofNat c.toNat) = some (0, c.toNat, 0) := by
    simp only [Text.leadByte?, code, narrow, if_true]
  have valid : c.toNat.isValidChar := c.valid
  rw [plain.utf8, List.singleton_append, Text.firstChar?, lead]
  simp [valid, Char.ofNat_toNat]

theorem pieces_plain (plain : ∀ c ∈ text, Plain c) :
    Text.pieces (text.flatMap Text.utf8) = piecesOf text := by
  have long : ∀ bound, text.length ≤ bound →
      Text.piecesWithin bound (text.flatMap Text.utf8) = piecesOf text := by
    induction text with
    | nil => intro bound _; cases bound <;> rfl
    | cons c rest induction =>
        rw [List.forall_mem_cons] at plain
        intro bound enough
        obtain ⟨bound, rfl⟩ := Nat.exists_eq_add_one_of_ne_zero (Nat.ne_zero_of_lt enough)
        have first := plain.1.firstChar? (rest.flatMap Text.utf8)
        rw [plain.1.utf8, List.singleton_append] at first
        rw [List.flatMap_cons, plain.1.utf8, List.singleton_append, Text.piecesWithin, first]
        simp only [List.drop_one, List.tail_cons, induction plain.2 bound (Nat.le_of_succ_le_succ enough)]
        rfl
  refine long _ ?_
  rw [List.length_flatMap, List.map_congr_left fun c member =>
    show (Text.utf8 c).length = 1 by rw [(plain c member).utf8]; rfl]
  simp

theorem unquote_quote_plain {text : String} (plain : ∀ c ∈ text.toList, Plain c) :
    Text.unquote (Text.quote text) = some (piecesOf text.toList) := by
  have asIs : text.toList.flatMap Text.quoteChar = text.toList := by
    rw [List.flatMap_congr fun c member => (plain c member).quoteChar, List.flatMap_singleton']
  have read : Text.unquoteBytes ('"' :: (text.toList ++ ['"'])) = some (text.toList.flatMap Text.utf8) :=
    read_quoted_plain plain (by rw [List.length_append, List.length_singleton]; omega)
  unfold Text.unquote Text.quote
  rw [String.toList_ofList, asIs, List.cons_append, read, Option.map_some, pieces_plain plain]

theorem plain_of_is_digit {digit : Nat} (isDigit : IsDigit 16 digit c) : Plain c := by
  obtain ⟨inside, codes⟩ := (is_digit_iff (Nat.le_refl 16)).mp isDigit
  have within : (48 ≤ c.toNat ∧ c.toNat ≤ 70) ∨ (97 ≤ c.toNat ∧ c.toNat ≤ 102) := by
    split_ifs at codes <;> omega
  refine ⟨by omega, ?_, ?_⟩
  all_goals
    rintro rfl
    revert within
    decide

theorem plain_chars (id : Id) : ∀ c ∈ id.chars, Plain c := by
  obtain ⟨digits, each, _⟩ := digits_hex_padded 16 id.value.toNat
  have zero : Plain '0' := ⟨by decide, by decide, by decide⟩
  have mark : Plain 'x' := ⟨by decide, by decide, by decide⟩
  rw [chars, List.forall_mem_cons, List.forall_mem_cons]
  refine ⟨zero, mark, fun c member => ?_⟩
  obtain ⟨digit, _, isDigit⟩ := Lists.exists_of_mem_left each.flip member
  exact plain_of_is_digit isDigit

theorem of_pieces?_token_text (id : Id) : ofPieces? (tokenText id.token) = some id := by
  have plain : ∀ c ∈ id.text.toList, Plain c := by
    rw [text, String.toList_ofList]
    exact plain_chars id
  rw [tokenText, token, unquote_quote_plain plain, Option.getD_some, text, String.toList_ofList,
    of_pieces?_chars]

end Quoting

/-- An identifier is read from a text exactly if, between blanks, the text is a numeral for a number
of 64 bits, and then it is that number; and every identifier is read back from its text, and from the
token that a document holds for it. So no two identifiers have one text. -/
theorem reads_numerals :
    (∀ text id, ofPieces? text = some id ↔ Holds text id.value.toNat) ∧
    (∀ text, (ofPieces? text).isSome = true ↔ ∃ value < UInt64.size, Holds text value) ∧
    (∀ text : String, ofText? text = ofPieces? (piecesOf text.toList)) ∧
    (∀ id : Id, ofText? id.text = some id ∧ ofPieces? (tokenText id.token) = some id ∧
      ∀ content, Document.Json.dialect.id (.string content id.token) = .found id) ∧
    Function.Injective text := by
  refine ⟨fun _ _ => of_pieces?_eq_some_iff, fun text => ?_, of_text?_eq, fun id => ?_, ?_⟩
  · rw [Option.isSome_iff_exists]
    constructor
    · rintro ⟨id, read⟩
      exact ⟨id.value.toNat, id.value.toNat_lt_size, of_pieces?_eq_some_iff.mp read⟩
    · rintro ⟨value, fits, holds⟩
      rw [ofNat_eq_iff.mp ⟨fits, rfl⟩] at holds
      exact ⟨ofNat value, of_pieces?_eq_some_iff.mpr holds⟩
  · refine ⟨of_text?_text id, of_pieces?_token_text id, fun content => ?_⟩
    simp only [Document.Json.dialect, Document.Json.idToken?, Option.bind_some, of_pieces?_token_text,
      Document.Reading.ofOption]
  · intro first second same
    have read : some first = some second := by
      rw [← of_text?_text first, ← of_text?_text second, same]
    exact Option.some.inj read

end SchemaStubs.Id
