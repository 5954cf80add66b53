import Mathlib.Data.List.TakeWhile
import SchemaStubs.Proofs.Lists
import SchemaStubs.Stub.Identifiers
import SchemaStubs.Stub.Layout
import SchemaStubs.Stub.Literal
import SchemaStubs.Text.DocComment

/-!
The names of stub source by the rules of its language. These know comments, strings in two kinds of
quotes and escapes inside docstrings, of which the scan that finds the imports knows nothing. Both
read a source alike that is put together from readable texts: texts without quotes, comment marks
and line ends, strings, and docstrings in which no three quotes stand in a row.
-/

namespace SchemaStubs.Stub

/-- What a reader of the language is in: code, a comment, a string that ends with its line at the
latest, or a string with three quotes at each end. -/
inductive Passage where
  | code
  | comment
  | short (quote : Char)
  | long (quote : Char)
  deriving DecidableEq, Repr

def isLineEnd (c : Char) : Bool :=
  c == '\n' || c == '\r'

/-- The source without comments and with a blank in place of each string. In a string a backslash
takes its meaning from the character after it. -/
def readFrom : Passage → List Char → List Char
  | .code, '"' :: '"' :: '"' :: rest => readFrom (.long '"') rest
  | .code, '\x27' :: '\x27' :: '\x27' :: rest => readFrom (.long '\x27') rest
  | .code, '"' :: rest => readFrom (.short '"') rest
  | .code, '\x27' :: rest => readFrom (.short '\x27') rest
  | .code, '#' :: rest => readFrom .comment rest
  | .code, c :: rest => c :: readFrom .code rest
  | .comment, c :: rest =>
      if isLineEnd c then c :: readFrom .code rest else readFrom .comment rest
  | .short quote, '\\' :: _ :: rest => readFrom (.short quote) rest
  | .short quote, c :: rest =>
      if c = quote ∨ isLineEnd c then ' ' :: readFrom .code rest else readFrom (.short quote) rest
  | .long quote, '\\' :: _ :: rest => readFrom (.long quote) rest
  | .long quote, first :: second :: third :: rest =>
      if first = quote ∧ second = quote ∧ third = quote then ' ' :: readFrom .code rest
      else readFrom (.long quote) (second :: third :: rest)
  | _, _ => []

/-- A character of a name. Outside ASCII every character counts as one. -/
def isNameChar (c : Char) : Bool :=
  Text.isIdentifierChar c || decide (128 ≤ c.toNat)

/-- The names of a source, in order: the words outside strings and comments that are no numbers. -/
def nameTokens (source : String) : List String :=
  let words := Text.runs (fun c => !isNameChar c) (readFrom .code source.toList)
  (words.filter fun word => !word.head?.any Char.isDigit).map String.ofList

example : nameTokens "x: Any  # y\nf('z', \"\\\"z\")" = ["x", "Any", "f"] := by decide

/-- A run that a finer set of breaks leaves whole is a run of the finer set too. -/
theorem mem_splitOnP_of_finer {coarse fine : Char → Bool}
    (finer : ∀ c, coarse c = true → fine c = true) {text word : List Char}
    (isRun : word ∈ text.splitOnP coarse) (whole : ∀ c ∈ word, fine c = false) :
    word ∈ text.splitOnP fine := by
  induction size : text.length using Nat.strongRecOn generalizing text with
  | ind size induction =>
      have split : (text.takeWhile fun c => !coarse c) ++ (text.dropWhile fun c => !coarse c) = text :=
        List.takeWhile_append_dropWhile
      have unbroken : ∀ c ∈ text.takeWhile fun c => !coarse c, coarse c = false := by
        intro c member
        simpa using List.mem_takeWhile_imp member
      rcases next : text.dropWhile fun c => !coarse c with _ | ⟨sign, rest⟩
      · rw [next, List.append_nil] at split
        rw [split] at unbroken
        rw [List.splitOnP_eq_singleton unbroken, List.mem_singleton] at isRun
        subst isRun
        rw [List.splitOnP_eq_singleton whole]
        exact List.mem_singleton_self _
      · have breaks : coarse sign = true := by
          have head := List.head?_dropWhile_not (fun c => !coarse c) text
          simpa [next] using head
        rw [next] at split
        rw [← split, List.splitOnP_append_cons_of_forall_mem unbroken sign breaks] at isRun
        rw [← split, List.splitOnP_append_cons _ _ (finer sign breaks)]
        rcases List.mem_cons.mp isRun with rfl | later
        · rw [List.splitOnP_eq_singleton whole]
          exact List.mem_append_left _ (List.mem_singleton_self _)
        · refine List.mem_append_right _ (induction rest.length ?_ later rfl)
          rw [← size, ← split]
          simp
          omega

def marks : List Char :=
  ['"', '\x27', '#', '\n', '\r']

def Unmarked (text : String) : Prop :=
  ∀ c ∈ text.toList, c ∉ marks

instance (text : String) : Decidable (Unmarked text) :=
  List.decidableBAll (· ∉ marks) text.toList

/-- A text that is read the same by the scan and by the rules of the language, wherever in the code
it stands and whatever follows. -/
def Agrees (text : List Char) : Prop :=
  ∃ clean, ∀ rest, stripFrom .code (text ++ rest) = clean ++ stripFrom .code rest ∧
    readFrom .code (text ++ rest) = clean ++ readFrom .code rest

namespace Agrees

theorem nil : Agrees [] :=
  ⟨[], fun _ => ⟨rfl, rfl⟩⟩

theorem append {front back : List Char} (first : Agrees front) (second : Agrees back) :
    Agrees (front ++ back) := by
  obtain ⟨one, first⟩ := first
  obtain ⟨two, second⟩ := second
  refine ⟨one ++ two, fun rest => ?_⟩
  rw [List.append_assoc, (first _).1, (first _).2, (second rest).1, (second rest).2]
  simp

theorem char {c : Char} (plain : c ∉ ['"', '\x27', '#']) : Agrees [c] := by
  simp only [List.mem_cons, List.not_mem_nil, or_false, not_or] at plain
  refine ⟨[c], fun rest => ?_⟩
  simp [stripFrom, readFrom, plain]

theorem of_plain {text : List Char} (plain : ∀ c ∈ text, c ∉ ['"', '\x27', '#']) :
    Agrees text := by
  induction text with
  | nil => exact nil
  | cons c rest induction =>
      have later := induction fun other member => plain other (List.mem_cons_of_mem _ member)
      exact (char (plain c List.mem_cons_self)).append later

end Agrees

/-! Strings -/

theorem string_passage {value : List Char} (oneLine : ∀ c ∈ value, isLineEnd c = false)
    (rest : List Char) :
    stripFrom .string (escapeString value ++ '"' :: rest) = ' ' :: stripFrom .code rest ∧
      readFrom (.short '"') (escapeString value ++ '"' :: rest) = ' ' :: readFrom .code rest := by
  induction value with
  | nil => simp [escapeString, stripFrom, readFrom]
  | cons c value induction =>
      have later := induction fun other member => oneLine other (List.mem_cons_of_mem _ member)
      have here := oneLine c List.mem_cons_self
      unfold escapeString
      split
      · exact later
      · rename_i plain
        rw [not_or] at plain
        have notEnd : c ≠ '\n' := by
          rintro rfl
          cases here
        simpa [stripFrom, readFrom, plain, here, notEnd] using later

theorem string_opens (value : List Char) {c : Char} (apart : c ≠ '"') (rest : List Char) :
    stripFrom .code ('"' :: (escapeString value ++ '"' :: c :: rest)) =
        stripFrom .string (escapeString value ++ '"' :: c :: rest) ∧
      readFrom .code ('"' :: (escapeString value ++ '"' :: c :: rest)) =
        readFrom (.short '"') (escapeString value ++ '"' :: c :: rest) := by
  rcases value with _ | ⟨first, others⟩
  · simp [escapeString, stripFrom, readFrom, apart]
  · unfold escapeString
    split
    · simp [stripFrom, readFrom]
    · rename_i plain
      rw [not_or] at plain
      simp [stripFrom, readFrom, plain]

theorem Agrees.string {value : String} (oneLine : ∀ c ∈ value.toList, isLineEnd c = false) {c : Char}
    (plain : c ∉ ['"', '\x27', '#']) : Agrees ((stringText value).toList ++ [c]) := by
  have apart : c ≠ '"' := fun same => plain (same ▸ List.mem_cons_self)
  obtain ⟨clean, after⟩ := Agrees.char plain
  refine ⟨' ' :: clean, fun rest => ?_⟩
  have whole : (stringText value).toList ++ [c] ++ rest =
      '"' :: (escapeString value.toList ++ '"' :: c :: rest) := by
    simp [stringText]
  obtain ⟨opened, read⟩ := string_opens value.toList apart rest
  obtain ⟨stripped, passed⟩ := string_passage oneLine (c :: rest)
  rw [whole, opened, read, stripped, passed]
  exact ⟨congrArg _ (after rest).1, congrArg _ (after rest).2⟩

theorem Agrees.literal {values : List String}
    (oneLine : ∀ value ∈ values, ∀ c ∈ value.toList, isLineEnd c = false) :
    Agrees (Stub.literal values).toList := by
  have strings : Agrees ((Text.joinWith ", " (values.map stringText)).toList ++ [']']) := by
    induction values with
    | nil => exact .char (by decide)
    | cons value rest induction =>
        have first := oneLine value List.mem_cons_self
        have later := induction fun other member => oneLine other (List.mem_cons_of_mem _ member)
        rcases rest with _ | ⟨next, rest⟩
        · exact .string first (by decide)
        · have joined : (Text.joinWith ", " ((value :: next :: rest).map stringText)).toList ++ [']'] =
              (stringText value).toList ++ [','] ++ ([' '] ++
                ((Text.joinWith ", " ((next :: rest).map stringText)).toList ++ [']'])) := by
            simp [Text.joinWith]
          rw [joined]
          exact (Agrees.string first (by decide)).append ((Agrees.char (by decide)).append later)
  have whole : (Stub.literal values).toList = "Literal[".toList ++
      ((Text.joinWith ", " (values.map stringText)).toList ++ [']']) := by
    simp [Stub.literal]
  rw [whole]
  exact (Agrees.of_plain (Lists.forall_of_all (by decide))).append strings

/-! Docstrings -/

/-- A text inside a docstring that neither reader takes for its end. -/
def Enclosed (text : List Char) : Prop :=
  ∀ rest, stripFrom .docstring (text ++ rest) = stripFrom .docstring rest ∧
    readFrom (.long '"') (text ++ rest) = readFrom (.long '"') rest

theorem Enclosed.append {front back : List Char} (first : Enclosed front) (second : Enclosed back) :
    Enclosed (front ++ back) := by
  intro rest
  rw [List.append_assoc, (first _).1, (first _).2]
  exact second rest

theorem strip_from_docstring_cons {c : Char} {rest : List Char}
    (inside : ¬['"', '"', '"'] <+: c :: rest) :
    stripFrom .docstring (c :: rest) = stripFrom .docstring rest := by
  rcases rest with _ | ⟨second, _ | ⟨third, rest⟩⟩
  · simp [stripFrom]
  · simp [stripFrom]
  · rw [stripFrom]
    rintro _ rfl same
    cases same
    exact inside (by simp)

theorem read_from_long_cons {c : Char} {rest : List Char} (plain : c ≠ '\\')
    (inside : ¬['"', '"', '"'] <+: c :: rest) :
    readFrom (.long '"') (c :: rest) = readFrom (.long '"') rest := by
  rcases rest with _ | ⟨second, _ | ⟨third, rest⟩⟩
  · simp [readFrom]
  · simp [readFrom, plain]
  · rw [readFrom, if_neg]
    · rintro ⟨rfl, rfl, rfl⟩
      exact inside (by simp)
    · exact fun same => absurd same plain

theorem getLast?_ne_of_append {front back : List Char} {c : Char}
    (other : (front ++ back).getLast? ≠ some c) : back.getLast? ≠ some c := by
  intro last
  rw [List.getLast?_append, last] at other
  exact other rfl

theorem strip_from_docstring {text : List Char} (whole : Text.holdsWord ['"', '"', '"'] text = false)
    (closed : text.getLast? ≠ some '"') (rest : List Char) :
    stripFrom .docstring (text ++ rest) = stripFrom .docstring rest := by
  induction text with
  | nil => rfl
  | cons c text induction =>
      unfold Text.holdsWord at whole
      rw [Bool.or_eq_false_iff, ← Bool.not_eq_true, List.isPrefixOf_iff_prefix] at whole
      have inside : ¬['"', '"', '"'] <+: c :: (text ++ rest) := by
        rintro ⟨back, same⟩
        rcases text with _ | ⟨second, _ | ⟨third, text⟩⟩
        · cases same
          exact closed rfl
        · cases same
          exact closed rfl
        · cases same
          exact whole.1 ⟨text, rfl⟩
      rw [List.cons_append, strip_from_docstring_cons inside]
      exact induction whole.2 (getLast?_ne_of_append (List.singleton_append ▸ closed))

/-- Escaping lets a text begin with a quote only if it did before. -/
theorem head?_escape_doc_chars {line : List Char} (quoted : (escapeDocChars line).head? = some '"') :
    ∃ rest, line = '"' :: rest ∧ escapeDocChars line = '"' :: escapeDocChars rest := by
  unfold escapeDocChars at quoted
  split at quoted
  · cases quoted
  · cases quoted
  · rename_i c rest other _
    cases quoted
    refine ⟨rest, rfl, ?_⟩
    rw [escapeDocChars]
    · exact other
    · decide
  · cases quoted

theorem not_closing_escape_doc_chars {back rest : List Char}
    (single : ∀ tail, back ≠ '"' :: '"' :: tail)
    (closed : ('"' :: escapeDocChars back).getLast? ≠ some '"' ∨ rest.head? ≠ some '"') :
    ¬['"', '"', '"'] <+: '"' :: (escapeDocChars back ++ rest) := by
  rintro ⟨behind, same⟩
  have second : '"' :: '"' :: behind = escapeDocChars back ++ rest := (List.cons.inj same).2
  rcases escaped : escapeDocChars back with _ | ⟨next, others⟩
  · rw [escaped] at closed second
    rcases closed with notLast | notHead
    · exact notLast rfl
    · exact notHead (by rw [← List.nil_append rest, ← second]; rfl)
  · have nextQuote : next = '"' := by
      rw [escaped] at second
      exact (List.cons.inj second).1.symm
    obtain ⟨tail, rfl, alike⟩ := head?_escape_doc_chars (by rw [escaped, nextQuote]; rfl)
    rw [alike] at closed second
    have third : '"' :: behind = escapeDocChars tail ++ rest := (List.cons.inj second).2
    rcases tailEscaped : escapeDocChars tail with _ | ⟨last, _⟩
    · rw [tailEscaped] at closed third
      rcases closed with notLast | notHead
      · exact notLast rfl
      · exact notHead (by rw [← List.nil_append rest, ← third]; rfl)
    · have lastQuote : last = '"' := by
        rw [tailEscaped] at third
        exact (List.cons.inj third).1.symm
      obtain ⟨_, rfl, _⟩ := head?_escape_doc_chars (by rw [tailEscaped, lastQuote]; rfl)
      exact single _ rfl

theorem read_from_escape_doc_chars (line rest : List Char)
    (closed : (escapeDocChars line).getLast? ≠ some '"' ∨ rest.head? ≠ some '"') :
    readFrom (.long '"') (escapeDocChars line ++ rest) = readFrom (.long '"') rest := by
  have shorter : ∀ front back : List Char, (front ++ back).getLast? ≠ some '"' ∨ rest.head? ≠ some '"' →
      back.getLast? ≠ some '"' ∨ rest.head? ≠ some '"' :=
    fun front back => Or.imp_left getLast?_ne_of_append
  fun_induction escapeDocChars line with
  | case1 back induction => exact induction (shorter ['\\', '"', '\\', '"', '\\', '"'] _ closed)
  | case2 back induction => exact induction (shorter ['\\', '\\'] _ closed)
  | case3 c back single plain induction =>
      rw [List.cons_append, read_from_long_cons plain]
      · exact induction (shorter [c] _ closed)
      · by_cases quote : c = '"'
        · subst quote
          exact not_closing_escape_doc_chars (fun tail same => single tail rfl same) closed
        · rintro ⟨_, same⟩
          exact quote (List.cons.inj same).1.symm
  | case4 => rfl

theorem Enclosed.escapeDoc {line : String} (whole : Text.contains docQuotes (escapeDoc line) = false) :
    Enclosed (Stub.escapeDoc line).toList := by
  intro rest
  unfold Text.contains Stub.escapeDoc at whole
  unfold Stub.escapeDoc
  dsimp only at whole ⊢
  rw [String.toList_ofList] at whole ⊢
  split
  · rename_i quoted
    rw [if_pos quoted] at whole
    refine ⟨strip_from_docstring whole (by simp) rest, ?_⟩
    rw [List.append_assoc, read_from_escape_doc_chars _ _ (.inr (by simp))]
    exact read_from_long_cons (by decide) (by simp)
  · rename_i unquoted
    rw [if_neg unquoted] at whole
    exact ⟨strip_from_docstring whole unquoted rest, read_from_escape_doc_chars _ _ (.inl unquoted)⟩

theorem Enclosed.of_plain {text : List Char} (plain : ∀ c ∈ text, c ≠ '"' ∧ c ≠ '\\') :
    Enclosed text := by
  induction text with
  | nil => exact fun _ => ⟨rfl, rfl⟩
  | cons c text induction =>
      obtain ⟨notQuote, notEscape⟩ := plain c List.mem_cons_self
      have later := induction fun other member => plain other (List.mem_cons_of_mem _ member)
      have inside : ∀ rest, ¬['"', '"', '"'] <+: c :: rest := by
        rintro rest ⟨_, same⟩
        exact notQuote (List.cons.inj same).1.symm
      intro rest
      rw [List.cons_append, strip_from_docstring_cons (inside _),
        read_from_long_cons notEscape (inside _)]
      exact later rest

theorem Agrees.of_enclosed {text : List Char} (enclosed : Enclosed text) :
    Agrees (docQuotes.toList ++ text ++ docQuotes.toList) := by
  refine ⟨[' '], fun rest => ?_⟩
  obtain ⟨stripped, passed⟩ := enclosed (docQuotes.toList ++ rest)
  have opened : docQuotes.toList ++ text ++ docQuotes.toList ++ rest =
      '"' :: '"' :: '"' :: (text ++ (docQuotes.toList ++ rest)) := by
    simp [docQuotes]
  rw [opened, stripFrom, readFrom, stripped, passed]
  constructor
  · simp [docQuotes, stripFrom]
  · simp [docQuotes, readFrom]

def Readable (text : String) : Prop :=
  Agrees text.toList

namespace Readable

theorem append {front back : String} (first : Readable front) (second : Readable back) :
    Readable (front ++ back) := by
  unfold Readable
  rw [String.toList_append]
  exact Agrees.append first second

theorem of_unmarked {text : String} (unmarked : Unmarked text) : Readable text := by
  refine .of_plain fun c member special => unmarked c member ?_
  simp only [List.mem_cons, List.not_mem_nil, or_false] at special
  rcases special with rfl | rfl | rfl <;> decide

theorem joinWith {separator : String} (between : Readable separator) {texts : List String}
    (each : ∀ text ∈ texts, Readable text) : Readable (Text.joinWith separator texts) := by
  induction texts with
  | nil => exact Agrees.nil
  | cons text rest induction =>
      have first := each text List.mem_cons_self
      rcases rest with _ | ⟨next, rest⟩
      · exact first
      · have later := induction fun other member => each other (List.mem_cons_of_mem _ member)
        exact (first.append between).append later

end Readable

/-- The scan finds a name of the language if it consists of letters, digits and underscores and does
not start with a digit. -/
theorem mem_identifiers_of_token {source name : String} (readable : Readable source)
    (token : name ∈ nameTokens source) (lettered : name.toList.all Text.isIdentifierChar = true)
    (starts : name.toList.head?.any Text.isDigit = false) : name ∈ identifiers source := by
  obtain ⟨clean, same⟩ := readable
  have alike : stripFrom .code source.toList = readFrom .code source.toList := by
    have whole := same []
    rw [List.append_nil] at whole
    rw [whole.1, whole.2]
    rfl
  unfold nameTokens Text.runs at token
  obtain ⟨word, isToken, rfl⟩ := List.mem_map.mp token
  rw [String.toList_ofList, List.all_eq_true] at lettered
  rw [String.toList_ofList] at starts
  obtain ⟨isRun, nonempty⟩ := List.mem_filter.mp (List.mem_filter.mp isToken).1
  unfold identifiers Text.runs
  rw [List.mem_eraseDups, alike]
  refine List.mem_map.mpr ⟨word, List.mem_filter.mpr ⟨List.mem_filter.mpr ⟨?_, nonempty⟩, ?_⟩, rfl⟩
  · refine mem_splitOnP_of_finer (fun c breaks => ?_) isRun fun c member => ?_
    · simp only [isNameChar, Bool.not_eq_true', Bool.or_eq_false_iff] at breaks ⊢
      exact breaks.1
    · simp [lettered c member]
  · simp [starts]

/-! Lines -/

def ReadableLines (lines : List Line) : Prop :=
  Agrees (lines.flatMap fun line => line.render.toList)

theorem toList_concat (texts : List String) :
    (Text.concat texts).toList = texts.flatMap String.toList := by
  unfold Text.concat
  induction texts with
  | nil => rfl
  | cons text rest induction =>
      rcases rest with _ | ⟨next, rest⟩
      · simp [Text.joinWith]
      · rw [Text.joinWith, String.toList_append, String.toList_append, induction]
        simp

theorem ReadableLines.renderLines {lines : List Line} (readable : ReadableLines lines) :
    Readable (Stub.renderLines lines) := by
  unfold Readable Stub.renderLines
  rw [toList_concat, List.flatMap_map]
  exact readable

namespace ReadableLines

theorem append {front back : List Line} (first : ReadableLines front)
    (second : ReadableLines back) : ReadableLines (front ++ back) := by
  unfold ReadableLines
  rw [List.flatMap_append]
  exact Agrees.append first second

theorem flatMap {α : Type} {items : List α} {lines : α → List Line}
    (each : ∀ item ∈ items, ReadableLines (lines item)) : ReadableLines (items.flatMap lines) := by
  induction items with
  | nil => exact Agrees.nil
  | cons item items induction =>
      rw [List.flatMap_cons]
      refine (each item List.mem_cons_self).append (induction ?_)
      exact fun other member => each other (List.mem_cons_of_mem _ member)

theorem unmarked_indent (level : Nat) {c : Char} (member : c ∈ (Line.indent level).toList) :
    c = ' ' := by
  unfold Line.indent at member
  rw [String.toList_ofList] at member
  exact List.eq_of_mem_replicate member

theorem render_empty (level : Nat) : (⟨level, ""⟩ : Line).render.toList = ['\n'] := by
  simp [Line.render]

theorem render_of_ne {level : Nat} {text : String} (present : text ≠ "") :
    (⟨level, text⟩ : Line).render.toList = (Line.indent level).toList ++ text.toList ++ ['\n'] := by
  unfold Line.render
  rw [beq_false_of_ne present]
  simp

theorem line {level : Nat} {text : String} (readable : Readable text) :
    ReadableLines [⟨level, text⟩] := by
  have ended : Agrees ['\n'] := .char (by decide)
  unfold ReadableLines
  rw [List.flatMap_singleton]
  by_cases empty : text = ""
  · rw [empty, render_empty]
    exact ended
  · rw [render_of_ne empty]
    refine (Agrees.append ?_ readable).append ended
    refine .of_plain fun c member => ?_
    rw [unmarked_indent level member]
    decide

theorem map {α : Type} {items : List α} {text : α → String} {level : Nat}
    (each : ∀ item ∈ items, Readable (text item)) :
    ReadableLines (items.map fun item => ⟨level, text item⟩) := by
  induction items with
  | nil => exact Agrees.nil
  | cons item rest induction =>
      have later := induction fun other member => each other (List.mem_cons_of_mem _ member)
      exact (line (each item List.mem_cons_self)).append later

theorem enclosed_indent (level : Nat) : Enclosed (Line.indent level).toList := by
  refine .of_plain fun c member => ?_
  rw [unmarked_indent level member]
  decide

theorem enclosed_lines (level : Nat) {texts : List String}
    (whole : ∀ line ∈ texts, Text.contains docQuotes (escapeDoc line) = false) :
    Enclosed ((texts.map fun line => (⟨level, escapeDoc line⟩ : Line)).flatMap
      fun line => line.render.toList) := by
  have ended : Enclosed ['\n'] := .of_plain (Lists.forall_of_all (by decide))
  induction texts with
  | nil => exact fun _ => ⟨rfl, rfl⟩
  | cons line rest induction =>
      have later := induction fun other member => whole other (List.mem_cons_of_mem _ member)
      have here := Enclosed.escapeDoc (whole line List.mem_cons_self)
      rw [List.map_cons, List.flatMap_cons]
      refine Enclosed.append ?_ later
      by_cases empty : escapeDoc line = ""
      · rw [empty, render_empty]
        exact ended
      · rw [render_of_ne empty]
        exact ((enclosed_indent level).append here).append ended

theorem docstring {level : Nat} {doc : List String}
    (whole : ∀ line ∈ doc, Text.contains docQuotes (escapeDoc line) = false) :
    ReadableLines (Stub.docstring level doc) := by
  rcases doc with _ | ⟨first, _ | ⟨second, rest⟩⟩
  · exact Agrees.nil
  · apply line
    unfold Readable
    rw [String.toList_append, String.toList_append]
    exact .of_enclosed (.escapeDoc (whole first List.mem_cons_self))
  · have here := Enclosed.escapeDoc (whole first List.mem_cons_self)
    have later := enclosed_lines level fun line member => whole line (List.mem_cons_of_mem _ member)
    have ended : Enclosed ['\n'] := .of_plain (Lists.forall_of_all (by decide))
    have content := ((here.append ended).append later).append (enclosed_indent level)
    have opens : docQuotes ++ escapeDoc first ≠ "" := by
      intro same
      have chars := congrArg String.toList same
      simp [docQuotes] at chars
    -- everything between the quotes, the line of the closing ones included, is one passage
    have whole : (Stub.docstring level (first :: second :: rest)).flatMap
          (fun line => line.render.toList) =
        (Line.indent level).toList ++ (docQuotes.toList ++ ((escapeDoc first).toList ++ ['\n'] ++
          ((second :: rest).map fun line => (⟨level, escapeDoc line⟩ : Line)).flatMap
            (fun line => line.render.toList) ++ (Line.indent level).toList) ++
          docQuotes.toList) ++ ['\n'] := by
      dsimp only [Stub.docstring]
      rw [List.cons_append, List.flatMap_cons, List.flatMap_append, render_of_ne opens,
        List.flatMap_singleton, render_of_ne (by decide), String.toList_append]
      simp only [List.append_assoc]
    unfold ReadableLines
    rw [whole]
    refine (Agrees.append ?_ (.of_enclosed content)).append (.char (by decide))
    refine .of_plain fun c member => ?_
    rw [unmarked_indent level member]
    decide

end ReadableLines

/-- A doc comment none of whose lines, once escaped, holds three quotes in a row. -/
def Quotable (doc : String) : Prop :=
  ∀ line ∈ Text.docLines doc, Text.contains docQuotes (escapeDoc line) = false

instance (doc : String) : Decidable (Quotable doc) :=
  inferInstanceAs (Decidable (∀ line ∈ Text.docLines doc,
    Text.contains docQuotes (escapeDoc line) = false))

end SchemaStubs.Stub
