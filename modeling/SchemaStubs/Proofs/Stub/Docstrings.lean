import SchemaStubs.Proofs.Stub.Strings
import SchemaStubs.Proofs.Text.Joined

/-!
Docstrings as the language of the stubs reads them. However the quotes and backslashes of a doc
stand, its docstring is one string from the first quotes to the last, and without the indentation of
the stub the lines of this string are the lines of the doc.
-/

namespace SchemaStubs.Text

theorem drop_start_append (start text : String) : dropStart start (start ++ text) = text := by
  simp [dropStart, startsWith]

theorem toList_join_with_append_singleton (separator last : String) (front : List String) :
    (joinWith separator (front ++ [last])).toList =
      (front.flatMap fun text => text.toList ++ separator.toList) ++ last.toList := by
  induction front with
  | nil => rfl
  | cons text rest induction =>
      rcases rest with _ | ⟨next, rest⟩
      · simp [joinWith]
      · rw [List.cons_append, List.cons_append, joinWith, String.toList_append,
          String.toList_append, ← List.cons_append, induction]
        simp

theorem mem_of_mem_drop_start {start text : String} {c : Char}
    (member : c ∈ (dropStart start text).toList) : c ∈ text.toList := by
  unfold dropStart at member
  split at member
  · rw [String.toList_ofList] at member
    exact List.mem_of_mem_drop member
  · exact member

theorem mem_of_mem_trim {text : String} {c : Char} (member : c ∈ (trim text).toList) :
    c ∈ text.toList := by
  unfold trim trimChars dropEndWhile at member
  rw [String.toList_ofList, List.mem_reverse] at member
  have inside := List.mem_reverse.mp ((List.dropWhile_sublist _).mem member)
  exact (List.dropWhile_sublist _).mem inside

theorem doc_lines_one_line {doc line : String} (member : line ∈ docLines doc) :
    '\n' ∉ line.toList := by
  unfold docLines dropEmptyEnds at member
  rw [List.mem_reverse] at member
  have inside := (List.dropWhile_sublist _).mem
    (List.mem_reverse.mp ((List.dropWhile_sublist _).mem member))
  obtain ⟨piece, split, rfl⟩ := List.mem_map.mp inside
  intro breaks
  refine not_mem_of_mem_split_at split ?_
  exact mem_of_mem_trim (mem_of_mem_drop_start (mem_of_mem_drop_start (mem_of_mem_trim breaks)))

end SchemaStubs.Text

namespace SchemaStubs.Stub

/-- What a passage of a docstring stands for, whatever follows it. -/
def StandsFor (passage value : List Char) : Prop :=
  ∀ rest, readString docQuotes.toList (passage ++ rest) =
    withFront value (readString docQuotes.toList rest)

namespace StandsFor

theorem nil : StandsFor [] [] :=
  fun _ => (with_front_nil _).symm

theorem append {front back frontValue backValue : List Char} (first : StandsFor front frontValue)
    (second : StandsFor back backValue) : StandsFor (front ++ back) (frontValue ++ backValue) := by
  intro rest
  rw [List.append_assoc, first, second, with_front_with_front]

theorem flatMap {α : Type} {items : List α} {passage value : α → List Char}
    (each : ∀ item ∈ items, StandsFor (passage item) (value item)) :
    StandsFor (items.flatMap passage) (items.flatMap value) := by
  induction items with
  | nil => exact nil
  | cons item rest induction =>
      rw [List.flatMap_cons, List.flatMap_cons]
      refine (each item List.mem_cons_self).append (induction ?_)
      exact fun other member => each other (List.mem_cons_of_mem _ member)

theorem char {c : Char} (plain : c ∉ ['"', '\\', '\r']) : StandsFor [c] [c] := by
  simp only [List.mem_cons, List.not_mem_nil, or_false, not_or] at plain
  intro rest
  refine read_string_cons plain.2.1 ?_ ?_
  · rintro ⟨behind, same⟩
    exact plain.1 (List.cons.inj same).1.symm
  · simp [cutsString, plain.2.2, docQuotes]

/-- Text without quotes, backslashes and carriage returns stands for itself. -/
theorem of_plain {text : List Char} (plain : ∀ c ∈ text, c ∉ ['"', '\\', '\r']) :
    StandsFor text text := by
  induction text with
  | nil => exact nil
  | cons c rest induction =>
      have later := induction fun other member => plain other (List.mem_cons_of_mem _ member)
      exact (char (plain c List.mem_cons_self)).append later

end StandsFor

theorem getLast?_escape_doc_chars (line : List Char) :
    (escapeDocChars line).getLast? = line.getLast? := by
  fun_induction escapeDocChars line with
  | case1 rest induction => simp [List.getLast?_cons, induction]
  | case2 rest induction => simp [List.getLast?_cons, induction]
  | case3 c rest _ _ induction => simp [List.getLast?_cons, induction]
  | case4 => rfl

/-- An escaped line stands for the line, as long as quotes at its end meet no others behind it. -/
theorem read_string_escape_doc_chars {line rest : List Char} (whole : '\r' ∉ line)
    (closed : line.getLast? ≠ some '"' ∨ rest.head? ≠ some '"') :
    readString docQuotes.toList (escapeDocChars line ++ rest) =
      withFront line (readString docQuotes.toList rest) := by
  have shorter : ∀ front back : List Char, (front ++ back).getLast? ≠ some '"' ∨ rest.head? ≠ some '"' →
      back.getLast? ≠ some '"' ∨ rest.head? ≠ some '"' :=
    fun front back => Or.imp_left getLast?_ne_of_append
  fun_induction escapeDocChars line with
  | case1 back induction =>
      have later := induction (by simpa using whole) (shorter ['"', '"', '"'] back closed)
      have quote : escapes.lookup '"' = some ['"'] := rfl
      simp only [List.cons_append, read_string_escape quote, later, with_front_with_front,
        List.nil_append]
  | case2 back induction =>
      have later := induction (by simpa using whole) (shorter ['\\'] back closed)
      have backslash : escapes.lookup '\\' = some ['\\'] := rfl
      rw [List.cons_append, List.cons_append, read_string_escape backslash, later,
        with_front_with_front, List.singleton_append]
  | case3 c back single plain induction =>
      rw [List.mem_cons, not_or] at whole
      have later := induction whole.2 (shorter [c] back closed)
      have inside : ¬docQuotes.toList <+: c :: (escapeDocChars back ++ rest) := by
        by_cases quote : c = '"'
        · subst quote
          have ends : ('"' :: back).getLast? = ('"' :: escapeDocChars back).getLast? := by
            simp [List.getLast?_cons, getLast?_escape_doc_chars]
          rw [ends] at closed
          exact not_closing_escape_doc_chars (fun tail same => single tail rfl same) closed
        · rintro ⟨_, same⟩
          exact quote (List.cons.inj same).1.symm
      have uncut : cutsString docQuotes.toList c = false := by
        simpa [cutsString, docQuotes] using fun same => whole.1 same.symm
      rw [List.cons_append, read_string_cons plain inside uncut, later, with_front_with_front,
        List.singleton_append]
  | case4 => exact StandsFor.nil rest

/-- A line of a doc as it reads from the docstring: a blank keeps a quote at its end from the
quotes behind it. -/
def spaced (line : String) : String :=
  if line.toList.getLast? = some '"' then line ++ " " else line

theorem StandsFor.escapeDoc {line : String} (whole : '\r' ∉ line.toList) :
    StandsFor (Stub.escapeDoc line).toList (spaced line).toList := by
  unfold Stub.escapeDoc spaced
  dsimp only
  rw [String.toList_ofList, getLast?_escape_doc_chars]
  intro rest
  split
  · have blank : StandsFor [' '] [' '] := .char (by decide)
    rw [List.append_assoc, read_string_escape_doc_chars whole (.inr (by simp)), blank rest,
      with_front_with_front, String.toList_append]
    rfl
  · rename_i unquoted
    exact read_string_escape_doc_chars whole (.inl unquoted)

/-- The first line of a docstring follows its quotes; the others have the indentation of the stub,
unless they are empty. -/
def indented (level : Nat) (line : String) : String :=
  if line = "" then "" else Line.indent level ++ spaced line

def docstringLines (level : Nat) : List String → List String
  | [] => []
  | [line] => [spaced line]
  | first :: rest => spaced first :: rest.map (indented level) ++ [Line.indent level]

def outdented (level : Nat) : List String → List String
  | [] => []
  | first :: rest => first :: rest.map (Text.dropStart (Line.indent level))

theorem outdented_docstring_lines (level : Nat) {lines : List String} (filled : lines ≠ []) :
    outdented level (docstringLines level lines) =
      lines.map spaced ++ if lines.length = 1 then [] else [""] := by
  have each : ∀ line, Text.dropStart (Line.indent level) (indented level line) = spaced line := by
    intro line
    unfold indented
    split
    · rename_i empty
      subst empty
      simp [Text.dropStart, spaced]
    · exact Text.drop_start_append _ _
  have last : Text.dropStart (Line.indent level) (Line.indent level) = "" := by
    simpa using Text.drop_start_append (Line.indent level) ""
  rcases lines with _ | ⟨first, _ | ⟨second, rest⟩⟩
  · exact absurd rfl filled
  · simp [docstringLines, outdented]
  · simp [docstringLines, outdented, Function.comp_def, each, last]

theorem escape_doc_eq_empty {line : String} : escapeDoc line = "" ↔ line = "" := by
  have kept : escapeDocChars line.toList = [] ↔ line = "" := by
    rw [← List.getLast?_eq_none_iff, getLast?_escape_doc_chars, List.getLast?_eq_none_iff,
      String.toList_eq_nil_iff]
  rw [← kept, ← String.toList_eq_nil_iff, escapeDoc, String.toList_ofList]
  split
  · rename_i quoted
    refine iff_of_false (by simp) fun empty => ?_
    rw [empty] at quoted
    cases quoted
  · rfl

theorem StandsFor.line (level : Nat) {line : String} (whole : '\r' ∉ line.toList) :
    StandsFor (⟨level, Stub.escapeDoc line⟩ : Line).render.toList
      ((indented level line).toList ++ ['\n']) := by
  have ended : StandsFor ['\n'] ['\n'] := .char (by decide)
  unfold indented
  split
  · rename_i empty
    rw [escape_doc_eq_empty.mpr empty, ReadableLines.render_empty]
    exact ended
  · rename_i present
    rw [ReadableLines.render_of_ne (mt escape_doc_eq_empty.mp present), String.toList_append]
    refine (StandsFor.append (.of_plain fun c member => ?_) (StandsFor.escapeDoc whole)).append ended
    rw [ReadableLines.unmarked_indent level member]
    decide

def docstringPassage (level : Nat) : List String → List Char
  | [] => []
  | [line] => (escapeDoc line).toList
  | first :: rest =>
      (escapeDoc first).toList ++ ['\n'] ++
        ((rest.flatMap fun line => (⟨level, escapeDoc line⟩ : Line).render.toList) ++
          (Line.indent level).toList)

theorem render_lines_docstring (level : Nat) {lines : List String} (filled : lines ≠ []) :
    (renderLines (docstring level lines)).toList =
      (Line.indent level).toList ++
        (docQuotes.toList ++ docstringPassage level lines ++ docQuotes.toList) ++ ['\n'] := by
  have opens : ∀ text : String, docQuotes ++ text ≠ "" := by
    intro text same
    have chars := congrArg String.toList same
    simp [docQuotes] at chars
  rw [renderLines, toList_concat, List.flatMap_map]
  rcases lines with _ | ⟨first, _ | ⟨second, rest⟩⟩
  · exact absurd rfl filled
  · simp only [docstring, List.flatMap_singleton]
    rw [String.append_assoc, ReadableLines.render_of_ne (opens _)]
    simp [docstringPassage]
  · dsimp only [docstring, docstringPassage]
    rw [List.cons_append, List.flatMap_cons, List.flatMap_append, List.flatMap_singleton,
      List.flatMap_map, ReadableLines.render_of_ne (opens _),
      ReadableLines.render_of_ne (by decide), String.toList_append]
    simp only [List.append_assoc]

theorem docstring_passage_stands (level : Nat) {lines : List String}
    (whole : ∀ line ∈ lines, '\r' ∉ line.toList) :
    StandsFor (docstringPassage level lines)
      (Text.joinWith "\n" (docstringLines level lines)).toList := by
  rcases lines with _ | ⟨first, _ | ⟨second, rest⟩⟩
  · exact StandsFor.nil
  · exact StandsFor.escapeDoc (whole first List.mem_cons_self)
  · have later : StandsFor
        ((second :: rest).flatMap fun line => (⟨level, escapeDoc line⟩ : Line).render.toList)
        ((second :: rest).flatMap fun line => (indented level line).toList ++ ['\n']) :=
      .flatMap fun line member => .line level (whole line (List.mem_cons_of_mem _ member))
    have ended : StandsFor ['\n'] ['\n'] := .char (by decide)
    have blanks : StandsFor (Line.indent level).toList (Line.indent level).toList := by
      refine .of_plain fun c member => ?_
      rw [ReadableLines.unmarked_indent level member]
      decide
    have joined : (Text.joinWith "\n" (docstringLines level (first :: second :: rest))).toList =
        (spaced first).toList ++ ['\n'] ++
          (((second :: rest).flatMap fun line => (indented level line).toList ++ ['\n']) ++
            (Line.indent level).toList) := by
      dsimp only [docstringLines]
      rw [Text.toList_join_with_append_singleton, List.flatMap_cons, List.flatMap_map,
        List.append_assoc]
      rfl
    rw [joined]
    exact ((StandsFor.escapeDoc (whole first List.mem_cons_self)).append ended).append
      (later.append blanks)

theorem docstring_lines_one_line (level : Nat) {lines : List String}
    (oneLine : ∀ line ∈ lines, '\n' ∉ line.toList) :
    ∀ line ∈ docstringLines level lines, '\n' ∉ line.toList := by
  have blank : '\n' ∉ (Line.indent level).toList := by
    intro member
    have same := ReadableLines.unmarked_indent level member
    revert same
    decide
  have one : ∀ {line : String}, '\n' ∉ line.toList → '\n' ∉ (spaced line).toList := by
    intro line whole
    unfold spaced
    split
    · simpa using whole
    · exact whole
  have each : ∀ {line : String}, '\n' ∉ line.toList → '\n' ∉ (indented level line).toList := by
    intro line whole
    unfold indented
    split
    · simp
    · simpa using ⟨blank, one whole⟩
  rcases lines with _ | ⟨first, _ | ⟨second, rest⟩⟩
  · simp [docstringLines]
  · simpa [docstringLines] using one (oneLine first List.mem_cons_self)
  · intro line member
    dsimp only [docstringLines] at member
    rcases List.mem_append.mp member with inside | last
    · rcases List.mem_cons.mp inside with rfl | later
      · exact one (oneLine first List.mem_cons_self)
      · obtain ⟨text, listed, rfl⟩ := List.mem_map.mp later
        exact each (oneLine text (List.mem_cons_of_mem _ listed))
    · rw [List.mem_singleton.mp last]
      exact blank

/-- At every level the docstring of a doc without carriage returns is, behind its indentation, one
string in three quotes that ends with its last line; and without the indentation its lines are the
lines of the doc, with a blank behind a quote that ends a line, and with an empty line behind
several. -/
theorem docstring_reads_back (doc : String) (level : Nat) (filled : Text.docLines doc ≠ [])
    (whole : ∀ line ∈ Text.docLines doc, '\r' ∉ line.toList) :
    ∃ written value : String,
      renderLines (docstring level (Text.docLines doc)) =
        Line.indent level ++ written ++ "\n" ∧
      string? written.toList = some (.string docQuotes.toList value.toList, []) ∧
      outdented level (Text.splitAt '\n' value) =
        (Text.docLines doc).map spaced ++ if (Text.docLines doc).length = 1 then [] else [""] := by
  have oneLine : ∀ line ∈ Text.docLines doc, '\n' ∉ line.toList :=
    fun line member => Text.doc_lines_one_line member
  generalize Text.docLines doc = lines at *
  have lined : docstringLines level lines ≠ [] := by
    rcases lines with _ | ⟨first, _ | ⟨second, rest⟩⟩
    · exact absurd rfl filled
    · simp [docstringLines]
    · simp [docstringLines]
  refine ⟨docQuotes ++ String.ofList (docstringPassage level lines) ++ docQuotes,
    Text.joinWith "\n" (docstringLines level lines), ?_, ?_, ?_⟩
  · apply String.toList_injective
    rw [render_lines_docstring level filled]
    simp
  · have reads := docstring_passage_stands level whole docQuotes.toList
    have closes : readString docQuotes.toList docQuotes.toList = some ([], []) :=
      read_string_closing (by decide) ['"', '"'] []
    rw [closes] at reads
    have opens : ∀ text, openingQuotes? (docQuotes.toList ++ text) = some docQuotes.toList := by
      intro text
      simp [openingQuotes?, docQuotes]
    rw [String.toList_append, String.toList_append, String.toList_ofList, List.append_assoc,
      string?, opens]
    simp [reads, withFront]
  · have split := Text.split_at_join_with lined (docstring_lines_one_line level oneLine)
    rw [show Text.joinWith "\n" = Text.joinWith (String.singleton '\n') from rfl, split,
      outdented_docstring_lines level filled]

/-- Four quotes in front, an empty line, and a backslash before the quote at the end. -/
theorem docstring_reads_back_quotes :
    ∃ written value : String,
      renderLines (docstring 1 (Text.docLines "# \"\"\"\"a\n#\n# b\\\"\n")) =
        "    " ++ written ++ "\n" ∧
      string? written.toList = some (.string docQuotes.toList value.toList, []) ∧
      outdented 1 (Text.splitAt '\n' value) = ["\"\"\"\"a", "", "b\\\" ", ""] := by
  have lines : Text.docLines "# \"\"\"\"a\n#\n# b\\\"\n" = ["\"\"\"\"a", "", "b\\\""] := by
    decide +kernel
  obtain ⟨written, value, laidOut, reads, same⟩ :=
    docstring_reads_back "# \"\"\"\"a\n#\n# b\\\"\n" 1 (by simp [lines]) (by rw [lines]; decide)
  exact ⟨written, value, laidOut, reads, same.trans (by rw [lines]; decide)⟩

end SchemaStubs.Stub
