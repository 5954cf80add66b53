import SchemaStubs.Proofs.Stub.Lexing

/-!
Strings as the language of the stubs reads them: with one quote at each end or with three, and with
escapes. A type of given strings reads as the name of that type with the strings in brackets, each
with the value it was written for; the scan for imports leaves a blank in place of each.
-/

namespace SchemaStubs.Stub

/-- What a character stands for behind a backslash. The end of a line stands for nothing there.
Escapes by number and by name are left out. -/
def escapes : List (Char × List Char) :=
  [('\\', ['\\']), ('"', ['"']), ('\x27', ['\x27']), ('n', ['\n']), ('r', ['\r']), ('t', ['\t']),
    ('a', ['\x07']), ('b', ['\x08']), ('f', ['\x0c']), ('v', ['\x0b']), ('\n', [])]

/-- Whether a character cannot stand in a string with the given quotes. One quote at each end keeps a
string on its line. A carriage return would be read as the end of a line, so it is left out. -/
def cutsString (quotes : List Char) (c : Char) : Bool :=
  c == '\r' || (c == '\n' && quotes.length == 1)

def withFront (front : List Char) (read : Option (List Char × List Char)) :
    Option (List Char × List Char) :=
  read.map fun (value, after) => (front ++ value, after)

/-- A string read from behind its opening quotes: its value, and what follows the first closing
quotes that no backslash precedes. -/
def readString (quotes : List Char) : List Char → Option (List Char × List Char)
  | [] => none
  | '\\' :: c :: rest =>
      (escapes.lookup c).bind fun written => withFront written (readString quotes rest)
  | c :: rest =>
      if quotes.isPrefixOf (c :: rest) then some ([], (c :: rest).drop quotes.length)
      else if cutsString quotes c then none
      else withFront [c] (readString quotes rest)

/-- The quotes that open a string: three of a kind in a row, or else the one. -/
def openingQuotes? : List Char → Option (List Char)
  | [] => none
  | c :: rest =>
      if c = '"' ∨ c = '\x27' then some (if [c, c].isPrefixOf rest then [c, c, c] else [c])
      else none

inductive Token where
  | name (text : List Char)
  | sign (c : Char)
  | string (quotes value : List Char)
  deriving DecidableEq, Repr

def string? (text : List Char) : Option (Token × List Char) := do
  let quotes ← openingQuotes? text
  let (value, after) ← readString quotes (text.drop quotes.length)
  pure (.string quotes value, after)

section WithFront

variable (front back : List Char) (read : Option (List Char × List Char))

@[simp] theorem with_front_nil : withFront [] read = read := by
  rcases read with _ | ⟨value, after⟩ <;> rfl

@[simp] theorem with_front_with_front :
    withFront front (withFront back read) = withFront (front ++ back) read := by
  rcases read with _ | ⟨value, after⟩
  · rfl
  · simp [withFront]

theorem with_front_eq_some {front : List Char} {read : Option (List Char × List Char)}
    {value after : List Char} (same : withFront front read = some (value, after)) :
    ∃ inner, read = some (inner, after) := by
  obtain ⟨⟨inner, _⟩, reads, alike⟩ := Option.map_eq_some_iff.mp same
  cases alike
  exact ⟨inner, reads⟩

end WithFront

/-! What is left after a string -/

theorem read_string_shorter {quotes text value after : List Char} (quoted : quotes ≠ [])
    (reads : readString quotes text = some (value, after)) : after.length < text.length := by
  fun_induction readString quotes text generalizing value after with
  | case1 => cases reads
  | case2 c rest induction =>
      obtain ⟨_, _, reads⟩ := Option.bind_eq_some_iff.mp reads
      obtain ⟨_, inside⟩ := with_front_eq_some reads
      have shorter := induction inside
      simp only [List.length_cons]
      omega
  | case3 c rest _ closes =>
      cases reads
      have present := List.length_pos_iff.mpr quoted
      simp only [List.length_drop, List.length_cons]
      omega
  | case4 => cases reads
  | case5 c rest _ _ _ induction =>
      obtain ⟨_, inside⟩ := with_front_eq_some reads
      have shorter := induction inside
      simp only [List.length_cons]
      omega

theorem opening_quotes?_ne_nil {text quotes : List Char} (opens : openingQuotes? text = some quotes) :
    quotes ≠ [] := by
  unfold openingQuotes? at opens
  split at opens
  · cases opens
  · split at opens
    · cases opens
      split <;> simp
    · cases opens

theorem string?_shorter {text after : List Char} {token : Token}
    (reads : string? text = some (token, after)) : after.length < text.length := by
  unfold string? at reads
  simp only [Option.bind_eq_bind, Option.bind_eq_some_iff] at reads
  obtain ⟨quotes, opens, ⟨value, following⟩, inside, same⟩ := reads
  cases same
  have shorter := read_string_shorter (opening_quotes?_ne_nil opens) inside
  rw [List.length_drop] at shorter
  exact Nat.lt_of_lt_of_le shorter (Nat.sub_le _ _)

/-- The tokens of an expression on one line that is made of names, strings, brackets and commas.
Other expressions are left out, and so are strings with letters in front. -/
def tokens (text : List Char) : Option (List Token) :=
  match text with
  | [] => some []
  | c :: rest =>
      if c = ' ' then tokens rest
      else if c ∈ ['[', ']', ','] then (tokens rest).map (.sign c :: ·)
      else if isNameChar c then
        let after := rest.dropWhile isNameChar
        if c.isDigit || (openingQuotes? after).isSome then none
        else (tokens after).map (.name (c :: rest.takeWhile isNameChar) :: ·)
      else
        match _read : string? (c :: rest) with
        | none => none
        | some (token, after) => (tokens after).map (token :: ·)
  termination_by text.length
  decreasing_by
    · simp
    · simp
    · have shorter := List.length_dropWhile_le isNameChar rest
      simp only [List.length_cons]
      omega
    · exact string?_shorter _read

/-! Reading what was written -/

section Reading

variable {quotes rest : List Char} {c : Char}

theorem read_string_escape {written : List Char} (known : escapes.lookup c = some written) :
    readString quotes ('\\' :: c :: rest) = withFront written (readString quotes rest) := by
  rw [readString, known, Option.bind_some]

theorem read_string_cons (plain : c ≠ '\\') (inside : ¬quotes <+: c :: rest)
    (whole : cutsString quotes c = false) :
    readString quotes (c :: rest) = withFront [c] (readString quotes rest) := by
  rw [readString]
  · rw [if_neg (by simpa using inside), whole]
    rfl
  · exact fun _ _ same => absurd same plain

theorem read_string_closing (plain : c ≠ '\\') (others after : List Char) :
    readString (c :: others) (c :: others ++ after) = some ([], after) := by
  rw [List.cons_append, readString]
  · simp
  · exact fun _ _ same => absurd same plain

end Reading

theorem read_string_escape_string {value : List Char} (oneLine : ∀ c ∈ value, isLineEnd c = false)
    (rest : List Char) :
    readString ['"'] (escapeString value ++ '"' :: rest) = some (value, rest) := by
  induction value with
  | nil => exact read_string_closing (by decide) [] rest
  | cons c value induction =>
      have later := induction fun other member => oneLine other (List.mem_cons_of_mem _ member)
      have here := oneLine c List.mem_cons_self
      unfold escapeString
      split
      · rename_i special
        have known : escapes.lookup c = some [c] := by
          rcases special with rfl | rfl <;> rfl
        rw [List.cons_append, List.cons_append, read_string_escape known, later]
        rfl
      · rename_i plain
        rw [not_or] at plain
        have inside : ¬['"'] <+: c :: (escapeString value ++ '"' :: rest) := by
          rintro ⟨_, same⟩
          exact plain.2 (List.cons.inj same).1.symm
        have whole : cutsString ['"'] c = false := by
          simpa [cutsString, isLineEnd, and_comm] using here
        rw [List.cons_append, read_string_cons plain.1 inside whole, later]
        rfl

theorem head?_escape_string (value : List Char) : (escapeString value).head? ≠ some '"' := by
  cases value with
  | nil => simp [escapeString]
  | cons c value =>
      unfold escapeString
      split
      · simp
      · rename_i plain
        simpa using fun same => plain (.inr same)

/-- Behind a string stands no quote, so the string is opened by one quote. -/
theorem string?_string_text {value : String} (oneLine : ∀ c ∈ value.toList, isLineEnd c = false)
    {rest : List Char} (apart : rest.head? ≠ some '"') :
    string? ((stringText value).toList ++ rest) = some (.string ['"'] value.toList, rest) := by
  have whole : (stringText value).toList ++ rest =
      '"' :: (escapeString value.toList ++ '"' :: rest) := by
    simp [stringText]
  have single : ¬['"', '"'] <+: escapeString value.toList ++ '"' :: rest := by
    rintro ⟨behind, same⟩
    rcases escaped : escapeString value.toList with _ | ⟨first, others⟩
    · rw [escaped] at same
      exact apart (by rw [← (List.cons.inj same).2]; rfl)
    · rw [escaped] at same
      refine head?_escape_string value.toList ?_
      rw [escaped, ← (List.cons.inj same).1]
      rfl
  have opens : openingQuotes? ('"' :: (escapeString value.toList ++ '"' :: rest)) = some ['"'] := by
    simp [openingQuotes?, single]
  unfold string?
  rw [whole, opens]
  simp [read_string_escape_string oneLine]

section Tokens

variable {rest : List Char}

theorem tokens_blank : tokens (' ' :: rest) = tokens rest := by
  rw [tokens]
  simp

theorem tokens_sign {c : Char} (sign : c ∈ ['[', ']', ',']) :
    tokens (c :: rest) = (tokens rest).map (.sign c :: ·) := by
  have blankless : c ≠ ' ' := by
    rintro rfl
    revert sign
    decide
  rw [tokens, if_neg blankless, if_pos sign]

/-- A word is read up to the first character that cannot stand in a name. -/
theorem tokens_word {c : Char} {letters : List Char} (starts : isNameChar c = true)
    (numeral : c.isDigit = false) (lettered : ∀ letter ∈ letters, isNameChar letter = true)
    {sign : Char} (ends : sign ∈ ['[', ']', ',']) :
    tokens (c :: letters ++ sign :: rest) =
      (tokens (sign :: rest)).map (.name (c :: letters) :: ·) := by
  have apart : ∀ other ∈ [' ', '[', ']', ','], isNameChar other = false :=
    Lists.forall_of_all (by decide)
  have blankless : c ≠ ' ' := by
    rintro rfl
    rw [apart _ (by simp)] at starts
    cases starts
  have unsigned : c ∉ ['[', ']', ','] := by
    intro member
    rw [apart _ (List.mem_cons_of_mem _ member)] at starts
    cases starts
  have stops : isNameChar sign = false := apart _ (List.mem_cons_of_mem _ ends)
  have unquoted : openingQuotes? (sign :: rest) = none := by
    have plain : ∀ other ∈ ['[', ']', ','], ¬(other = '"' ∨ other = '\x27') :=
      Lists.forall_of_all (by decide)
    simp [openingQuotes?, plain sign ends]
  have taken : (letters ++ sign :: rest).takeWhile isNameChar = letters := by
    rw [List.takeWhile_append_of_pos lettered, List.takeWhile_cons_of_neg (by simp [stops]),
      List.append_nil]
  have left : (letters ++ sign :: rest).dropWhile isNameChar = sign :: rest := by
    rw [List.dropWhile_append_of_pos lettered, List.dropWhile_cons_of_neg (by simp [stops])]
  rw [List.cons_append, tokens, if_neg blankless, if_neg unsigned, if_pos starts, left, taken]
  simp [numeral, unquoted]

theorem tokens_string {value : String} (oneLine : ∀ c ∈ value.toList, isLineEnd c = false)
    (apart : rest.head? ≠ some '"') : tokens ((stringText value).toList ++ rest) =
      (tokens rest).map (.string ['"'] value.toList :: ·) := by
  have reads := string?_string_text oneLine apart
  have opens : (stringText value).toList ++ rest =
      '"' :: (escapeString value.toList ++ '"' :: rest) := by
    simp [stringText]
  rw [opens] at reads ⊢
  rw [tokens, if_neg (by decide), if_neg (by decide), if_neg (by decide)]
  split
  · rename_i fails
    rw [reads] at fails
    cases fails
  · rename_i token after other
    rw [reads] at other
    cases other
    rfl

end Tokens

section Literal

variable {values : List String}

/-- The strings of a type in its brackets. -/
def bracketed (values : List String) : List Char :=
  (Text.joinWith ", " (values.map stringText)).toList ++ [']']

theorem toList_literal (values : List String) :
    (literal values).toList = "Literal".toList ++ '[' :: bracketed values := by
  simp [literal, bracketed]

theorem bracketed_cons_cons (value next : String) (rest : List String) :
    bracketed (value :: next :: rest) =
      (stringText value).toList ++ ',' :: ' ' :: bracketed (next :: rest) := by
  simp [bracketed, Text.joinWith]

theorem tokens_bracketed
    (oneLine : ∀ value ∈ values, ∀ c ∈ value.toList, isLineEnd c = false) :
    tokens (bracketed values) =
      some ((values.map fun value => Token.string ['"'] value.toList).intersperse (.sign ',') ++
        [.sign ']']) := by
  have ended : tokens [']'] = some [.sign ']'] := by
    rw [tokens_sign (by decide), tokens]
    rfl
  induction values with
  | nil => exact ended
  | cons value rest induction =>
      have first := oneLine value List.mem_cons_self
      have later := induction fun other member => oneLine other (List.mem_cons_of_mem _ member)
      rcases rest with _ | ⟨next, rest⟩
      · rw [bracketed, List.map_singleton, Text.joinWith, tokens_string first (by decide), ended]
        rfl
      · rw [bracketed_cons_cons, tokens_string first (by simp), tokens_sign (by decide),
          tokens_blank, later]
        rfl

theorem strip_from_bracketed
    (oneLine : ∀ value ∈ values, ∀ c ∈ value.toList, isLineEnd c = false) (rest : List Char) :
    stripFrom .code (bracketed values ++ rest) =
      (Text.joinWith ", " (values.map fun _ => " ")).toList ++ ']' :: stripFrom .code rest := by
  have strips : ∀ {value : String}, (∀ c ∈ value.toList, isLineEnd c = false) → ∀ {c : Char},
      c ≠ '"' → ∀ rest, stripFrom .code ((stringText value).toList ++ c :: rest) =
        ' ' :: stripFrom .code (c :: rest) := by
    intro value whole c apart rest
    have opened := (string_opens value.toList apart rest).1
    rw [(string_passage whole _).1] at opened
    rw [← opened]
    simp [stringText]
  induction values with
  | nil => simp [bracketed, Text.joinWith, stripFrom]
  | cons value others induction =>
      have first := oneLine value List.mem_cons_self
      have later := induction fun other member => oneLine other (List.mem_cons_of_mem _ member)
      rcases others with _ | ⟨next, others⟩
      · rw [bracketed, List.map_singleton, Text.joinWith, List.append_assoc,
          List.singleton_append, strips first (by decide)]
        simp [stripFrom, Text.joinWith]
      · rw [bracketed_cons_cons, List.append_assoc, List.cons_append, List.cons_append,
          strips first (by decide), stripFrom, stripFrom, later]
        · simp [Text.joinWith]
        all_goals simp

theorem strip_from_quoteless {text : List Char} (quoteless : '"' ∉ text) (rest : List Char) :
    stripFrom .code (text ++ rest) = text ++ stripFrom .code rest := by
  induction text with
  | nil => rfl
  | cons c text induction =>
      rw [List.mem_cons, not_or] at quoteless
      rw [List.cons_append, stripFrom, induction quoteless.2, List.cons_append]
      · exact fun _ same _ => quoteless.1 same.symm
      · exact fun same => quoteless.1 same.symm

end Literal

def literalTokens (values : List String) : List Token :=
  .name "Literal".toList :: .sign '[' ::
    ((values.map fun value => .string ['"'] value.toList).intersperse (.sign ',') ++ [.sign ']'])

theorem tokens_literal {values : List String}
    (oneLine : ∀ value ∈ values, ∀ c ∈ value.toList, isLineEnd c = false) :
    tokens (literal values).toList = some (literalTokens values) := by
  have word : tokens ('L' :: "iteral".toList ++ '[' :: bracketed values) =
      (tokens ('[' :: bracketed values)).map (.name ('L' :: "iteral".toList) :: ·) :=
    tokens_word (by decide) (by decide) (Lists.forall_of_all (by decide)) (by decide)
  have whole : (literal values).toList = 'L' :: "iteral".toList ++ '[' :: bracketed values := by
    simp [toList_literal]
  rw [whole, word, tokens_sign (by decide), tokens_bracketed oneLine]
  rfl

def Token.value? : Token → Option (List Char)
  | .string _ value => some value
  | _ => none

theorem literal_tokens_values (values : List String) :
    (literalTokens values).filterMap Token.value? = values.map String.toList := by
  have inside : ((values.map fun value => Token.string ['"'] value.toList).intersperse
      (.sign ',')).filterMap Token.value? = values.map String.toList := by
    induction values with
    | nil => rfl
    | cons value rest induction =>
        rcases rest with _ | ⟨next, rest⟩
        · rfl
        · exact congrArg (value.toList :: ·) induction
  rw [literalTokens, List.filterMap_cons_none rfl, List.filterMap_cons_none rfl,
    List.filterMap_append, inside]
  exact List.append_nil _

theorem one_line_of_all {values : List String}
    (checked : (values.all fun value => value.toList.all fun c => !isLineEnd c) = true) :
    ∀ value ∈ values, ∀ c ∈ value.toList, isLineEnd c = false := by
  simpa using checked

/-- The type of some strings without line ends reads as its name with the strings in brackets, each
with its value, so it tells them; and in code without quotes around it the scan keeps everything
but the strings, in place of which it leaves a blank each. -/
theorem literal_reads_back {values : List String}
    (oneLine : ∀ value ∈ values, ∀ c ∈ value.toList, isLineEnd c = false) :
    tokens (literal values).toList = some (literalTokens values) ∧
      (∀ others : List String, (∀ value ∈ others, ∀ c ∈ value.toList, isLineEnd c = false) →
        literal values = literal others → values = others) ∧
      ∀ before after : String, '"' ∉ before.toList → '"' ∉ after.toList →
        stripStrings (before ++ literal values ++ after) =
          before ++ ("Literal[" ++ Text.joinWith ", " (values.map fun _ => " ") ++ "]") ++ after := by
  refine ⟨tokens_literal oneLine, fun others whole same => ?_, fun before after front back => ?_⟩
  · have read := tokens_literal oneLine
    rw [same, tokens_literal whole] at read
    have told := congrArg (List.filterMap Token.value?) (Option.some.inj read)
    rw [literal_tokens_values, literal_tokens_values] at told
    exact (List.map_injective_iff.mpr (fun _ _ alike => String.toList_injective alike) told).symm
  · have quoteless : '"' ∉ "Literal[".toList := by decide
    have kept : stripFrom .code after.toList = after.toList := by
      have whole := strip_from_quoteless back []
      rwa [List.append_nil, stripFrom, List.append_nil] at whole
    have opened : (literal values).toList = "Literal[".toList ++ bracketed values := by
      simp [toList_literal]
    unfold stripStrings
    rw [String.toList_append, String.toList_append, List.append_assoc, strip_from_quoteless front,
      opened, List.append_assoc, strip_from_quoteless quoteless, strip_from_bracketed oneLine, kept]
    apply String.toList_injective
    simp

theorem literal_reads_back_quotes :
    tokens (literal ["", "\"\"\"", "\\"]).toList = some (literalTokens ["", "\"\"\"", "\\"]) ∧
      literal ["", "\"\"\"", "\\"] ≠ literal ["\", \"", "\"\"", "\\"] ∧
      stripStrings ("x: " ++ literal ["", "\"\"\"", "\\"] ++ "\n") = "x: Literal[ ,  ,  ]\n" := by
  have oneLine : ∀ value ∈ ["", "\"\"\"", "\\"], ∀ c ∈ value.toList, isLineEnd c = false :=
    one_line_of_all (by decide)
  obtain ⟨reads, tells, strips⟩ := literal_reads_back oneLine
  refine ⟨reads, fun same => ?_, ?_⟩
  · have alike := tells _ (one_line_of_all (by decide)) same
    revert alike
    decide
  · rw [strips "x: " "\n" (by decide) (by decide)]
    rfl

end SchemaStubs.Stub
