import SchemaStubs.Settings.Toml.Scalar

/-!
Reading the statements of a TOML file.
-/

namespace SchemaStubs.Settings.Toml

def isBareChar (c : Char) : Bool :=
  c.isAlphanum || c == '_' || c == '-'

def afterComment : List Char → Option (List Char)
  | [] => some []
  | '\n' :: rest => some ('\n' :: rest)
  | '\r' :: '\n' :: rest => some ('\r' :: '\n' :: rest)
  | c :: rest => if isControl c then none else afterComment rest

/-- What follows the rest of a line that may hold a comment and nothing else. -/
def afterLine (text : List Char) : Option (List Char) := do
  let rest ← match skipBlanks text with
    | '#' :: comment => afterComment comment
    | rest => some rest
  match rest with
  | [] => some []
  | '\n' :: more => some more
  | '\r' :: '\n' :: more => some more
  | _ => none

def skipLines : Nat → List Char → List Char
  | 0, text => text
  | bound + 1, text =>
      match skipBlanks text with
      | [] => []
      | rest =>
          match afterLine rest with
          | some more => if more.length < rest.length then skipLines bound more else rest
          | none => rest

def skipAll (text : List Char) : List Char :=
  skipLines (text.length + 1) text

def readName (grammar : Grammar) (text : List Char) : Option (String × List Char) :=
  match text with
  | [] => none
  | mark :: _ =>
      if mark == '"' || mark == Text.apostrophe then
        if [mark, mark, mark].isPrefixOf text then none else readText grammar text
      else
        let name := text.takeWhile isBareChar
        if name.isEmpty then none else some (String.ofList name, text.drop name.length)

/-- A key; blanks may stand around its points. -/
def readKey (grammar : Grammar) : Nat → List Char → Option (Key × List Char)
  | 0, _ => none
  | bound + 1, text => do
      let (name, rest) ← readName grammar (skipBlanks text)
      match skipBlanks rest with
      | '.' :: more => do
          let (names, after) ← readKey grammar bound more
          some (name :: names, after)
      | after => some ([name], after)

/-- Skips what may stand between the parts of a table between braces. -/
def skipInside (grammar : Grammar) (text : List Char) : List Char :=
  if grammar.looseTables then skipAll text else skipBlanks text

mutual

def readValue (grammar : Grammar) : Nat → List Char → Option (Value × List Char)
  | 0, _ => none
  | bound + 1, text =>
      match text with
      | '[' :: rest => readItems grammar bound [] (skipAll rest)
      | '\x7b' :: rest =>
          match skipInside grammar rest with
          | '\x7d' :: more => some (.table [], more)
          | more => readMembers grammar bound [] more
      | mark :: _ =>
          if mark == '"' || mark == Text.apostrophe then
            (readText grammar text).map fun (content, rest) => (.text content, rest)
          else readToken grammar text
      | [] => none

/-- The items of an array from the next one on, given those before in reverse. -/
def readItems (grammar : Grammar) : Nat → List Value → List Char → Option (Value × List Char)
  | 0, _, _ => none
  | _ + 1, done, ']' :: rest => some (.array done.reverse, rest)
  | bound + 1, done, text => do
      let (item, rest) ← readValue grammar bound text
      match skipAll rest with
      | ',' :: more => readItems grammar bound (item :: done) (skipAll more)
      | ']' :: more => some (.array (item :: done).reverse, more)
      | _ => none

def readMembers (grammar : Grammar) : Nat → List (Key × Value) → List Char →
    Option (Value × List Char)
  | 0, _, _ => none
  | bound + 1, done, text => do
      let (key, rest) ← readKey grammar text.length text
      let (value, rest) ← readValue grammar bound (skipBlanks (← after '=' rest))
      let members := (key, value) :: done
      match skipInside grammar rest with
      | ',' :: next =>
          match skipInside grammar next with
          | '\x7d' :: more =>
              if grammar.looseTables then some (.table members.reverse, more) else none
          | more => readMembers grammar bound members more
      | '\x7d' :: next => some (.table members.reverse, next)
      | _ => none

end

def readStatement (grammar : Grammar) (text : List Char) : Option (Statement × List Char) :=
  match text with
  | '[' :: '[' :: rest => do
      let (key, rest) ← readKey grammar rest.length rest
      let next ← afterLine (← after ']' (← after ']' rest))
      some (.item key, next)
  | '[' :: rest => do
      let (key, rest) ← readKey grammar rest.length rest
      let next ← afterLine (← after ']' rest)
      some (.table key, next)
  | _ => do
      let (key, rest) ← readKey grammar text.length text
      let more ← after '=' rest
      let (value, rest) ← readValue grammar (more.length + 1) (skipBlanks more)
      let next ← afterLine rest
      some (.assign key value, next)

def readStatements (grammar : Grammar) : Nat → List Char → Option (List Statement)
  | 0, _ => none
  | bound + 1, text =>
      match skipAll text with
      | [] => some []
      | rest => do
          let (statement, more) ← readStatement grammar rest
          let others ← readStatements grammar bound more
          some (statement :: others)

/-- Whether a carriage return stands anywhere but before a line feed. -/
def hasLooseReturn : List Char → Bool
  | [] => false
  | '\r' :: '\n' :: rest => hasLooseReturn rest
  | c :: rest => c == '\r' || hasLooseReturn rest

def afterMark (grammar : Grammar) (text : List Char) : List Char :=
  match text with
  | c :: rest => if grammar.skipsMark && c == '\uFEFF' then rest else text
  | [] => []

def statements (grammar : Grammar) (text : String) : Option (List Statement) :=
  let content := afterMark grammar text.toList
  if hasLooseReturn content then none else readStatements grammar (content.length + 1) content

end SchemaStubs.Settings.Toml
