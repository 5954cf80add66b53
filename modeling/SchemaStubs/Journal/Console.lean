import SchemaStubs.Journal.Entry

/-!
Entries as lines for a console: the time of day, the level unless it is the ordinary one, the
component, the message and the fields, each part two blanks after the one before it.
-/

namespace SchemaStubs.Journal

mutual

def Value.shown : Value → String
  | .text content => content
  | .integer value => toString value
  | .bool value => if value then "true" else "false"
  | .texts items => "[" ++ Text.joinWith " " items ++ "]"
  | .group members =>
      let sorted := sortBy (fun first second => Text.precedes first.1 second.1)
        (membersShown members)
      "map[" ++ Text.joinWith " " (sorted.map fun (key, text) => key ++ ":" ++ text) ++ "]"

def membersShown : List (String × Value) → List (String × String)
  | [] => []
  | (key, value) :: rest => (key, value.shown) :: membersShown rest

end

namespace Console

def escape (code : String) : String :=
  String.ofList [Char.ofNat 27, '['] ++ code ++ "m"

def time : String := escape "38;5;107"

def component : String := escape "38;5;208"

def key : String := escape "38;5;109"

def warning : String := escape "1" ++ escape "48;5;58" ++ escape "38;5;179"

def failure : String := escape "1" ++ escape "48;5;52" ++ escape "38;5;167"

def plain : String := escape "0"

def paint (coloured : Bool) (colour text : String) : String :=
  if coloured then colour ++ text ++ plain else text

def levelText (coloured : Bool) (level : Level) : String :=
  if level = .warn then paint coloured warning level.label
  else if level.reaches .error then paint coloured failure level.label
  else level.label

/-- The first byte of a text, as the character of that code. -/
def firstByte (text : String) : List Char :=
  match text.toUTF8.toList with
  | [] => []
  | byte :: _ => [Char.ofNat byte.toNat]

/-- A component of several parts with the first part cut down to its first byte. -/
def shortComponent (name : String) : String :=
  match Text.splitAt '.' name with
  | first :: second :: rest =>
      if first == "" then name
      else String.ofList (firstByte first) ++ "." ++ Text.joinWith "." (second :: rest)
  | _ => name

def twoDigits (value : Nat) : String :=
  if value < 10 then s!"0{value}" else toString value

/-- How many seconds before the epoch time begins. -/
def beginning : Int :=
  62135596800 + 106751990354238 * 86400

/-- The time of day that many seconds after the epoch. Time is counted from its beginning in a word
of 64 bits, so a moment too far away is read as an earlier or later one. -/
def clock (seconds : Int) : String :=
  let second := ((seconds + beginning) % UInt64.size).toNat % 86400
  Text.joinWith ":" ([second / 3600, second / 60 % 60, second % 60].map twoDigits)

def pairText (coloured : Bool) (name : String) (value : Value) : String :=
  paint coloured key name ++ "=" ++ value.shown

def fieldText (coloured : Bool) : Field → Option String
  | .pair name value => some (pairText coloured name value)
  | .omitted => none
  | .grouping name => some (pairText coloured name (.group []))
  | .inlined [] => some (pairText coloured "" (.text ""))
  | .inlined ((_, value) :: _) => some (pairText coloured "" value)

def contextTexts (coloured : Bool) (context : Context) : List String :=
  (sortBy (fun first second => Text.precedes first.1 second.1) context.members).map
    fun (name, value) => pairText coloured name value

def line (coloured : Bool) (seconds : Int) (context : Context) (entry : Entry) : String :=
  let level := if entry.level = .info then [] else [levelText coloured entry.level]
  let source := if entry.component == "" then []
    else [paint coloured component (shortComponent entry.component)]
  let pairs := entry.fields.filterMap (fieldText coloured) ++ contextTexts coloured context
  let fields := if pairs.isEmpty then [] else [Text.joinWith " " pairs]
  Text.joinWith "  "
    ([paint coloured time (clock seconds)] ++ level ++ source ++ [entry.message] ++ fields) ++ "\n"

end Console

end SchemaStubs.Journal
