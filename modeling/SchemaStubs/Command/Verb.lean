import SchemaStubs.Command.Flag
import SchemaStubs.Text.Join

/-!
The commands: their names, the flags and arguments they take, and what is said about them. A name that
no command has is compared with those of the commands by how far two words are apart: the least number
of bytes to insert, delete or replace that turns one into the other.
-/

namespace SchemaStubs

namespace Text

/-- The next row of the table of distances: from the row for a word, the row for the word with one
more byte. `left` is the distance just written, `corner` the one above it. -/
def nextRow (byte : UInt8) : List UInt8 → List Nat → Nat → Nat → List Nat
  | other :: word, above :: row, left, corner =>
      let change := if byte == other then corner else corner + 1
      let least := min change (min (left + 1) (above + 1))
      least :: nextRow byte word row least above
  | _, _, _, _ => []

/-- The distances of a word from every start of the other word, the empty one first. -/
def distances (word : List UInt8) : List UInt8 → List Nat → List Nat
  | [], row => row
  | byte :: rest, row =>
      let corner := row.headD 0
      distances word rest ((corner + 1) :: nextRow byte word row.tail (corner + 1) corner)

def distance (first second : String) : Nat :=
  let word := second.toUTF8.toList
  (distances word first.toUTF8.toList (List.range (word.length + 1))).getLastD 0

end Text

namespace Command

def program : String :=
  "stubgen"

inductive Verb where
  | generate
  | check
  | watch
  | init
  | version
  | help
  | completion
  deriving DecidableEq, Repr

inductive Arity where
  | exactly (count : Nat)
  | atMost (count : Nat)
  | any
  deriving DecidableEq, Repr

/-- A number of arguments that a command does not take is misuse. -/
def Arity.check (arity : Arity) (given : Nat) : Except Misuse Unit :=
  match arity with
  | exactly count => if given = count then .ok () else .error (.argumentCount count given)
  | atMost count => if given ≤ count then .ok () else .error (.tooManyArguments count given)
  | any => .ok ()

def sharedFlags : List Flag :=
  [.logJson, .verbose]

namespace Verb

def all : List Verb :=
  [generate, check, watch, init, version, help, completion]

def name : Verb → String
  | generate => "generate"
  | check => "check"
  | watch => "watch"
  | init => "init"
  | version => "version"
  | help => "help"
  | completion => "completion"

def ofName? (name : String) : Option Verb :=
  all.find? fun verb => verb.name == name

def arity : Verb → Arity
  | generate | check | watch => .exactly 1
  | init => .atMost 1
  | version | help | completion => .any

def ownFlags : Verb → List Flag
  | generate => [.help, .output, .stdout]
  | check | watch => [.help, .output]
  | init => [.force, .help]
  | version => [.help, .json]
  | help | completion => [.help]

def flags (verb : Verb) : List Flag :=
  verb.ownFlags ++ sharedFlags

/-- The command whose name is likely to have been meant: it is at most two bytes away from the word,
or starts with it. Help is never meant. -/
def isSimilar (word : String) (verb : Verb) : Bool :=
  let typed := Text.lower word
  verb ≠ .help && (Text.distance typed verb.name ≤ 2 || Text.startsWith typed verb.name)

def similarTo (word : String) : List String :=
  (all.filter (isSimilar word)).map name

end Verb

/-- Whether an argument is a flag that takes the next argument, as far as it can be told before the
command is known. -/
def seemsToTakeNext (known : List Flag) (argument : String) : Bool :=
  match argument.toList with
  | '-' :: '-' :: body =>
      !body.contains '=' && !(known.find? fun flag => flag.name.toList == body).any Flag.standsAlone
  | ['-', c] =>
      c.toNat < 128 && c != '=' && !(known.find? fun flag => flag.letter == some c).any
        Flag.standsAlone
  | _ => false

def isWord (argument : String) : Bool :=
  argument != "" && !Text.startsWith "-" argument

def words (known : List Flag) : List String → List String
  | [] => []
  | [argument] => if isWord argument then [argument] else []
  | argument :: next :: rest =>
      if argument == "--" then []
      else if seemsToTakeNext known argument then words known rest
      else if isWord argument then argument :: words known (next :: rest)
      else words known (next :: rest)

def withoutWord (known : List Flag) (word : String) : List String → List String
  | [] => []
  | [argument] => if argument == word then [] else [argument]
  | argument :: next :: rest =>
      if argument == "--" then argument :: next :: rest
      else if seemsToTakeNext known argument then argument :: next :: withoutWord known word rest
      else if argument == word then next :: rest
      else argument :: withoutWord known word (next :: rest)

def find (arguments : List String) : Except Misuse (Option Verb × List String) :=
  match words sharedFlags arguments with
  | [] => .ok (none, arguments)
  | word :: _ =>
      match Verb.ofName? word with
      | some verb => .ok (some verb, withoutWord sharedFlags word arguments)
      | none => .error (.unknownCommand word program (Verb.similarTo word))

end Command

end SchemaStubs
