import SchemaStubs.Command.Flag
import SchemaStubs.Text.Join

/-!
Reading the flags and arguments of a command. A long flag is a name after two hyphens, with its
value after an equals sign or in the next argument; flag letters stand together after one hyphen,
and the value of the last of them may follow directly. Two hyphens alone end the flags.
-/

namespace SchemaStubs.Command

def withName? (flags : List Flag) (name : String) : Option Flag :=
  flags.find? fun flag => flag.name == name

def withLetter? (flags : List Flag) (letter : Char) : Option Flag :=
  flags.find? fun flag => flag.letter == some letter

def splitLong (body : List Char) : String × Option String :=
  let name := body.takeWhile fun c => c != '='
  match body.drop name.length with
  | [] => (String.ofList name, none)
  | _ :: value => (String.ofList name, some (String.ofList value))

def attached? : List Char → Option (List Char)
  | '=' :: c :: rest => some (c :: rest)
  | _ => none

/-- Whether a group of letters is meant for a program that tests this one; such a group is
ignored. -/
def isForTests (letters : List Char) : Bool :=
  "test.".toList.isPrefixOf letters

def lettersTakeNext (flags : List Flag) : List Char → Bool
  | [] => false
  | c :: rest =>
      if isForTests (c :: rest) then false
      else match withLetter? flags c with
      | none => false
      | some flag =>
          if (attached? rest).isSome then false
          else if flag.standsAlone then lettersTakeNext flags rest
          else rest.isEmpty

def takesNext (flags : List Flag) (argument : String) : Bool :=
  match argument.toList with
  | '-' :: '-' :: body =>
      match splitLong body with
      | (name, none) => (withName? flags name).any fun flag => !flag.standsAlone
      | (_, some _) => false
  | '-' :: letters => lettersTakeNext flags letters
  | _ => false

def readLong (flags : List Flag) (given : Given) (body : List Char) (next : Option String) :
    Except Misuse Given :=
  match body with
  | [] | '-' :: _ | '=' :: _ => .error (.badFlagSyntax ("--" ++ String.ofList body))
  | _ =>
      let (name, value) := splitLong body
      match withName? flags name with
      | none => .error (.unknownFlag name)
      | some flag =>
          match value with
          | some value => given.set flag value
          | none =>
              if flag.standsAlone then given.set flag flag.ownValue
              else match next with
                | some value => given.set flag value
                | none => .error (.flagWithoutValue name)

/-- The character that stands for a flag letter in a message; all letters beyond ASCII are shown
alike. -/
def shownLetter (letter : Char) : Char :=
  if letter.toNat < 128 then letter else Char.ofNat 0xC3

def readLetters (flags : List Flag) (given : Given) (next : Option String) :
    List Char → Except Misuse Given
  | [] => .ok given
  | c :: rest =>
      if isForTests (c :: rest) then .ok given
      else match withLetter? flags c with
      | none => .error (.unknownShorthand (shownLetter c) (String.ofList (c :: rest)))
      | some flag =>
          match attached? rest with
          | some value => given.set flag (String.ofList value)
          | none =>
              if flag.standsAlone then do
                readLetters flags (← given.set flag flag.ownValue) next rest
              else if !rest.isEmpty then given.set flag (String.ofList rest)
              else match next with
                | some value => given.set flag value
                | none => .error (.shorthandWithoutValue c (String.ofList (c :: rest)))

/-- Reads one argument that is not the end of the flags; `next` is the argument after it, if it is
needed for the value. -/
def readArgument (flags : List Flag) (given : Given) (argument : String) (next : Option String) :
    Except Misuse Given :=
  match argument.toList with
  | '-' :: '-' :: body => readLong flags given body next
  | '-' :: letter :: letters => readLetters flags given next (letter :: letters)
  | _ => .ok (given.add [argument])

def readArguments (flags : List Flag) (given : Given) : List String → Except Misuse Given
  | [] => .ok given
  | [argument] => if argument == "--" then .ok given else readArgument flags given argument none
  | argument :: next :: rest =>
      if argument == "--" then .ok (given.add (next :: rest))
      else if takesNext flags argument then do
        readArguments flags (← readArgument flags given argument (some next)) rest
      else do
        readArguments flags (← readArgument flags given argument none) (next :: rest)

end SchemaStubs.Command
