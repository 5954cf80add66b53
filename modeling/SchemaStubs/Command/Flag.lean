import SchemaStubs.Command.Misuse
import SchemaStubs.Text.Numeral

/-!
The flags of the command line and what they say once they are read.
-/

namespace SchemaStubs.Command

inductive Flag where
  | force
  | help
  | json
  | logJson
  | output
  | stdout
  | verbose
  deriving DecidableEq, Repr

inductive FlagKind where
  | bool
  | string
  | count
  deriving DecidableEq, Repr

namespace Flag

def name : Flag → String
  | force => "force"
  | help => "help"
  | json => "json"
  | logJson => "log-json"
  | output => "output"
  | stdout => "stdout"
  | verbose => "verbose"

def letter : Flag → Option Char
  | force => some 'f'
  | help => some 'h'
  | json => some 'j'
  | output => some 'o'
  | verbose => some 'v'
  | logJson | stdout => none

def kind : Flag → FlagKind
  | force | help | json | logJson | stdout => .bool
  | output => .string
  | verbose => .count

def standsAlone (flag : Flag) : Bool :=
  flag.kind != .string

def ownValue (flag : Flag) : String :=
  if flag.kind = .count then "+1" else "true"

def shown (flag : Flag) : String :=
  match flag.letter with
  | some letter => "-" ++ String.ofList [letter] ++ ", --" ++ flag.name
  | none => "--" ++ flag.name

end Flag

structure Given where
  /-- How often more detail was asked for. -/
  verbosity : Int := 0
  jsonLog : Option Bool := none
  output : Option String := none
  stdout : Bool := false
  force : Bool := false
  json : Bool := false
  help : Bool := false
  arguments : List String := []
  deriving DecidableEq, Repr, Inhabited

namespace Given

def readBool (flag : Flag) (value : String) : Except Misuse Bool :=
  match Text.readBool? value with
  | some result => .ok result
  | none =>
      .error (.invalidValue value flag.shown
        ("strconv.ParseBool: parsing " ++ Text.quote value ++ ": " ++
          Text.NumeralFault.malformed.text))

/-- The count after a value: a bare flag counts one up in 64 bits, a number replaces the count. -/
def readCount (count : Int) (value : String) : Except Misuse Int :=
  if value == Flag.verbose.ownValue then .ok ((count + 1).bmod UInt64.size)
  else match Text.readInteger value with
    | .ok number => .ok number
    | .error fault =>
        .error (.invalidValue value Flag.verbose.shown
          ("strconv.ParseInt: parsing " ++ Text.quote value ++ ": " ++ fault.text))

def set (given : Given) (flag : Flag) (value : String) : Except Misuse Given :=
  match flag with
  | .output => .ok { given with output := some value }
  | .verbose => do .ok { given with verbosity := ← readCount given.verbosity value }
  | .logJson => do .ok { given with jsonLog := some (← readBool flag value) }
  | .force => do .ok { given with force := ← readBool flag value }
  | .help => do .ok { given with help := ← readBool flag value }
  | .json => do .ok { given with json := ← readBool flag value }
  | .stdout => do .ok { given with stdout := ← readBool flag value }

def add (given : Given) (arguments : List String) : Given :=
  { given with arguments := given.arguments ++ arguments }

end Given

end SchemaStubs.Command
