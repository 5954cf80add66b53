import SchemaStubs.Text.Quoted

/-!
Command lines that name no command, or give it flags or arguments it does not take.
-/

namespace SchemaStubs.Command

inductive Misuse where
  | argumentCount (wanted given : Nat)
  | tooManyArguments (most given : Nat)
  | unknownCommand (name path : String) (similar : List String)
  | unknownFlag (name : String)
  | unknownShorthand (letter : Char) (cluster : String)
  | flagWithoutValue (name : String)
  | shorthandWithoutValue (letter : Char) (cluster : String)
  | badFlagSyntax (argument : String)
  | invalidValue (value flag reason : String)
  deriving DecidableEq, Repr

namespace Misuse

/-- A flag letter between apostrophes, which are escaped inside them. -/
def letterText (letter : Char) : String :=
  let shown := if letter == Text.apostrophe then ['\\', letter]
    else if letter == '"' then [letter]
    else Text.quoteChar letter
  String.ofList (Text.apostrophe :: shown ++ [Text.apostrophe])

def suggestions : List String → String
  | [] => ""
  | names => "\n\nDid you mean this?\n" ++ Text.concat (names.map fun name => "\t" ++ name ++ "\n")

def text : Misuse → String
  | argumentCount wanted given => s!"accepts {wanted} arg(s), received {given}"
  | tooManyArguments most given => s!"accepts at most {most} arg(s), received {given}"
  | unknownCommand name path similar =>
      "unknown command " ++ Text.quote name ++ " for " ++ Text.quote path ++ suggestions similar
  | unknownFlag name => s!"unknown flag: --{name}"
  | unknownShorthand letter cluster =>
      "unknown shorthand flag: " ++ letterText letter ++ " in -" ++ cluster
  | flagWithoutValue name => s!"flag needs an argument: --{name}"
  | shorthandWithoutValue letter cluster =>
      "flag needs an argument: " ++ letterText letter ++ " in -" ++ cluster
  | badFlagSyntax argument => s!"bad flag syntax: {argument}"
  | invalidValue value flag reason =>
      "invalid argument " ++ Text.quote value ++ " for " ++ Text.quote flag ++ " flag: " ++ reason

end Misuse

end SchemaStubs.Command
