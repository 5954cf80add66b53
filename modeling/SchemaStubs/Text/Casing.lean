import SchemaStubs.Text.Join
import SchemaStubs.Text.Letter
import SchemaStubs.Text.Upper

/-!
Names of declarations in PascalCase, and names of files as identifiers.
-/

namespace SchemaStubs.Text

def isWordBreak (c : Char) : Bool :=
  c == '_' || c == '-'

/-- The first letter in upper case, the rest as it is. -/
def capitalize : List Char → List Char
  | [] => []
  | first :: rest => toUpper first :: rest

/-- `home_address` and `home-address` become `HomeAddress`; `phoneNumber` becomes `PhoneNumber`. -/
def pascal (text : String) : String :=
  String.ofList ((runs isWordBreak text.toList).flatMap capitalize)

def isIdentifierChar (c : Char) : Bool :=
  c == '_' || isLetter c || isDigit c

def identifierChar (c : Char) : Char :=
  if isIdentifierChar c then c else '_'

def identifierChars : List Char → List Char
  | [] => []
  | first :: rest =>
      let tail := identifierChar first :: rest.map identifierChar
      if isDigit first then '_' :: tail else tail

/-- Every character an identifier cannot hold becomes an underscore, and one is put in front of a
leading digit. -/
def identifier (text : String) : String :=
  String.ofList (identifierChars text.toList)

end SchemaStubs.Text
