import SchemaStubs.Text.Quoted

/-!
Texts with places to fill: `%s` takes the next argument as it is, `%q` takes it quoted, and `%%` is
a percent sign. A place without an argument is left empty.
-/

namespace SchemaStubs.Text

def fillChars : List Char → List String → List Char
  | [], _ => []
  | '%' :: '%' :: rest, arguments => '%' :: fillChars rest arguments
  | '%' :: 's' :: rest, arguments =>
      (arguments.head?.getD "").toList ++ fillChars rest arguments.tail
  | '%' :: 'q' :: rest, arguments =>
      ((arguments.head?.map quote).getD "").toList ++ fillChars rest arguments.tail
  | c :: rest, arguments => c :: fillChars rest arguments

def fill (template : String) (arguments : List String) : String :=
  String.ofList (fillChars template.toList arguments)

end SchemaStubs.Text
