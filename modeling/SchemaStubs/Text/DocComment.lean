import SchemaStubs.Text.Join

/-!
What is left of a text without the white space around it, and of a doc comment without its markers.
White space is the whole White_Space property, so a non-breaking space or an ideographic space is
trimmed like a tab. A doc comment is cleaned line by line; blank lines at its two ends go, and blank
lines inside stay.
-/

namespace SchemaStubs.Text

/-- The characters with the White_Space property. -/
def isBlank (c : Char) : Bool :=
  let code := c.toNat
  (9 ≤ code && code ≤ 13) || code == 0x20 || code == 0x85 || code == 0xA0 || code == 0x1680 ||
    (0x2000 ≤ code && code ≤ 0x200A) || code == 0x2028 || code == 0x2029 || code == 0x202F ||
    code == 0x205F || code == 0x3000

def dropEndWhile (keep : Char → Bool) (text : List Char) : List Char :=
  (text.reverse.dropWhile keep).reverse

def trimChars (text : List Char) : List Char :=
  dropEndWhile isBlank (text.dropWhile isBlank)

def trim (text : String) : String :=
  String.ofList (trimChars text.toList)

/-- One line without its comment markers. A line may carry both a hash and a double slash. -/
def cleanCommentLine (line : String) : String :=
  trim (dropStart "//" (dropStart "#" (trim line)))

def dropEmptyEnds (lines : List String) : List String :=
  ((lines.dropWhile fun line => line == "").reverse.dropWhile fun line => line == "").reverse

def docLines (doc : String) : List String :=
  dropEmptyEnds ((splitAt '\n' doc).map cleanCommentLine)

end SchemaStubs.Text
