import SchemaStubs.Sorting

/-!
Putting texts together and taking them apart at single characters, the order texts are sorted in,
and the size that ranks them.
-/

namespace SchemaStubs.Text

def joinWith (separator : String) : List String → String
  | [] => ""
  | [text] => text
  | text :: next :: rest => text ++ separator ++ joinWith separator (next :: rest)

def concat (texts : List String) : String :=
  joinWith "" texts

/-- The pieces between occurrences of the character, empty pieces included. -/
def splitAt (separator : Char) (text : String) : List String :=
  (text.toList.splitOn separator).map String.ofList

/-- The maximal runs of characters that are no break, in order. -/
def runs (isBreak : Char → Bool) (text : List Char) : List (List Char) :=
  (text.splitOnP isBreak).filter fun run => !run.isEmpty

/-- The order of texts: by code point, which is also the order of their UTF-8 bytes. -/
def precedes (first second : String) : Bool :=
  decide (first ≤ second)

def sorted (texts : List String) : List String :=
  sortBy precedes texts

/-- How long a text is when names are ranked by length: its number of UTF-8 bytes. -/
def size (text : String) : Nat :=
  text.utf8ByteSize

/-- What follows the last occurrence of the character; the whole text when there is none. -/
def afterLast (separator : Char) (text : String) : String :=
  String.ofList (text.toList.reverse.takeWhile fun c => c != separator).reverse

def startsWith (start text : String) : Bool :=
  start.toList.isPrefixOf text.toList

def endsWith (ending text : String) : Bool :=
  ending.toList.isSuffixOf text.toList

def dropStart (start text : String) : String :=
  if startsWith start text then String.ofList (text.toList.drop start.toList.length) else text

def dropEnd (ending text : String) : String :=
  if endsWith ending text then
    String.ofList (text.toList.take (text.toList.length - ending.toList.length))
  else text

/-- The first bytes of a text. A character cut in two leaves a replacement character for each of the
bytes that are kept of it. -/
def cutChars : Nat → List Char → List Char
  | _, [] => []
  | count, c :: rest =>
      if c.utf8Size ≤ count then c :: cutChars (count - c.utf8Size) rest
      else List.replicate count '\uFFFD'

def cut (count : Nat) (text : String) : String :=
  String.ofList (cutChars count text.toList)

def holdsWord (word : List Char) : List Char → Bool
  | [] => word.isEmpty
  | c :: rest => word.isPrefixOf (c :: rest) || holdsWord word rest

def contains (word text : String) : Bool :=
  holdsWord word.toList text.toList

/-- Lower case as far as a comparison with ASCII words can tell: that of the ASCII letters, and of
the two other capitals that fall on ASCII letters. -/
def lowerChar (c : Char) : Char :=
  if c.toNat = 0x130 then 'i' else if c.toNat = 0x212A then 'k' else c.toLower

def lower (text : String) : String :=
  String.ofList (text.toList.map lowerChar)

/-- The letter that a character is compared as when case does not matter, as far as a comparison
with ASCII words in lower case can tell. Besides the ASCII letters two others have such a letter. -/
def foldChar (c : Char) : Char :=
  if c.toNat = 0x17F then 's' else if c.toNat = 0x212A then 'k' else c.toLower

def folded (text : String) : String :=
  String.ofList (text.toList.map foldChar)

end SchemaStubs.Text
