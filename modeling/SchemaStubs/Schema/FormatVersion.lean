import SchemaStubs.Fault

/-!
The version of the document format. A document names a semantic version; minor and patch number may
be left out and a leading `v` is ignored. This library reads versions from 1.0.0 up to but not
including 2.0.0, and no pre-release.
-/

namespace SchemaStubs

structure FormatVersion where
  major : Nat
  minor : Nat
  patch : Nat
  preRelease : List Char
  build : List Char
  deriving DecidableEq, Repr

namespace FormatVersion

/-- The versions this library reads, as a reader of a message sees them. -/
def readable : String :=
  ">= 1.0.0, < 2.0.0"

/-- A run of digits at the start whose value fits 64 bits, and what follows it. -/
def readNumber (text : List Char) : Option (Nat × List Char) :=
  let digits := text.takeWhile Char.isDigit
  let value := digits.foldl (fun value c => value * 10 + (c.toNat - 48)) 0
  if digits.isEmpty || UInt64.size ≤ value then none
  else some (value, text.dropWhile Char.isDigit)

/-- A number after a point; zero when no point comes next. -/
def readMinor : List Char → Option (Nat × List Char)
  | '.' :: rest => readNumber rest
  | rest => some (0, rest)

def isTagChar (c : Char) : Bool :=
  c.isAlphanum || c == '-' || c == '.'

/-- A tag is a sequence of non-empty parts between points. -/
def isTag (tag : List Char) : Bool :=
  (tag.splitOn '.').all fun part => !part.isEmpty

/-- In a pre-release tag a numeric part has no leading zero. -/
def isPreReleaseTag (tag : List Char) : Bool :=
  isTag tag && (tag.splitOn '.').all fun part =>
    !(part.all Char.isDigit) || part.length == 1 || part.head? != some '0'

def readTag (mark : Char) (accepts : List Char → Bool) :
    List Char → Option (List Char × List Char)
  | [] => some ([], [])
  | c :: rest =>
      if c == mark then
        let tag := rest.takeWhile isTagChar
        if accepts tag then some (tag, rest.dropWhile isTagChar) else none
      else some ([], c :: rest)

def dropMark : List Char → List Char
  | 'v' :: rest => rest
  | rest => rest

def ofText? (text : String) : Option FormatVersion := do
  let (major, rest) ← readNumber (dropMark text.toList)
  let (minor, rest) ← readMinor rest
  let (patch, rest) ← readMinor rest
  let (preRelease, rest) ← readTag '-' isPreReleaseTag rest
  let (build, rest) ← readTag '+' isTag rest
  if rest.isEmpty then some ⟨major, minor, patch, preRelease, build⟩ else none

def tagText (mark : String) (tag : List Char) : String :=
  if tag.isEmpty then "" else mark ++ String.ofList tag

def text (version : FormatVersion) : String :=
  s!"{version.major}.{version.minor}.{version.patch}" ++ tagText "-" version.preRelease ++
    tagText "+" version.build

def isReadable (version : FormatVersion) : Bool :=
  version.major == 1 && version.preRelease.isEmpty

/-- Accepts the version a document names; none stands for 1.0.0. -/
def check (version : String) : Except Fault Unit :=
  if version == "" then .ok ()
  else match ofText? version with
    | none => .error (Defect.notAVersion version)
    | some parsed =>
        if parsed.isReadable then .ok ()
        else .error (Defect.unsupportedVersion parsed.text readable)

end FormatVersion

end SchemaStubs
