import SchemaStubs.Document.Json
import SchemaStubs.Document.Yaml.Meaning
import SchemaStubs.Document.Yaml.Reader
import SchemaStubs.Id
import SchemaStubs.Text.Join
import SchemaStubs.Text.Numeral

/-!
How the two document formats spell the same things. A dialect says what counts as a text, a number,
a truth value, an identifier, a list and a record among the values of its format. Each question has
three answers: the value is of another type, the value is left out, or the value is there.
-/

namespace SchemaStubs.Document

inductive Reading (α : Type) where
  | mistyped
  | omitted
  | found (value : α)

namespace Reading

def ofOption {α : Type} : Option α → Reading α
  | none => mistyped
  | some value => found value

end Reading

structure Dialect (V : Type) where
  text : V → Reading String
  number : V → Reading Int
  flag : V → Reading Bool
  id : V → Reading Id
  list : V → Reading (List V)
  /-- The members of a record that may have the given names, which are in order. A record with any
  other member is mistyped. -/
  record : List String → V → Reading (List (String × V))
  isOmitted : V → Bool
  /-- Whether the entries of a list are read by position into the entries that are there. If not, a
  list is read afresh and omitted entries do not count. -/
  positional : Bool

namespace Json

def deepest : Nat :=
  10000

/-- The value of at most nineteen digits modulo 64 bits. -/
def digitsValue (digits : List Char) : Option Int :=
  if !digits.isEmpty && digits.length ≤ 19 && digits.all Char.isDigit then
    let value : Nat := digits.foldl (fun value c => value * 10 + (c.toNat - 48)) 0
    some (Int.bmod value UInt64.size)
  else none

/-- The whole number a token stands for. Only after a sign may zeros stand in front. -/
def wholeNumber (token : String) : Option Int :=
  match token.toList with
  | '-' :: digits => (digitsValue digits).map fun value => Int.bmod (-value) UInt64.size
  | ['0'] => some 0
  | '0' :: _ => none
  | digits => digitsValue digits

def idToken? : Json → Option String
  | .number token => some token
  | .string _ token => some token
  | _ => none

/-- The known name that a member goes by. Case does not matter. Of a name that is written with
escapes the start is enough, provided that it is written with as many bytes as the known name
has. -/
def knownName? (known : List String) (name : Name) : Option String := do
  let lowered := name.text.toList.map Char.toLower
  if lowered.isEmpty then none
  let found ← known.find? fun candidate => lowered.isPrefixOf candidate.toList
  if Text.size found ≤ name.written then some found else none

/-- An omitted identifier is zero. -/
def dialect : Dialect Json where
  text
    | .null => .omitted
    | .string text _ => .ofOption text
    | _ => .mistyped
  number
    | .null => .omitted
    | .number token => .ofOption (wholeNumber token)
    | _ => .mistyped
  flag
    | .null => .omitted
    | .bool value => .found value
    | _ => .mistyped
  id
    | .null => .found 0
    | value => .ofOption ((idToken? value).bind fun token => Id.ofPieces? (Id.tokenText token))
  list
    | .null => .omitted
    | .array items => .found items
    | _ => .mistyped
  record known
    | .null => .omitted
    | .object members => .ofOption (members.mapM fun (name, value) =>
        (knownName? known name).map fun found => (found, value))
    | _ => .mistyped
  isOmitted
    | .null => true
    | _ => false
  positional := true

end Json

namespace Yaml

def isOmitted : Yaml → Bool
  | .scalar given => given.meaning? == some .nothing
  | _ => false

def readScalar {α : Type} (read : Scalar → Meaning → Option α) : Yaml → Reading α
  | .scalar given =>
      match given.meaning? with
      | none => .mistyped
      | some .nothing => .omitted
      | some meaning => .ofOption (read given meaning)
  | _ => .mistyped

def textOf (given : Scalar) : Meaning → Option String
  | .text content => some content
  | _ => some given.text

/-- A whole number of 64 bits; a fraction is cut off. -/
def numberOf (_ : Scalar) : Meaning → Option Int
  | .integer value => if Text.fitsWord value then some value else none
  | .fraction value => if value.isWithinWords then some value.word else none
  | _ => none

/-- A truth value; some words count as one although they are texts. -/
def flagOf (_ : Scalar) : Meaning → Option Bool
  | .flag value => some value
  | .text content =>
      if content ∈ ["y", "Y", "yes", "on"] then some true
      else if content ∈ ["n", "N", "no", "off"] then some false
      else none
  | _ => none

/-- An identifier is read from the text of a scalar whatever it stands for, unless that is
nothing. -/
def idOf : Yaml → Reading Id
  | .scalar given =>
      if given.isNothing then
        if given.meaning? == some .nothing then .omitted else .mistyped
      else .ofOption (Id.ofText? given.text)
  | _ => .mistyped

def isMerge : Yaml → Bool
  | .scalar given => given.isMerge
  | _ => false

def keyText? : Yaml → Option String
  | .scalar given => some given.text
  | _ => none

/-- The pairs by the names of their keys: every key is a scalar and stands once; a pair whose key is
left out is dropped. -/
def ownMembers (pairs : List (Yaml × Yaml)) : Option (List (String × Yaml)) := do
  let keys ← pairs.mapM fun pair => keyText? pair.1
  if !keys.Nodup then none
  let named ← (pairs.filter fun pair => !isMerge pair.1).mapM fun (key, value) =>
    match readScalar textOf key with
    | .mistyped => none
    | .omitted => some none
    | .found name => some (some (name, value))
  let found := named.filterMap id
  if (found.map Prod.fst).Nodup then some found else none

/-- The mappings that a value of the merge key stands for. -/
def mergedMappings : Yaml → Option (List (List (Yaml × Yaml)))
  | .mapping pairs => some [pairs]
  | .sequence items => items.mapM fun item =>
      match item with
      | .mapping pairs => some pairs
      | _ => none
  | _ => none

/-- The members of a mapping: its own, and then those of the mappings that it asks for, as far as
they have other names; an earlier mapping goes before a later one. The number bounds how deep
mappings ask for others. -/
def members : Nat → List (Yaml × Yaml) → Option (List (String × Yaml))
  | 0, _ => none
  | bound + 1, pairs => do
      let own ← ownMembers pairs
      match pairs.find? fun pair => isMerge pair.1 with
      | none => some own
      | some (_, value) => do
          let mappings ← mergedMappings value
          mappings.foldlM (fun found mapping => do
            let more ← members bound mapping
            some (found ++ more.filter fun member =>
              !found.any fun other => other.1 == member.1)) own

def deepestMerge : Nat :=
  10000

def dialect : Dialect Yaml where
  text := readScalar textOf
  number := readScalar numberOf
  flag := readScalar flagOf
  id := idOf
  list
    | .sequence items => .found items
    | value => if isOmitted value then .omitted else .mistyped
  record known
    | .mapping pairs => .ofOption do
        let found ← members deepestMerge pairs
        if found.all fun member => known.contains member.1 then some found else none
    | value => if isOmitted value then .omitted else .mistyped
  isOmitted := isOmitted
  positional := false

end Yaml

end SchemaStubs.Document
