import SchemaStubs.Document.Yaml.Basic
import SchemaStubs.Document.Yaml.Tokens

/-!
The value of the first document of a YAML text. An alias stands for the value that has its anchor; a
value cannot hold itself. What follows the first document is not looked at, beyond the one token
that ends it.
-/

namespace SchemaStubs.Document.Yaml

/-- The tokens still to be read, the values of the anchors, and what the handles of tags stand for.
An anchor whose value is still being read has none. -/
structure Progress where
  tokens : List Token
  anchors : List (String × Option Yaml) := []
  handles : List (String × String) := []
  deriving Inhabited

abbrev Composing := StateT Progress Option

namespace Composing

def peek : Composing Token := do
  match (← get).tokens with
  | [] => failure
  | token :: _ => pure token

def skip : Composing Unit :=
  modify fun progress => { progress with tokens := progress.tokens.tail }

def isNext (tokens : List Token) : Composing Bool := do
  return tokens.contains (← peek)

def setAnchor (anchor : Option String) (value : Option Yaml) : Composing Unit :=
  match anchor with
  | none => pure ()
  | some name => modify fun progress =>
      { progress with anchors := (name, value) :: progress.anchors }

def valueOf (name : String) : Composing Yaml := do
  match (← get).anchors.lookup name with
  | some (some value) => pure value
  | _ => failure

/-- Reads a collection and gives it to an anchor. -/
def anchored (anchor : Option String) (collection : Composing Yaml) : Composing Yaml := do
  setAnchor anchor none
  let value ← collection
  setAnchor anchor (some value)
  pure value

/-- The anchor and the tag before a value, in either order. -/
def properties : Composing (Option String × Option (String × String)) := do
  match ← peek with
  | .anchor name => do
      skip
      match ← peek with
      | .tag handle suffix => do
          skip
          pure (some name, some (handle, suffix))
      | _ => pure (some name, none)
  | .tag handle suffix => do
      skip
      match ← peek with
      | .anchor name => do
          skip
          pure (some name, some (handle, suffix))
      | _ => pure (none, some (handle, suffix))
  | _ => pure (none, none)

/-- The full text of a tag: its handle stands for the start of it. -/
def fullTag (handle suffix : String) : Composing String := do
  if handle == "" then pure suffix
  else match (← get).handles.lookup handle with
    | some meaning => pure (meaning ++ suffix)
    | none => failure

def standardTags : String :=
  "tag:yaml.org,2002:"

/-- The short form of a tag. The tag `!` says nothing about a value. -/
def shortTag (tag : String) : Option String :=
  if tag == "!" || tag == "" then none
  else if Text.startsWith standardTags tag then some ("!!" ++ Text.dropStart standardTags tag)
  else some tag

/-- A value that is written as nothing, which only an anchor or a tag can show. -/
def emptyValue (anchor tag : Option String) (shown : Bool) : Composing Yaml := do
  if !shown then failure
  let value : Yaml := .scalar { text := "", tag }
  setAnchor anchor (some value)
  pure value

/-- The tokens that can stand after a colon or a mark of a key without a value. -/
def blockStops : List Token :=
  [.key, .value, .blockEnd]

def sequenceStops : List Token :=
  [.flowEntry, .flowSequenceEnd]

def mappingStops : List Token :=
  [.flowEntry, .flowMappingEnd]

mutual

/-- The next value. `block` tells whether it may be a block collection, and `loose` whether it may
be a sequence whose entries stand in the column of the mapping around it. -/
def node : Nat → Bool → Bool → Composing Yaml
  | 0, _, _ => failure
  | bound + 1, block, loose => do
      match ← peek with
      | .aliasOf name => do
          skip
          valueOf name
      | _ => do
          let (anchor, written) ← properties
          let tag ← match written with
            | some (handle, suffix) => do pure (shortTag (← fullTag handle suffix))
            | none => pure none
          match ← peek with
          | .scalar text plain => do
              skip
              let value : Yaml := .scalar { text, plain, tag }
              setAnchor anchor (some value)
              pure value
          | .flowSequence => do
              skip
              anchored anchor (flowItems bound true [])
          | .flowMapping => do
              skip
              anchored anchor (flowPairs bound true [])
          | .blockEntry =>
              if loose then anchored anchor (entries bound true [])
              else emptyValue anchor tag (anchor.isSome || written.isSome)
          | .blockSequence =>
              if block then do
                skip
                anchored anchor (entries bound false [])
              else emptyValue anchor tag (anchor.isSome || written.isSome)
          | .blockMapping =>
              if block then do
                skip
                anchored anchor (pairs bound [])
              else emptyValue anchor tag (anchor.isSome || written.isSome)
          | _ => emptyValue anchor tag (anchor.isSome || written.isSome)

def nodeUnless : Nat → List Token → Bool → Bool → Composing Yaml
  | 0, _, _, _ => failure
  | bound + 1, stops, block, loose => do
      if ← isNext stops then pure absent else node bound block loose

/-- The value after a colon, which may be left out together with the colon. -/
def valueAfterColon : Nat → List Token → Bool → Composing Yaml
  | 0, _, _ => failure
  | bound + 1, stops, block => do
      if ← isNext [.value] then do
        skip
        nodeUnless bound stops block block
      else pure absent

/-- The entries of a block sequence, given those before in reverse. A loose one ends where no entry
follows. -/
def entries : Nat → Bool → List Yaml → Composing Yaml
  | 0, _, _ => failure
  | bound + 1, loose, done => do
      match ← peek with
      | .blockEntry => do
          skip
          let stops := if loose then .blockEntry :: blockStops else [.blockEntry, .blockEnd]
          let item ← nodeUnless bound stops true false
          entries bound loose (item :: done)
      | token =>
          if loose then pure (.sequence done.reverse)
          else if token == .blockEnd then do
            skip
            pure (.sequence done.reverse)
          else failure

def pairs : Nat → List (Yaml × Yaml) → Composing Yaml
  | 0, _ => failure
  | bound + 1, done => do
      match ← peek with
      | .key => do
          skip
          let key ← nodeUnless bound blockStops true true
          let value ← valueAfterColon bound blockStops true
          pairs bound ((key, value) :: done)
      | .blockEnd => do
          skip
          pure (.mapping done.reverse)
      | _ => failure

/-- The items of a flow sequence, given those before in reverse; all but the first follow a
comma. -/
def flowItems : Nat → Bool → List Yaml → Composing Yaml
  | 0, _, _ => failure
  | bound + 1, first, done => do
      if ← isNext [.flowSequenceEnd] then do
        skip
        pure (.sequence done.reverse)
      else do
        if !first then do
          if ← isNext [.flowEntry] then skip else failure
        match ← peek with
        | .flowSequenceEnd => do
            skip
            pure (.sequence done.reverse)
        | .key => do
            skip
            let item ← flowPair bound
            flowItems bound false (item :: done)
        | _ => do
            let item ← node bound false false
            flowItems bound false (item :: done)

/-- A pair that is an item of a flow sequence. Where the key is left out, the token after the mark
of the key is passed over. -/
def flowPair : Nat → Composing Yaml
  | 0 => failure
  | bound + 1 => do
      let key ←
        if ← isNext (.value :: sequenceStops) then do
          skip
          pure absent
        else node bound false false
      let value ← valueAfterColon bound sequenceStops false
      pure (.mapping [(key, value)])

def flowPairs : Nat → Bool → List (Yaml × Yaml) → Composing Yaml
  | 0, _, _ => failure
  | bound + 1, first, done => do
      if ← isNext [.flowMappingEnd] then do
        skip
        pure (.mapping done.reverse)
      else do
        if !first then do
          if ← isNext [.flowEntry] then skip else failure
        match ← peek with
        | .flowMappingEnd => do
            skip
            pure (.mapping done.reverse)
        | .key => do
            skip
            let key ← nodeUnless bound (.value :: mappingStops) false false
            let value ← valueAfterColon bound mappingStops false
            flowPairs bound false ((key, value) :: done)
        | _ => do
            let key ← node bound false false
            flowPairs bound false ((key, absent) :: done)

end

def standardHandles : List (String × String) :=
  [("!", "!"), ("!!", standardTags)]

/-- The directives before a document: the version, which has to be 1.1, and the meanings of handles,
each of them once. -/
def directives : Nat → Bool → Composing Unit
  | 0, _ => failure
  | bound + 1, versioned => do
      match ← peek with
      | .version major minor => do
          if versioned || major != 1 || minor != 1 then failure
          skip
          directives bound true
      | .handle name meaning => do
          if ((← get).handles.lookup name).isSome then failure
          skip
          modify fun progress => { progress with handles := progress.handles ++ [(name, meaning)] }
          directives bound versioned
      | _ => pure ()

def startsDocument : Token → Bool
  | .version .. | .handle .. | .documentStart => true
  | _ => false

def document (bound : Nat) : Composing Yaml := do
  skip
  let token ← peek
  if token == .streamEnd then failure
  if startsDocument token then do
    directives bound false
    if !(← isNext [.documentStart]) then failure
    skip
  modify fun progress => { progress with handles := progress.handles ++ standardHandles }
  let next ← peek
  let value ←
    if startsDocument token && (startsDocument next || next == .documentEnd || next == .streamEnd)
      then pure absent
    else node bound true false
  let _ ← peek
  pure value

end Composing

def isAllowed (c : Char) : Bool :=
  let code := c.toNat
  code == 9 || code == 10 || code == 13 || (32 ≤ code && code ≤ 126) || code == 0x85 ||
    (0xA0 ≤ code && code != 0xFEFF && code != 0xFFFE && code != 0xFFFF)

def dropByteOrderMark : List Char → List Char
  | [] => []
  | c :: rest => if c.toNat == 0xFEFF then rest else c :: rest

def ofChars? (text : List Char) : Option Yaml := do
  if !text.all isAllowed then none
  let found := tokens text
  ((Composing.document (4 * found.length + 4)).run { tokens := found }).map Prod.fst

def ofText? (text : String) : Option Yaml :=
  ofChars? (dropByteOrderMark text.toList)

end SchemaStubs.Document.Yaml
