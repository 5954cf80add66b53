import SchemaStubs.Text.Join

/-!
The difference of two texts as a unified diff with three lines of context. The texts are matched by
their longest common run of lines, and what stands before and after it is matched in the same way.
In a long text, lines that occur very often do not start a run.
-/

namespace SchemaStubs.Delivery.Diff

/-- The lines of a text, each with its line feed. The last piece gets one too, so a text that ends
in a line feed has an empty line at the end. -/
def lines (text : String) : List String :=
  (Text.splitAt '\n' text).map fun line => line ++ "\n"

/-- A run of lines that two texts share: where it starts in each, and how long it is. -/
structure Block where
  first : Nat
  second : Nat
  size : Nat
  deriving DecidableEq, Repr, Inhabited

/-- The lines too frequent to start a run: in a text of 200 lines or more, those that make up more
than one percent of it. -/
def frequent (text : List String) : List String :=
  if text.length < 200 then []
  else text.eraseDups.filter fun line => text.length / 100 + 1 < text.count line

/-- The lengths of the common runs that end with a line and with each line of the second text, from
those that end with the line before. -/
def runRow (ignored : List String) (line : String) (second : List String) (before : List Nat) :
    List Nat :=
  if line ∈ ignored then second.map fun _ => 0
  else List.zipWith (fun other run => if line == other then run + 1 else 0) second (0 :: before)

/-- Takes the longer runs of a row into account; of two runs of one length the first stays. -/
def improve (row : Nat) : Nat → Block → List Nat → Block
  | _, best, [] => best
  | column, best, run :: rest =>
      improve row (column + 1)
        (if best.size < run then ⟨row + 1 - run, column + 1 - run, run⟩ else best) rest

def search (ignored second : List String) : Nat → Block → List Nat → List String → Block
  | _, best, _, [] => best
  | row, best, before, line :: rest =>
      let runs := runRow ignored line second before
      search ignored second (row + 1) (improve row 0 best runs) runs rest

def commonStart : List String → List String → Nat
  | first :: firsts, second :: seconds =>
      if first = second then commonStart firsts seconds + 1 else 0
  | _, _ => 0

def extend (first second : List String) (block : Block) : Block :=
  let back := commonStart (first.take block.first).reverse (second.take block.second).reverse
  let onward := commonStart (first.drop (block.first + block.size))
    (second.drop (block.second + block.size))
  ⟨block.first - back, block.second - back, back + block.size + onward⟩

def longest (ignored first second : List String) : Block :=
  extend first second (search ignored second 0 ⟨0, 0, 0⟩ (second.map fun _ => 0) first)

def Block.shift (block : Block) (first second : Nat) : Block :=
  ⟨block.first + first, block.second + second, block.size⟩

/-- The common runs in order; `bound` limits how often the texts are split. -/
def blocksFrom (ignored : List String) : Nat → List String → List String → List Block
  | 0, _, _ => []
  | bound + 1, first, second =>
      let best := longest ignored first second
      if best.size = 0 then []
      else
        let afterFirst := best.first + best.size
        let afterSecond := best.second + best.size
        blocksFrom ignored bound (first.take best.first) (second.take best.second) ++ best ::
          (blocksFrom ignored bound (first.drop afterFirst) (second.drop afterSecond)).map fun
            block => block.shift afterFirst afterSecond

/-- Joins runs that follow each other in both texts. -/
def joinBlocks : List Block → List Block
  | [] => []
  | block :: rest =>
      match joinBlocks rest with
      | [] => [block]
      | next :: others =>
          if block.first + block.size = next.first ∧ block.second + block.size = next.second then
            ⟨block.first, block.second, block.size + next.size⟩ :: others
          else block :: next :: others

def blocks (first second : List String) : List Block :=
  joinBlocks (blocksFrom (frequent second) (first.length + 1) first second)

/-- A stretch of both texts that is the same in both or that differs. -/
structure Stretch where
  same : Bool
  firstStart : Nat
  firstEnd : Nat
  secondStart : Nat
  secondEnd : Nat
  deriving DecidableEq, Repr, Inhabited

def differing (firstStart firstEnd secondStart secondEnd : Nat) : List Stretch :=
  if firstStart < firstEnd ∨ secondStart < secondEnd then
    [⟨false, firstStart, firstEnd, secondStart, secondEnd⟩]
  else []

def stretchesFrom (firstLength secondLength : Nat) : Nat → Nat → List Block → List Stretch
  | first, second, [] => differing first firstLength second secondLength
  | first, second, block :: rest =>
      differing first block.first second block.second ++
        ⟨true, block.first, block.first + block.size, block.second, block.second + block.size⟩ ::
          stretchesFrom firstLength secondLength (block.first + block.size)
            (block.second + block.size) rest

def stretches (first second : List String) : List Stretch :=
  stretchesFrom first.length second.length 0 0 (blocks first second)

/-- The lines shown around a difference. -/
def context : Nat :=
  3

def Stretch.ending (stretch : Stretch) : Stretch :=
  { stretch with
    firstStart := max stretch.firstStart (stretch.firstEnd - context)
    secondStart := max stretch.secondStart (stretch.secondEnd - context) }

def Stretch.beginning (stretch : Stretch) : Stretch :=
  { stretch with
    firstEnd := min stretch.firstEnd (stretch.firstStart + context)
    secondEnd := min stretch.secondEnd (stretch.secondStart + context) }

def trimFirst : List Stretch → List Stretch
  | [] => []
  | stretch :: rest => (if stretch.same then stretch.ending else stretch) :: rest

def trimLast : List Stretch → List Stretch
  | [] => []
  | [stretch] => [if stretch.same then stretch.beginning else stretch]
  | stretch :: next :: rest => stretch :: trimLast (next :: rest)

/-- Divides the stretches where more lines are the same than two contexts hold; `hunk` is the hunk
being filled. -/
def divide : List Stretch → List Stretch → List (List Stretch)
  | hunk, [] => [hunk]
  | hunk, stretch :: rest =>
      if stretch.same ∧ 2 * context < stretch.firstEnd - stretch.firstStart then
        (hunk ++ [stretch.beginning]) :: divide [stretch.ending] rest
      else divide (hunk ++ [stretch]) rest

def differs (hunk : List Stretch) : Bool :=
  hunk.any fun stretch => !stretch.same

def hunks (first second : List String) : List (List Stretch) :=
  (divide [] (trimLast (trimFirst (stretches first second)))).filter differs

/-- A range of lines, counted from one; one line is given by its number, and an empty range by the
line before it. -/
def rangeText (start stop : Nat) : String :=
  if stop - start = 1 then toString (start + 1)
  else if stop - start = 0 then s!"{start},0"
  else s!"{start + 1},{stop - start}"

def slice (text : List String) (start stop : Nat) : List String :=
  (text.take stop).drop start

def stretchText (first second : List String) (stretch : Stretch) : String :=
  let old := slice first stretch.firstStart stretch.firstEnd
  if stretch.same then Text.concat (old.map fun line => " " ++ line)
  else
    let new := slice second stretch.secondStart stretch.secondEnd
    Text.concat (old.map fun line => "-" ++ line) ++ Text.concat (new.map fun line => "+" ++ line)

def hunkText (first second : List String) (hunk : List Stretch) : String :=
  match hunk.head?, hunk.getLast? with
  | some start, some stop =>
      "@@ -" ++ rangeText start.firstStart stop.firstEnd ++ " +" ++
        rangeText start.secondStart stop.secondEnd ++ " @@\n" ++
        Text.concat (hunk.map (stretchText first second))
  | _, _ => ""

/-- The unified diff that turns one text into another; empty when no line differs. -/
def unified (firstName secondName first second : String) : String :=
  let old := lines first
  let new := lines second
  let hunks := hunks old new
  if hunks.isEmpty then ""
  else
    "--- " ++ firstName ++ "\n+++ " ++ secondName ++ "\n" ++
      Text.concat (hunks.map (hunkText old new))

end SchemaStubs.Delivery.Diff
