import SchemaStubs.Settings.Toml.Grammar

/-!
Dates and times, which have to be possible ones: every month has its days, every day its hours.
-/

namespace SchemaStubs.Settings.Toml

def readDigits (count : Nat) (text : List Char) : Option (Nat × List Char) :=
  let digits := text.take count
  if digits.length = count && digits.all Char.isDigit then
    some (digits.foldl (fun value c => value * 10 + (c.toNat - 48)) 0, text.drop count)
  else none

def after (mark : Char) : List Char → Option (List Char)
  | [] => none
  | c :: rest => if c == mark then some rest else none

def isLeapYear (year : Nat) : Bool :=
  year % 4 == 0 && (year % 100 != 0 || year % 400 == 0)

def daysIn (month year : Nat) : Nat :=
  if month = 2 then (if isLeapYear year then 29 else 28)
  else if month ∈ [4, 6, 9, 11] then 30
  else 31

def afterDate (text : List Char) : Option (List Char) := do
  let (year, rest) ← readDigits 4 text
  let (month, rest) ← readDigits 2 (← after '-' rest)
  let (day, rest) ← readDigits 2 (← after '-' rest)
  if 1 ≤ month && month ≤ 12 && 1 ≤ day && day ≤ daysIn month year then some rest else none

def afterFraction (text : List Char) : List Char :=
  match text with
  | '.' :: digit :: rest => if digit.isDigit then rest.dropWhile Char.isDigit else text
  | _ => text

def afterTime (grammar : Grammar) (text : List Char) : Option (List Char) := do
  let (hour, rest) ← readDigits 2 text
  let (minute, rest) ← readDigits 2 (← after ':' rest)
  if 23 < hour || 59 < minute then none
  else match rest with
    | ':' :: more => do
        let (second, rest) ← readDigits 2 more
        if second ≤ grammar.lastSecond then some (afterFraction rest) else none
    | _ => if grammar.shortTimes then some rest else none

def isOffset (grammar : Grammar) (text : List Char) : Bool :=
  match text with
  | ['Z'] | ['z'] => true
  | sign :: rest =>
      (sign == '+' || sign == '-') && ((do
        let (hour, rest) ← readDigits 2 rest
        let (minute, rest) ← readDigits 2 (← after ':' rest)
        some (hour ≤ grammar.lastOffset.1 && minute ≤ grammar.lastOffset.2 && rest.isEmpty)
        ).getD false)
  | [] => false

/-- Whether a token is a date, a time or both. Only both have an offset. -/
def isMoment (grammar : Grammar) (token : List Char) : Bool :=
  match afterDate token with
  | some [] => true
  | some (mark :: rest) =>
      (mark == 'T' || mark == 't' || mark == ' ') &&
        match afterTime grammar rest with
        | some ending => ending.isEmpty || isOffset grammar ending
        | none => false
  | none => afterTime grammar token == some []

end SchemaStubs.Settings.Toml
