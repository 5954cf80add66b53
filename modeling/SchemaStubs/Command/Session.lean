import SchemaStubs.Build
import SchemaStubs.Files.Disk
import SchemaStubs.Journal.Event
import SchemaStubs.Journal.Style
import SchemaStubs.Settings.Basic
import SchemaStubs.Step
import SchemaStubs.Watch

/-!
A run of the program: what it finds around it, and what it leaves behind.
-/

namespace SchemaStubs.Command

structure Surroundings where
  disk : Files.Disk
  /-- The environment variables with their values. -/
  environment : List (String × String) := []
  build : Build := {}
  platform : String
  toolchain : String
  deriving Inhabited

inductive Tone where
  | success
  | info
  | warning
  | error
  deriving DecidableEq, Repr

def Tone.label : Tone → String
  | success => "SUCCESS"
  | info => "INFO"
  | warning => "WARNING"
  | error => "ERROR"

def isTagChar (c : Char) : Bool :=
  c.isAlphanum || c == '_' || c == '=' || c == ',' || c == ';'

/-- What follows a tag that the text starts with: a word between angle brackets, or a slash and a
word that may be missing. -/
def afterTag? : List Char → Option (List Char)
  | '<' :: rest =>
      let name := match rest with
        | '/' :: name => name
        | name => name
      match name.dropWhile isTagChar with
      | '>' :: after => some after
      | _ => none
  | _ => none

/-- The text without its tags. The number bounds the length of the text. -/
def dropTags : Nat → List Char → List Char
  | 0, text => text
  | _, [] => []
  | bound + 1, c :: rest =>
      match afterTag? (c :: rest) with
      | some after => dropTags bound after
      | none => c :: dropTags bound rest

/-- Tags give a note its colours, and the end of a colour is `</>`. Notes have no colours, so a text
with such an end loses all its tags, and those that come about when others go. -/
def withoutTags : Nat → List Char → List Char
  | 0, text => text
  | rounds + 1, text =>
      if Text.holdsWord "</>".toList text then
        withoutTags rounds (dropTags text.length text)
      else text

inductive Print where
  | output (text : String)
  | note (tone : Tone) (text : String)
  deriving DecidableEq, Repr

namespace Print

def text : Print → String
  | output text => text
  | note tone text =>
      tone.label ++ ": " ++ String.ofList (withoutTags text.length text.toList) ++ "\n"

def isNote : Print → Bool
  | output _ => false
  | note _ _ => true

end Print

structure Session where
  disk : Files.Disk
  printed : List Print := []
  journal : List Journal.Event := []
  style : Journal.Style := {}
  /-- The watch that goes on when the command is done, and the settings it goes by. -/
  watch : Option (Watch × Settings) := none
  deriving Inhabited

namespace Session

def print (entry : Print) : Step Session Unit :=
  modify fun session => { session with printed := session.printed ++ [entry] }

def output (text : String) : Step Session Unit :=
  print (.output text)

def note (tone : Tone) (text : String) : Step Session Unit :=
  print (.note tone text)

def record (events : List Journal.Event) : Step Session Unit :=
  modify fun session => { session with journal := session.journal ++ events }

def onDisk {α : Type} (step : Step Files.Disk α) : Step Session α :=
  step.onPart Session.disk fun disk session => { session with disk }

def outputText (session : Session) : String :=
  Text.concat ((session.printed.filter fun entry => !entry.isNote).map Print.text)

def noteText (session : Session) : String :=
  Text.concat ((session.printed.filter Print.isNote).map Print.text)

end Session

end SchemaStubs.Command
