import SchemaStubs.Command.Action
import SchemaStubs.Journal.Report
import SchemaStubs.Settings.Unknown

/-!
The command line as a whole: it finds the command, reads flags and arguments, loads the settings and
runs the command.
-/

namespace SchemaStubs.Command

def flagSettings (given : Given) : List (Settings.Key × Settings.Given) :=
  (match given.jsonLog with
    | some value => [(.jsonLog, .bool value)]
    | none => []) ++
  match given.output with
  | some directory => [(.outputDirectory, .text directory)]
  | none => []

def unknownSettings (disk : Files.Disk) : List Journal.Event :=
  match Settings.findFile disk with
  | none => []
  | some path =>
      match Settings.unknownKeys disk path with
      | .error fault => [.settingsUnreadable path fault.message]
      | .ok keys => keys.map fun key => .settingUnknown path key

def prepare (surroundings : Surroundings) (given : Given) : Step Session Settings := do
  let disk := (← get).disk
  let loaded := Settings.loadProject disk surroundings.environment (flagSettings given)
  let settings ← (Step.ofExcept loaded).inContext "failed to load configuration"
  let verbosity := max given.verbosity (Journal.Level.verbosity settings.level)
  let least := Journal.Level.ofVerbosity verbosity
  modify fun session => { session with style := { json := settings.jsonLog, least } }
  Session.record (unknownSettings disk ++ [.settingsLoaded settings.text])
  pure settings

def refuse {α : Type} (result : Except Misuse α) : Step Session α :=
  Step.ofExcept (result.mapError fun misuse => ⟨.misuse misuse, [], []⟩)

inductive Task where
  /-- The page of help about a topic. -/
  | page (topic : Topic)
  | work (verb : Verb) (settings : Settings) (given : Given)

/-- Finds out what a command line asks for. Without a command, or when help is asked for, that is a
page, and the settings are not looked at. -/
def understand (surroundings : Surroundings) (arguments : List String) : Step Session Task := do
  let (found, rest) ← refuse (find arguments)
  match found with
  | none => do
      let _ ← refuse (readArguments Topic.programFlags {} rest)
      pure (.page (Topic.ofProgram Topic.programFlags))
  | some verb => do
      let given ← refuse (readArguments verb.flags {} rest)
      if given.help then pure (.page (Topic.ofVerb verb))
      else do
        refuse (verb.arity.check given.arguments.length)
        let settings ← prepare surroundings given
        pure (.work verb settings given)

def perform (surroundings : Surroundings) (arguments : List String) : Step Session Unit := do
  match ← understand surroundings arguments with
  | .page topic => Session.output topic.page
  | .work verb settings given => act surroundings settings verb given

structure Outcome where
  result : Except Fault Unit
  session : Session

def run (surroundings : Surroundings) (arguments : List String) : Outcome :=
  let (result, session) := (perform surroundings arguments).outcome { disk := surroundings.disk }
  { result, session }

namespace Outcome

/-- The status the program ends with: stubs that are out of date are told apart from failures. -/
def exitCode (outcome : Outcome) : Nat :=
  match outcome.result with
  | .ok _ => 0
  | .error fault => if fault.class? = some .drift then 1 else 2

def journalText (outcome : Outcome) (coloured : Bool) (seconds : Int) (elapsed : Nat) : String :=
  let style := { outcome.session.style with coloured }
  style.text seconds (outcome.session.journal.map (Journal.Event.entry elapsed))

end Outcome

end SchemaStubs.Command
