import SchemaStubs.Journal.Entry
import SchemaStubs.Journal.Event

/-!
The entry that reports an event: its level, the component it comes from, the message and the fields.
-/

namespace SchemaStubs.Journal

def textField (key content : String) : Field :=
  .pair key (.text content)

def countField (key : String) (count : Nat) : Field :=
  .pair key (.integer count)

/-- The report of an event. `elapsed` is how many milliseconds the work took that the event ends. -/
def Event.entry (elapsed : Nat) : Event → Entry
  | nodeRegistered id kind internal =>
      { level := .debug, component := "registry", message := "registered node",
        fields := [textField "node_id" id.text, textField "node_kind" kind.text,
          textField "internal_id" internal] }
  | aliasAssigned subject name role =>
      { level := .debug, component := "registry", message := "assigned alias",
        fields := [textField "node_id" subject, textField "alias" name, textField "role" role] }
  | aliasesResolved subjects =>
      { level := .debug, component := "registry", message := "aliases resolved",
        fields := [countField "count" subjects] }
  | referenceDeferred source target via =>
      { level := .debug, component := "walker", message := "deferred cyclic reference",
        fields := [textField "node_id" source.text, textField "target" target.text,
          textField "via" via] }
  | referencesPatched id count =>
      { level := .debug, component := "walker", message := "patched cyclic references",
        fields := [textField "node_id" id.text, countField "pending" count] }
  | walkCompleted nodes edges =>
      { level := .info, component := "walker", message := "walk complete",
        fields := [countField "count" nodes, countField "edges" edges] }
  | nodeDrafted id kind name =>
      { level := .debug, component := "python", message := "Synthesizing node",
        fields := [textField "node_id" id.text, textField "node_kind" kind.text,
          textField "node_name" name] }
  | stubLaidOut file imports bytes =>
      { level := .debug, component := "python", message := "Emitted stub",
        fields := [textField "file" file, countField "imports" imports,
          countField "bytes" bytes] }
  | stubGenerated file output =>
      { level := .info, component := "python", message := "Generated stub",
        fields := [textField "file" file, textField "output" output] }
  | generationCompleted files =>
      { level := .info, component := "python", message := "Generation complete",
        fields := [countField "count" files, countField "duration_ms" elapsed] }
  | settingsLoaded settings =>
      { level := .debug, message := "Configuration loaded",
        fields := [textField "component" "config", textField "config" settings] }
  | settingsUnreadable path problem =>
      { level := .warn, message := "Could not inspect project config",
        fields := [textField "file" path, textField "error" problem] }
  | settingUnknown path key =>
      { level := .warn, message := "Unknown configuration key",
        fields := [textField "file" path, textField "key" key] }
  | documentLoaded path format nodes =>
      { level := .info, message := "Schema document loaded",
        fields := [textField "file" path, textField "format" format, countField "count" nodes] }
  | firstGenerationFailed path problem =>
      { level := .error, message := "Initial generation failed",
        fields := [textField "file" path, textField "error" problem] }
  | watchStarted path =>
      { level := .info, component := "watch", message := "Watching schema document",
        fields := [textField "file" path] }
  | changeSeen path operations =>
      { level := .debug, component := "watch", message := "Watcher detected change",
        fields := [textField "file" path, textField "event" operations] }
  | regenerated path =>
      { level := .info, component := "watch", message := "Regenerated",
        fields := [textField "file" path, countField "duration_ms" elapsed] }
  | regenerationFailed path problem =>
      { level := .error, component := "watch", message := "Regeneration failed",
        fields := [textField "file" path, textField "error" problem] }
  | watchDisturbed problem =>
      { level := .warn, component := "watch", message := "Watcher error",
        fields := [textField "error" problem] }

end SchemaStubs.Journal
