import SchemaStubs.Id
import SchemaStubs.Schema.Kind

/-!
What a run has to tell: the events of naming, walking, drafting, commanding and watching, in the
order they happen. How an event is shown is decided elsewhere.
-/

namespace SchemaStubs.Journal

inductive Event where
  | nodeRegistered (id : Id) (kind : NodeKind) (internal : String)
  | aliasAssigned (subject name role : String)
  | aliasesResolved (subjects : Nat)
  | referenceDeferred (source target : Id) (via : String)
  | referencesPatched (id : Id) (count : Nat)
  | walkCompleted (nodes edges : Nat)
  | nodeDrafted (id : Id) (kind : NodeKind) (name : String)
  | stubLaidOut (file : String) (imports bytes : Nat)
  | stubGenerated (file output : String)
  | generationCompleted (files : Nat)
  | settingsLoaded (settings : String)
  | settingsUnreadable (path problem : String)
  | settingUnknown (path key : String)
  | documentLoaded (path format : String) (nodes : Nat)
  | firstGenerationFailed (path problem : String)
  | watchStarted (path : String)
  | changeSeen (path operations : String)
  | regenerated (path : String)
  | regenerationFailed (path problem : String)
  | watchDisturbed (problem : String)
  deriving DecidableEq, Repr

end SchemaStubs.Journal
