import SchemaStubs.Id
import SchemaStubs.Schema.Kind

/-!
What can be wrong with a schema document, one constructor for each refusal. The texts name the node
by its identifier, or by its display name where members of it are meant.
-/

namespace SchemaStubs

inductive Defect where
  | malformedId (text : List Text.Piece)
  | emptyNode (index : Nat)
  | nodeWithoutId (index : Nat) (displayName : String)
  | repeatedId (id : Id)
  | noRequestedFiles
  | requestedMissing (id : Id)
  | requestedNotFile (id : Id) (kind : NodeKind)
  | unnamedNode (id : Id)
  | scopedFile (id : Id)
  | missingScope (id : Id) (displayName : String) (scope : Id)
  | scopeHoldsNothing (id : Id) (scopeKind : NodeKind) (scope : Id)
  | groupNotStruct (id : Id) (kind : NodeKind)
  | nestedMissing (id nested : Id)
  | nestedElsewhere (nested id scope : Id)
  | unnamedEnumerant (id : Id) (index : Nat)
  | unnamedMethod (id : Id)
  | incompleteParameter (displayName method : String)
  | constWithoutType (id : Id)
  | unnamedSlot (id : Id)
  | fieldWithoutType (displayName field : String)
  | groupMissing (displayName field : String) (group : Id)
  | notAGroup (displayName field : String) (group : Id)
  | unknownFieldKind (displayName field kind : String)
  | ordinalOutOfRange (displayName field : String) (ordinal count : Int)
  | ordinalRepeated (displayName : String) (ordinal : Int)
  | ordinalsMissing (displayName : String) (count : Int) (found : Nat)
  | lonelyUnionMember (displayName : String)
  | unknownTypeKind (owner : Id) (kind : String)
  | listWithoutElement (owner : Id)
  | typeWithoutTarget (owner : Id) (kind : TypeKind)
  | parameterWithoutScope (owner : Id)
  | endlessScope (id : Id)
  | endlessGroup (id : Id)
  | unknownFormat (format : String)
  | unknownExtension (path : String)
  | notAVersion (version : String)
  | unsupportedVersion (version formats : String)
  | wrongTargetKind (source target : Id) (wanted : NodeKind) (via : String) (kind : NodeKind)
  | elementlessList
  | described (text : String)
  deriving DecidableEq, Repr

namespace Defect

def text : Defect → String
  | malformedId text => "malformed node id " ++ Text.quotePieces text
  | emptyNode index => s!"node #{index} is empty"
  | nodeWithoutId index displayName =>
      s!"node #{index} (" ++ Text.quote displayName ++ ") has no id"
  | repeatedId id => s!"duplicate node id {id}"
  | noRequestedFiles => "no requested files"
  | requestedMissing id => s!"requested file {id} is not in the document"
  | requestedNotFile id kind => s!"requested node {id} is a " ++ kind.text ++ ", not a file"
  | unnamedNode id => s!"node {id} has neither name nor display_name"
  | scopedFile id => s!"file node {id} must not have a scope"
  | missingScope id displayName scope => s!"node {id} ({displayName}) has missing scope {scope}"
  | scopeHoldsNothing id scopeKind scope =>
      s!"node {id} is scoped inside " ++ scopeKind.text ++ s!" {scope}"
  | groupNotStruct id kind => s!"node {id} is marked as a group but is a " ++ kind.text
  | nestedMissing id nested => s!"node {id} lists missing nested node {nested}"
  | nestedElsewhere nested id scope => s!"nested node {nested} of {id} has scope {scope}"
  | unnamedEnumerant id index => s!"enum {id} has an unnamed enumerant at index {index}"
  | unnamedMethod id => s!"interface {id} has an unnamed method"
  | incompleteParameter displayName method =>
      s!"method {displayName}.{method} has a parameter without name or type"
  | constWithoutType id => s!"const {id} has no type"
  | unnamedSlot id => s!"struct {id} has an unnamed slot field"
  | fieldWithoutType displayName field => s!"field {displayName}.{field} has no type"
  | groupMissing displayName field group =>
      s!"group field {displayName}.{field} has missing group node {group}"
  | notAGroup displayName field group =>
      s!"group field {displayName}.{field} points at {group}, which is not a group"
  | unknownFieldKind displayName field kind =>
      s!"field {displayName}.{field} has unknown kind " ++ Text.quote kind
  | ordinalOutOfRange displayName field ordinal count =>
      s!"field {displayName}.{field} has union ordinal {ordinal} outside 1..{count}"
  | ordinalRepeated displayName ordinal =>
      s!"struct {displayName} has two fields with union ordinal {ordinal}"
  | ordinalsMissing displayName count found =>
      s!"struct {displayName} declares {count} union members but {found} fields carry an ordinal"
  | lonelyUnionMember displayName => s!"struct {displayName} has a union with a single member"
  | unknownTypeKind owner kind => s!"node {owner} uses unknown type kind " ++ Text.quote kind
  | listWithoutElement owner => s!"node {owner} has a list type without element"
  | typeWithoutTarget owner kind => s!"node {owner} has a " ++ kind.name ++ " type without type_id"
  | parameterWithoutScope owner => s!"node {owner} has a parameter type without scope"
  | endlessScope id => s!"scope chain of {id} does not terminate"
  | endlessGroup id => s!"group chain of {id} does not terminate"
  | unknownFormat format => "unknown document format " ++ Text.quote format
  | unknownExtension path => s!"cannot tell the format of {path} from its extension"
  | notAVersion version => "format_version " ++ Text.quote version ++ " is not a semantic version"
  | unsupportedVersion version _ => s!"format_version {version} is not supported"
  | wrongTargetKind source target wanted via kind =>
      s!"node {source} references {target} as " ++ wanted.text ++ s!" via {via}, but it is a " ++
        kind.text
  | elementlessList => "list type without element"
  | described text => text

def hints : Defect → List String
  | repeatedId _ => ["every node in the schema document must have a unique id"]
  | noRequestedFiles => ["list the file node ids to generate stubs for under requested_files"]
  | ordinalsMissing .. =>
      ["discriminant_count must equal the number of fields with a non-zero union ordinal"]
  | unknownExtension _ => ["use a .json, .yaml or .yml extension, or set input.format"]
  | unsupportedVersion _ formats =>
      [s!"this build reads schema documents with format_version {formats}"]
  | _ => []

end Defect

end SchemaStubs
