import SchemaStubs.Proofs.Stub.KnownReferences
import SchemaStubs.Proofs.Stub.Marks
import SchemaStubs.Proofs.Stub.Shapes

/-!
The texts of types. A type of the schema is written by its parts: a primitive type under its own name,
a list around the text of its elements, and a node of the stub's own file by types that stand in the
class of the node, behind the identifier of the node. A view shows one such type or several.
-/

namespace SchemaStubs.Stub

/-- The types in the class of a node by which a view shows the node. -/
def View.shownTypes : View → NodeKind → List String
  | reader, .struct => ["Reader"]
  | builder, .struct => ["Builder"]
  | setter, .struct => ["Reader", "Builder", "Dict"]
  | dict, .struct => ["Dict"]
  | _, .enum => ["Value"]
  | setter, .interface => ["Client", "Server"]
  | dict, .interface => []
  | _, .interface => ["Client"]
  | _, _ => []

def View.shownRest : View → NodeKind → List String
  | setter, .enum => ["int"]
  | dict, .interface => ["Any"]
  | _, _ => []

def View.bodyType : View → String
  | reader => "Reader"
  | builder => "Builder"
  | setter | dict => "Dict"

/-- The text lists types in the class of a node, all of which the stub has, and then other types. It
lists something. -/
def Denotes (emits : String → Prop) (known : Id → Option String) (id : Id) (types rest : List String)
    (text : String) : Prop :=
  types ++ rest ≠ [] ∧ ∃ internal, known id = some internal ∧
    text = Text.joinWith " | " (types.map (fun type => internal ++ "." ++ type) ++ rest) ∧
    ∀ type ∈ types, emits (internal ++ "." ++ type)

/-- The text of a type, with what is known of the texts of the references in it. -/
inductive Spells (refers : SchemaType → String → Prop) (view : View) : SchemaType → String → Prop where
  | primitive {type : SchemaType} {text : String} (named : primitiveType type.kind = some text) :
      Spells refers view type text
  | list {type element : SchemaType} {text : String} (isList : type.kind = .list)
      (held : type.element = some element) (inner : Spells refers view element text) :
      Spells refers view type ("Sequence[" ++ text ++ "]")
  | reference {type : SchemaType} {text : String} (isReference : type.isReference = true)
      (written : refers type text) : Spells refers view type text
  | anything {type : SchemaType} (erased : type.kind = .anyPointer ∨ type.kind = .parameter) :
      Spells refers view type view.anyPointer

/-- The text of a reference. A node of the file is shown by its class; those of other files are known
by imported names. -/
def ShowsNode (emits : String → Prop) (graph : Graph) (known : Id → Option String) (file : Node)
    (view : View) (type : SchemaType) (text : String) : Prop :=
  graph.file type.target = .ok file → ∃ kind, type.kind.target? = some kind ∧
    Denotes emits known type.target (view.shownTypes kind) (view.shownRest kind) text

/-- The text conveys what it stands for, by types that the stub has. -/
def Conveys (emits : String → Prop) (graph : Graph) (known : Id → Option String) (file : Node) :
    Meaning → String → Prop
  | .type view type, text => ∃ given, type = some given ∧
      Spells (ShowsNode emits graph known file view) view given text
  | .group view body, text => Denotes emits known body.id [view.bodyType] [] text
  | .client id, text => graph.file id = .ok file → Denotes emits known id ["Client"] [] text
  | .server id, text => graph.file id = .ok file → Denotes emits known id ["Server"] [] text

theorem Denotes.imp {emits others : String → Prop} {known : Id → Option String} {id : Id}
    {types rest : List String} {text : String} (denotes : Denotes emits known id types rest text)
    (each : ∀ internal, known id = some internal → ∀ type ∈ types,
      others (internal ++ "." ++ type)) : Denotes others known id types rest text := by
  obtain ⟨present, internal, held, same, _⟩ := denotes
  exact ⟨present, internal, held, same, each internal held⟩

theorem Spells.imp {plan : Plan} {refers others : SchemaType → String → Prop} {view : View}
    {type : SchemaType} {text : String} (writable : Writable plan type)
    (each : ∀ part text kind, part.kind.target? = some kind → plan.Knows part.target kind →
      type.Mentions .field .field part.target → refers part text → others part text)
    (spelled : Spells refers view type text) : Spells others view type text := by
  induction spelled with
  | primitive named => exact .primitive named
  | list isList held inner induction =>
      refine .list isList held (induction (writable.element isList held) ?_)
      exact fun part text kind wanted knows mentioned =>
        each part text kind wanted knows (.element isList held mentioned)
  | reference isReference written =>
      obtain ⟨kind, wanted, knows⟩ := writable.target isReference
      exact .reference isReference (each _ _ kind wanted knows (.target isReference) written)
  | anything erased => exact .anything erased

section Writing

variable {plan : Plan} {asked registry : Registry} {file : Node}

/-- A node of the stub's own file is shown by types behind its identifier. -/
theorem local_type_denotes {id : Id} {internal : String} (held : registry.internal? id = some internal)
    (view : View) {kind : TypeKind} {wanted : NodeKind} (refers : kind.target? = some wanted) :
    Denotes (fun _ => True) registry.internal? id (view.shownTypes wanted) (view.shownRest wanted)
      (view.localType internal kind) := by
  refine ⟨?_, internal, held, ?_, fun _ _ => trivial⟩
  all_goals
    cases kind <;> cases refers <;> cases view <;>
      simp [View.shownTypes, View.shownRest, View.localType, Text.joinWith, String.append_assoc]

theorem group_type_denotes {id : Id} {internal : String} (held : registry.internal? id = some internal)
    (view : View) :
    Denotes (fun _ => True) registry.internal? id [view.bodyType] [] (view.groupType internal) := by
  refine ⟨by simp, internal, held, ?_, fun _ _ => trivial⟩
  cases view <;> simp [View.bodyType, View.groupType, Text.joinWith, String.append_assoc]

/-- The reference to a node of the file leads into the file and has the identifier of the node. -/
theorem Prepared.own_reference (prepared : Prepared plan asked registry) {id : Id}
    {reference : Reference} (known : plan.references.get? id = some reference) :
    registry.internal? id = some reference.internal ∧
      (plan.graph.file id = .ok file → reference.file = file.id) := by
  obtain ⟨_, _, ⟨other, inFile, same⟩, held⟩ := prepared.located id reference known
  refine ⟨held, fun own => ?_⟩
  rw [inFile] at own
  cases own
  exact same

theorem node_type_shows (prepared : Prepared plan asked registry) (view : View) (type : SchemaType)
    {wanted : NodeKind} (refers : type.kind.target? = some wanted) :
    (Draft.nodeType plan view type.kind type.target).Gives (Standing registry file)
      (ShowsNode (fun _ => True) plan.graph registry.internal? file view type) := by
  intro before text after standing returns
  refine ⟨((standing_frame prepared.plan_located registry file).nodeType view _ _).returns returns
    standing, fun own => ⟨wanted, refers, ?_⟩⟩
  unfold Draft.nodeType at returns
  simp only [Step.Returns.bind_iff, Step.Returns.get_iff] at returns
  obtain ⟨_, _, ⟨rfl, rfl⟩, reference, _, looks, returns⟩ := returns
  obtain ⟨held, leads⟩ := prepared.own_reference (reference_to_returns looks)
  rw [if_pos (by rw [leads own, standing.ofFile])] at returns
  simp only [Step.Returns.bind_iff] at returns
  obtain ⟨_, _, _, last⟩ := returns
  obtain ⟨rfl, _⟩ := Step.Returns.pure_iff.mp last
  exact local_type_denotes held view refers

theorem write_spells (prepared : Prepared plan asked registry) (view : View) (type : SchemaType) :
    ((Draft.spelling plan view).write type).Gives (Standing registry file)
      (Spells (ShowsNode (fun _ => True) plan.graph registry.internal? file view) view type) := by
  obtain ⟨kind, element, target, brand, scope, index⟩ := type
  have refers : ∀ {wanted}, kind.target? = some wanted → (Draft.nodeType plan view kind target).Gives
      (Standing registry file) (Spells (ShowsNode (fun _ => True) plan.graph registry.internal? file
        view) view ⟨kind, element, target, brand, scope, index⟩) := by
    intro wanted leads
    refine .imp (node_type_shows prepared view ⟨kind, element, target, brand, scope, index⟩ leads) ?_
    exact fun text shows => .reference (by simp [SchemaType.isReference, leads]) shows
  unfold Spelling.write
  split
  · split
    · rename_i named
      exact .of_pure (.primitive named)
    · exact .of_fail _
  · split
    · split
      · exact .of_fail _
      · rename_i element
        exact .of_bind (write_spells prepared view element) fun text spelled =>
          .of_pure (.list rfl rfl spelled)
    · exact refers rfl
    · exact refers rfl
    · exact refers rfl
    · exact .of_pure (.anything (.inl rfl))
    · exact .of_pure (.anything (.inr rfl))
    · exact .of_fail _

theorem superclass_conveys (prepared : Prepared plan asked registry) (node : Node) (id : Id) :
    (Interface.superclass plan node id).Gives (Standing registry file) fun bases =>
      Conveys (fun _ => True) plan.graph registry.internal? file (.client id) bases.1 ∧
        Conveys (fun _ => True) plan.graph registry.internal? file (.server id) bases.2 := by
  intro before bases after standing returns
  refine ⟨((standing_frame prepared.plan_located registry file).superclass node id).returns returns
    standing, ?_⟩
  unfold Interface.superclass at returns
  simp only [Step.Returns.bind_iff, Step.Returns.get_iff] at returns
  obtain ⟨_, _, ⟨rfl, rfl⟩, reference, _, looks, returns⟩ := returns
  obtain ⟨held, leads⟩ := prepared.own_reference (reference_to_returns looks)
  have shows : plan.graph.file id = .ok file →
      bases = (reference.internal ++ ".Client", reference.internal ++ ".Server") := by
    intro own
    rw [if_pos (by rw [leads own, standing.ofFile])] at returns
    simp only [Step.Returns.bind_iff] at returns
    obtain ⟨_, _, _, last⟩ := returns
    exact (Step.Returns.pure_iff.mp last).1.symm
  constructor
  all_goals
    intro own
    refine ⟨by simp, reference.internal, held, ?_, fun _ _ => trivial⟩
    simp [shows own, Text.joinWith, String.append_assoc]

/-- What is written while a stub is drafted conveys what it stands for, by types in the classes of the
file's nodes. -/
theorem typing_conveys (prepared : Prepared plan asked registry) :
    Typing plan (Standing registry file) (fun node internal => registry.internal? node.id = some internal)
      (Conveys (fun _ => True) plan.graph registry.internal? file) where
  internalOf node := by
    intro before internal after standing returns
    obtain ⟨rfl, known, _⟩ := internal_of_returns returns
    exact ⟨standing, standing.internal? node.id ▸ known⟩
  groupType view node internal held := group_type_denotes held view
  typeText view type := by
    unfold Draft.typeText
    split
    · exact .of_get_bind fun draft _ => .of_fail _
    · rename_i given
      refine .of_bind (write_spells prepared view given) fun text spelled => ?_
      split
      · exact .of_bind (.of_keeps (.of_modify fun _ standing => { standing with })) fun _ _ =>
          .of_pure ⟨given, rfl, spelled⟩
      · exact .of_pure ⟨given, rfl, spelled⟩
  superclass := superclass_conveys prepared

end Writing

end SchemaStubs.Stub
