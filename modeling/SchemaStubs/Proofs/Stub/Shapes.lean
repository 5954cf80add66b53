import SchemaStubs.Proofs.Lists
import SchemaStubs.Proofs.Step
import SchemaStubs.Stub.Generation

/-!
The shapes of what stands inside the class of a node: the views of a struct and its functions for
messages, the protocols, the client and the server of an interface. A shape says everything about
such a part but the texts of its types, which depend on the draft; of each of these it says what is
known of the texts that are written for what it stands for.
-/

namespace SchemaStubs.Stub

/-- What the text of a type stands for: a type of the schema or the body of a named group through a
view, or what a superclass gives to the client and to the server. -/
inductive Meaning where
  | type (view : View) (type : Option SchemaType)
  | group (view : View) (body : Node)
  | client (superclass : Id)
  | server (superclass : Id)

def Member.meaning (view : View) (member : Member) : Meaning :=
  match member.group with
  | none => .type view member.field.type
  | some body => .group view body

/-- While the invariant holds, whatever is written for a node or a type has a property. -/
structure Typing (plan : Plan) (invariant : Draft → Prop) (named : Node → String → Prop)
    (typed : Meaning → String → Prop) : Prop where
  internalOf : ∀ node, (Draft.internalOf node).Gives invariant (named node)
  groupType : ∀ view node internal, named node internal →
    typed (.group view node) (View.groupType internal view)
  typeText : ∀ view type, (Draft.typeText plan view type).Gives invariant (typed (.type view type))
  superclass : ∀ node id, (Interface.superclass plan node id).Gives invariant fun bases =>
    typed (.client id) bases.1 ∧ typed (.server id) bases.2

def Written {α β : Type} (typed : α → String → Prop) (write : α → String → β) (item : α) (part : β) :
    Prop :=
  ∃ type, typed item type ∧ part = write item type

def Omittable (typed : String → Prop) (text : String) : Prop :=
  ∃ type, typed type ∧ (text = type ∨ text = type ++ " | None")

theorem Omittable.imp {typed other : String → Prop} {text : String}
    (each : ∀ type, typed type → other type) (omittable : Omittable typed text) :
    Omittable other text := by
  obtain ⟨type, holds, same⟩ := omittable
  exact ⟨type, each type holds, same⟩

theorem omittable_optional {typed : String → Prop} {type : String} (holds : typed type) :
    Omittable typed (optional type) := by
  refine ⟨type, holds, ?_⟩
  unfold optional
  split
  · exact .inl rfl
  · exact .inr rfl

/-- What holds of the parts that can be written for each item holds of all parts. -/
theorem Written.forall {α β : Type} {typed : α → String → Prop} {write : α → String → β}
    {items : List α} {parts : List β} (written : List.Forall₂ (Written typed write) items parts)
    {property : β → Prop}
    (each : ∀ item ∈ items, ∀ type, typed item type → property (write item type)) :
    ∀ part ∈ parts, property part := by
  induction written with
  | nil => simp
  | cons first _ induction =>
      intro part listed
      rcases List.mem_cons.mp listed with rfl | later
      · obtain ⟨type, holds, rfl⟩ := first
        exact each _ List.mem_cons_self type holds
      · exact induction (fun item member => each item (List.mem_cons_of_mem _ member)) part later

/-- What does not depend on the types is the same for the items and for the parts. -/
theorem Written.map_eq {α β γ : Type} {typed : α → String → Prop} {write : α → String → β}
    {items : List α} {parts : List β} (ofPart : β → γ) (ofItem : α → γ)
    (written : List.Forall₂ (Written typed write) items parts)
    (each : ∀ item ∈ items, ∀ type, ofPart (write item type) = ofItem item) :
    parts.map ofPart = items.map ofItem := by
  induction written with
  | nil => rfl
  | cons first _ induction =>
      obtain ⟨type, _, rfl⟩ := first
      rw [List.map_cons, List.map_cons, each _ List.mem_cons_self type,
        induction fun item member => each item (List.mem_cons_of_mem _ member)]

theorem Written.imp {α β : Type} {typed other : α → String → Prop} {write : α → String → β}
    {items : List α} {parts : List β} (each : ∀ item ∈ items, ∀ type, typed item type → other item type)
    (written : List.Forall₂ (Written typed write) items parts) :
    List.Forall₂ (Written other write) items parts :=
  Lists.forall₂_imp (fun item member _ ⟨type, holds, same⟩ => ⟨type, each item member type holds, same⟩)
    written

theorem Typing.trivial (plan : Plan) :
    Typing plan (fun _ => True) (fun _ _ => True) fun _ _ => True where
  internalOf _ _ _ _ _ _ := ⟨⟨⟩, ⟨⟩⟩
  groupType _ _ _ _ := ⟨⟩
  typeText _ _ _ _ _ _ _ := ⟨⟨⟩, ⟨⟩⟩
  superclass _ _ _ _ _ _ _ := ⟨⟨⟩, ⟨⟩, ⟨⟩⟩

namespace Struct

variable (typed : Meaning → String → Prop) (node : Node) (internal : String) (members : List Member)

def IsDict (view : Declaration) : Prop :=
  ∃ attributes, view = .class "Dict" ["TypedDict", "total=False"] [] attributes ∧
    List.Forall₂ (Written (fun member => typed (member.meaning .dict)) fun member type =>
      .annotated member.name type) members attributes

def IsReader (view : Declaration) : Prop :=
  ∃ properties, view = .class "Reader" ["_DynamicStructReader"] [] (properties ++ which node ++
      [.method { name := "as_builder", returns := internal ++ ".Builder" },
        .method { name := "to_dict", returns := internal ++ ".Dict" }]) ∧
    List.Forall₂ (Written (fun member => typed (member.meaning .reader)) fun member type =>
      .method { name := member.name, returns := type, decorators := ["property"],
                doc := Text.docLines member.field.doc }) members properties

/-- A member that is no group is also assigned to. -/
def AccessedBy (member : Member) (accessors : List Declaration) : Prop :=
  ∃ type assigned, typed (member.meaning .builder) type ∧
    (member.group = none → typed (member.meaning .setter) assigned) ∧
    accessors = .method { name := member.name, returns := type, decorators := ["property"] } ::
      if member.group.isSome then [] else
        [.method { name := member.name, params := [{ name := "value", type := assigned }],
                   returns := "None", decorators := [member.name ++ ".setter"] }]

/-- The initializer of a struct, a group or a list, which may be given a size. -/
def Initializer (member : Member) (signature : Signature) : Prop :=
  ∃ type sizes, typed (member.meaning .builder) type ∧
    (sizes = [] ∨ sizes = [({ name := "size", type := "int" } : Param)]) ∧
    signature = {
      name := "init"
      params := { name := "field", type := literal [member.field.name] } :: sizes
      returns := type }

def AreInitializers (declarations : List Declaration) : Prop :=
  ∃ initial, declarations =
      (Signature.overloads initial fallbackInitializer).map Declaration.method ∧
    ∀ signature ∈ initial, ∃ member ∈ members, Initializer typed member signature

/-- The builder has the accessors of each member and one set of initializers. -/
def IsBuilder (view : Declaration) : Prop :=
  ∃ blocks initial, view = .class "Builder" ["_DynamicStructBuilder"] [] (blocks.flatten ++
      which node ++ initial ++
      [.method { name := "as_reader", returns := internal ++ ".Reader" },
        .method { name := "to_dict", returns := internal ++ ".Dict" }] ++
      if node.isGroup then [] else [.method { name := "to_bytes", returns := "bytes" }]) ∧
    List.Forall₂ (AccessedBy typed) members blocks ∧ AreInitializers typed members initial

def IsNewMessage (message : Declaration) : Prop :=
  ∃ keywords, message = .method {
      name := "new_message"
      params := (if members.isEmpty then [] else [{ name := "*" }]) ++ keywords ++
        [{ name := "**kwargs", type := "Any" }]
      returns := internal ++ ".Builder" } ∧
    List.Forall₂ (Written (fun member => Omittable (typed (member.meaning .setter)))
      fun member type => { name := member.name, type, default := "None" }) members keywords

def AreMakers (declarations : List Declaration) : Prop :=
  ∃ message, IsNewMessage typed internal members message ∧ declarations = [message,
    .method {
      name := "from_bytes"
      params := { name := "buf", type := "bytes" } :: limits
      returns := "AbstractContextManager[" ++ internal ++ ".Reader]" },
    .method {
      name := "read"
      params := { name := "file", type := "BinaryIO" } :: limits
      returns := internal ++ ".Reader" }]

section Imp

variable {typed : Meaning → String → Prop} {node : Node} {internal : String} {members : List Member}
  {other : Meaning → String → Prop}

abbrev Passes (typed other : Meaning → String → Prop) (members : List Member) : Prop :=
  ∀ member ∈ members, ∀ view text, typed (member.meaning view) text → other (member.meaning view) text

theorem IsDict.imp (passes : Passes typed other members) {view : Declaration}
    (isDict : IsDict typed members view) : IsDict other members view := by
  obtain ⟨attributes, rfl, shown⟩ := isDict
  exact ⟨attributes, rfl, Written.imp (fun member listed => passes member listed .dict) shown⟩

theorem IsReader.imp (passes : Passes typed other members) {view : Declaration}
    (isReader : IsReader typed node internal members view) :
    IsReader other node internal members view := by
  obtain ⟨properties, rfl, shown⟩ := isReader
  exact ⟨properties, rfl, Written.imp (fun member listed => passes member listed .reader) shown⟩

theorem IsBuilder.imp (passes : Passes typed other members) {view : Declaration}
    (isBuilder : IsBuilder typed node internal members view) :
    IsBuilder other node internal members view := by
  obtain ⟨blocks, initial, rfl, accessed, declarations, rfl, initialized⟩ := isBuilder
  refine ⟨blocks, _, rfl, Lists.forall₂_imp ?_ accessed, declarations, rfl, ?_⟩
  · rintro member listed block ⟨type, assigned, holds, assigns, same⟩
    exact ⟨type, assigned, passes member listed .builder type holds,
      fun slot => passes member listed .setter assigned (assigns slot), same⟩
  · intro signature inside
    obtain ⟨member, listed, type, sizes, holds, same⟩ := initialized signature inside
    exact ⟨member, listed, type, sizes, passes member listed .builder type holds, same⟩

theorem IsNewMessage.imp (passes : Passes typed other members) {message : Declaration}
    (isMessage : IsNewMessage typed internal members message) :
    IsNewMessage other internal members message := by
  obtain ⟨keywords, rfl, shown⟩ := isMessage
  exact ⟨keywords, rfl, Written.imp
    (fun member listed _ omittable => omittable.imp (passes member listed .setter)) shown⟩

theorem AreMakers.imp (passes : Passes typed other members) {makers : List Declaration}
    (areMakers : AreMakers typed internal members makers) :
    AreMakers other internal members makers := by
  obtain ⟨message, isMessage, rfl⟩ := areMakers
  exact ⟨message, isMessage.imp passes, rfl⟩

end Imp

end Struct

namespace Interface

variable (typed : Meaning → String → Prop) (node : Node) (internal stem : String) (method : Method)

/-- The bases of the client and of the server: those of the superclasses, if there are any. -/
def AreBases (bases : List String × List String) : Prop :=
  (bases = (["_DynamicCapabilityClient"], ["_DynamicCapabilityServer"]) ∧ node.superclasses = []) ∨
    (List.Forall₂ (fun id base => typed (.client id) base) node.superclasses bases.1 ∧
      List.Forall₂ (fun id base => typed (.server id) base) node.superclasses bases.2)

def IsProtocol (name : String) (fields : List Field) (protocol : Declaration) : Prop :=
  ∃ attributes, protocol = .class name ["Protocol"] [] attributes ∧
    List.Forall₂ (Written (fun field => typed (.type .reader field.type)) fun field type =>
      .annotated (safeName field.name) type) fields attributes

def IsClientMethod (declaration : Declaration) : Prop :=
  ∃ params, declaration = .method {
      name := safeName method.name
      params
      returns := "Awaitable[" ++ internal ++ "." ++ stem ++ "Result]"
      doc := Text.docLines method.doc } ∧
    List.Forall₂ (Written (fun field => Omittable (typed (.type .setter field.type)))
      fun field type => { name := safeName field.name, type, default := "None" }) method.params params

/-- What a server method gives back: nothing, the one result if it is there, or all results if they
are there. -/
inductive GivesBack : List String → String → Prop where
  | nothing : GivesBack [] "Awaitable[None]"
  | one {result text : String} (omittable : Omittable (· = result) text) :
      GivesBack [result] ("Awaitable[" ++ text ++ "]")
  | all {results : List String} (several : 1 < results.length) :
      GivesBack results ("Awaitable[tuple[" ++ Text.joinWith ", " results ++ "] | None]")

theorem gives_back_server_result (results : List String) : GivesBack results (serverResult results) := by
  match results with
  | [] => exact .nothing
  | [result] => exact .one (omittable_optional rfl)
  | _ :: _ :: _ => exact .all (by simp)

def AreServerMethods (declarations : List Declaration) : Prop :=
  ∃ params results given, declarations = [
      .method {
        name := safeName method.name
        params := params ++ [{ name := "_context", type := internal ++ "." ++ stem ++ "CallContext" },
          { name := "**kwargs", type := "Any" }]
        returns := given },
      .method {
        name := method.name ++ "_context"
        params := [{ name := "context", type := internal ++ "." ++ stem ++ "CallContext" }]
        returns := "Awaitable[None]" }] ∧
    List.Forall₂ (Written (fun field => typed (.type .reader field.type)) fun field type =>
      { name := safeName field.name, type }) method.params params ∧
    List.Forall₂ (fun field result => typed (.type .setter field.type) result) method.results results ∧
    GivesBack results given

structure IsSurface (method : Method) (surface : Surface) : Prop where
  protocols : ∃ params results, surface.protocols = [params, results,
      .class (Text.pascal method.name ++ "CallContext") ["Protocol"] []
        [.annotated "params" (internal ++ "." ++ Text.pascal method.name ++ "Params"),
          .annotated "results" (internal ++ "." ++ Text.pascal method.name ++ "Result")]] ∧
    IsProtocol typed (Text.pascal method.name ++ "Params") method.params params ∧
    IsProtocol typed (Text.pascal method.name ++ "Result") method.results results
  client : IsClientMethod typed internal (Text.pascal method.name) method surface.client
  server : AreServerMethods typed internal (Text.pascal method.name) method surface.server

section Imp

variable {typed : Meaning → String → Prop} {node : Node} {internal : String} {method : Method}
  {other : Meaning → String → Prop}

theorem AreBases.imp {bases : List String × List String}
    (client : ∀ id ∈ node.superclasses, ∀ text, typed (.client id) text → other (.client id) text)
    (server : ∀ id ∈ node.superclasses, ∀ text, typed (.server id) text → other (.server id) text)
    (areBases : AreBases typed node bases) : AreBases other node bases := by
  rcases areBases with none | ⟨clients, servers⟩
  · exact .inl none
  · exact .inr ⟨Lists.forall₂_imp client clients, Lists.forall₂_imp server servers⟩

theorem IsProtocol.imp {name : String} {fields : List Field} {protocol : Declaration}
    (passes : ∀ field ∈ fields, ∀ text, typed (.type .reader field.type) text →
      other (.type .reader field.type) text)
    (isProtocol : IsProtocol typed name fields protocol) : IsProtocol other name fields protocol := by
  obtain ⟨attributes, rfl, shown⟩ := isProtocol
  exact ⟨attributes, rfl, Written.imp passes shown⟩

theorem IsSurface.imp {surface : Surface}
    (passes : ∀ field ∈ method.params ++ method.results, ∀ view text,
      typed (.type view field.type) text → other (.type view field.type) text)
    (isSurface : IsSurface typed internal method surface) : IsSurface other internal method surface := by
  have params : ∀ field ∈ method.params, ∀ view text,
      typed (.type view field.type) text → other (.type view field.type) text :=
    fun field listed => passes field (List.mem_append_left _ listed)
  have results : ∀ field ∈ method.results, ∀ view text,
      typed (.type view field.type) text → other (.type view field.type) text :=
    fun field listed => passes field (List.mem_append_right _ listed)
  obtain ⟨⟨paramsClass, resultsClass, whole, areParams, areResults⟩, client, server⟩ := isSurface
  refine ⟨⟨paramsClass, resultsClass, whole, areParams.imp fun field listed => params field listed .reader,
    areResults.imp fun field listed => results field listed .reader⟩, ?_, ?_⟩
  · obtain ⟨shown, same, written⟩ := client
    exact ⟨shown, same, Written.imp
      (fun field listed _ omittable => omittable.imp (params field listed .setter)) written⟩
  · obtain ⟨shown, given, text, same, written, gives, returned⟩ := server
    exact ⟨shown, given, text, same, Written.imp (fun field listed => params field listed .reader) written,
      Lists.forall₂_imp (fun field listed => results field listed .setter) gives, returned⟩

end Imp

end Interface

namespace Typing

open Struct Interface

variable {plan : Plan} {invariant : Draft → Prop} {named : Node → String → Prop}
  {typed : Meaning → String → Prop}

/-- One part for each item, each made of a type that was written for it. -/
theorem written {α β : Type} {items : List α} {spell : α → Step Draft String}
    {typed : α → String → Prop} (write : α → String → β)
    (spells : ∀ item, (spell item).Gives invariant (typed item)) :
    (items.mapM fun item => do
      let type ← spell item
      pure (write item type)).Gives invariant (List.Forall₂ (Written typed write) items) := by
  refine .of_mapM fun item _ => .of_bind (spells item) fun type holds => ?_
  exact .of_pure ⟨type, holds, rfl⟩

theorem written_optional {α β : Type} {items : List α} {spell : α → Step Draft String}
    {typed : α → String → Prop} (write : α → String → β)
    (spells : ∀ item, (spell item).Gives invariant (typed item)) :
    (items.mapM fun item => do
      let type ← spell item
      pure (write item (optional type))).Gives invariant
        (List.Forall₂ (Written (fun item => Omittable (typed item)) write) items) := by
  refine .of_mapM fun item _ => .of_bind (spells item) fun type holds => ?_
  exact .of_pure ⟨optional type, omittable_optional holds, rfl⟩

theorem memberType (typing : Typing plan invariant named typed) (view : View) (member : Member) :
    (member.type plan view).Gives invariant (typed (member.meaning view)) := by
  obtain ⟨field, owner, group⟩ := member
  cases group with
  | none => exact typing.typeText view field.type
  | some body =>
      exact .of_bind (typing.internalOf body) fun internal holds =>
        .of_pure (typing.groupType view body internal holds)

theorem dictView (typing : Typing plan invariant named typed) (members : List Member) :
    (Struct.dictView plan members).Gives invariant (IsDict typed members) := by
  refine .of_bind (written _ (typing.memberType .dict)) fun attributes shown => ?_
  exact .of_pure ⟨attributes, rfl, shown⟩

theorem readerView (typing : Typing plan invariant named typed) (node : Node) (internal : String)
    (members : List Member) :
    (Struct.readerView plan node internal members).Gives invariant
      (IsReader typed node internal members) := by
  refine .of_bind (written _ (typing.memberType .reader)) fun properties shown => ?_
  exact .of_pure ⟨properties, rfl, shown⟩

theorem accessors (typing : Typing plan invariant named typed) (member : Member) :
    (Struct.accessors plan member).Gives invariant (AccessedBy typed member) := by
  refine .of_bind (typing.memberType .builder member) fun type holds => ?_
  dsimp only
  split
  · rename_i group
    exact .of_pure ⟨type, type, holds, by simp [group], by simp [group, Signature.property]⟩
  · rename_i slot
    refine .of_bind (typing.memberType .setter member) fun assigned holdsToo => ?_
    exact .of_pure ⟨type, assigned, holds, fun _ => holdsToo,
      by simp [slot, Signature.property, Signature.setter]⟩

theorem initializer (typing : Typing plan invariant named typed) (member : Member) :
    (Struct.initializer plan member).Gives invariant fun initial => initial = [] ∨
      ∃ signature, Initializer typed member signature ∧ initial = [(member.field.name, signature)] := by
  unfold Struct.initializer
  dsimp only
  split
  · refine .of_bind (typing.memberType .builder member) fun type holds => ?_
    exact .of_pure (.inr ⟨_, ⟨type, [], holds, .inl rfl, rfl⟩, rfl⟩)
  · split
    · refine .of_bind (typing.memberType .builder member) fun type holds => ?_
      exact .of_pure (.inr ⟨_, ⟨type, [{ name := "size", type := "int" }], holds, .inr rfl, rfl⟩, rfl⟩)
    · exact .of_pure (.inl rfl)

theorem initializers (typing : Typing plan invariant named typed) (members : List Member) :
    (Struct.initializers plan members).Gives invariant (AreInitializers typed members) := by
  refine .of_bind (.of_mapM fun member _ => typing.initializer member) fun blocks made => ?_
  refine .of_pure ⟨_, rfl, fun signature listed => ?_⟩
  obtain ⟨⟨name, _⟩, inOrder, rfl⟩ := List.mem_map.mp listed
  obtain ⟨block, inBlocks, inBlock⟩ := List.mem_flatten.mp (Lists.mem_sort_by.mp inOrder)
  obtain ⟨member, isMember, initialized⟩ := Lists.exists_of_mem_left made.flip inBlocks
  refine ⟨member, isMember, ?_⟩
  rcases initialized with rfl | ⟨signature, isInitializer, rfl⟩
  · cases inBlock
  · cases List.mem_singleton.mp inBlock
    exact isInitializer

theorem builderView (typing : Typing plan invariant named typed) (node : Node) (internal : String)
    (members : List Member) :
    (Struct.builderView plan node internal members).Gives invariant
      (IsBuilder typed node internal members) := by
  refine .of_bind (.of_mapM fun member _ => typing.accessors member) fun blocks accessed => ?_
  refine .of_bind (typing.initializers members) fun initial areInitializers => ?_
  exact .of_pure ⟨blocks, initial, rfl, accessed, areInitializers⟩

theorem newMessage (typing : Typing plan invariant named typed) (internal : String)
    (members : List Member) :
    (Struct.newMessage plan internal members).Gives invariant
      (IsNewMessage typed internal members) := by
  let write (member : Member) (type : String) : Param :=
    { name := member.name, type, default := "None" }
  refine .of_bind (written_optional write (typing.memberType .setter)) fun keywords shown => ?_
  exact .of_pure ⟨keywords, rfl, shown⟩

theorem views (typing : Typing plan invariant named typed) (node : Node) (internal : String)
    (members : List Member) :
    (Struct.views plan node internal members).Gives invariant fun views =>
      ∃ dict reader builder, views = [dict, reader, builder] ∧ IsDict typed members dict ∧
        IsReader typed node internal members reader ∧ IsBuilder typed node internal members builder := by
  refine .of_bind (typing.dictView members) fun dict isDict => ?_
  refine .of_bind (typing.readerView node internal members) fun reader isReader => ?_
  refine .of_bind (typing.builderView node internal members) fun builder isBuilder => ?_
  exact .of_pure ⟨dict, reader, builder, rfl, isDict, isReader, isBuilder⟩

theorem bases (typing : Typing plan invariant named typed) (node : Node) :
    (Interface.bases plan node).Gives invariant (AreBases typed node) := by
  unfold Interface.bases
  split
  · rename_i none
    exact .of_pure (.inl ⟨rfl, List.isEmpty_iff.mp none⟩)
  · refine .of_bind (.of_mapM fun id _ => typing.superclass node id) fun pairs hold => .of_pure (.inr ?_)
    constructor
    · exact List.forall₂_map_right_iff.mpr (List.Forall₂.imp (fun _ _ typed => typed.1) hold)
    · exact List.forall₂_map_right_iff.mpr (List.Forall₂.imp (fun _ _ typed => typed.2) hold)

theorem protocol (typing : Typing plan invariant named typed) (name : String) (fields : List Field) :
    (Interface.protocol plan name fields).Gives invariant (IsProtocol typed name fields) := by
  refine .of_bind (written _ fun field => typing.typeText .reader field.type) fun attributes shown => ?_
  exact .of_pure ⟨attributes, rfl, shown⟩

theorem protocols (typing : Typing plan invariant named typed) (internal : String) (method : Method) :
    (Interface.protocols plan internal (Text.pascal method.name) method).Gives invariant
      fun protocols => ∃ params results, protocols = [params, results,
          .class (Text.pascal method.name ++ "CallContext") ["Protocol"] []
            [.annotated "params" (internal ++ "." ++ Text.pascal method.name ++ "Params"),
              .annotated "results" (internal ++ "." ++ Text.pascal method.name ++ "Result")]] ∧
        IsProtocol typed (Text.pascal method.name ++ "Params") method.params params ∧
        IsProtocol typed (Text.pascal method.name ++ "Result") method.results results := by
  refine .of_bind (typing.protocol _ method.params) fun params areParams => ?_
  refine .of_bind (typing.protocol _ method.results) fun results areResults => ?_
  exact .of_pure ⟨params, results, rfl, areParams, areResults⟩

theorem clientMethod (typing : Typing plan invariant named typed) (internal stem : String)
    (method : Method) :
    (Interface.clientMethod plan internal stem method).Gives invariant
      (IsClientMethod typed internal stem method) := by
  let write (field : Field) (type : String) : Param :=
    { name := safeName field.name, type, default := "None" }
  refine .of_bind (written_optional write fun field => typing.typeText .setter field.type)
    fun params shown => ?_
  exact .of_pure ⟨params, rfl, shown⟩

theorem serverMethods (typing : Typing plan invariant named typed) (internal stem : String)
    (method : Method) :
    (Interface.serverMethods plan internal stem method).Gives invariant
      (AreServerMethods typed internal stem method) := by
  refine .of_bind (written _ fun field => typing.typeText .reader field.type) fun params shown => ?_
  refine .of_bind (.of_mapM fun field _ => typing.typeText .setter field.type) fun results hold => ?_
  exact .of_pure ⟨params, results, _, rfl, shown, hold, gives_back_server_result results⟩

theorem surface (typing : Typing plan invariant named typed) (internal : String) (method : Method) :
    (Interface.surface plan internal method).Gives invariant (IsSurface typed internal method) := by
  have protocols := typing.protocols internal method
  refine .of_bind protocols fun _ made => ?_
  refine .of_bind (typing.clientMethod internal _ method) fun client isClient => ?_
  refine .of_bind (typing.serverMethods internal _ method) fun server areServer => ?_
  exact .of_pure ⟨made, isClient, areServer⟩

theorem surfaces (typing : Typing plan invariant named typed) (node : Node) (internal : String)
    (stems : List String) (methods : List Method) :
    (Interface.surfaces plan node internal stems methods).Gives invariant fun surfaces =>
      List.Forall₂ (IsSurface typed internal) methods surfaces ∧
        (methods.map fun method => Text.pascal method.name).Nodup ∧
        ∀ method ∈ methods, Text.pascal method.name ∉ stems := by
  induction methods generalizing stems with
  | nil => exact .of_pure ⟨.nil, by simp⟩
  | cons method rest induction =>
      unfold Interface.surfaces
      dsimp only
      split
      · exact .of_fail _
      · rename_i new
        refine .of_bind (typing.surface internal method) fun first isFirst => ?_
        refine .of_bind (induction _) fun others ⟨areOthers, distinct, apart⟩ => ?_
        refine .of_pure ⟨.cons isFirst areOthers, ?_, ?_⟩
        · rw [List.map_cons, List.nodup_cons]
          refine ⟨fun again => ?_, distinct⟩
          obtain ⟨other, listed, same⟩ := List.mem_map.mp again
          exact apart other listed (same ▸ List.mem_cons_self)
        · intro other listed
          rcases List.mem_cons.mp listed with rfl | later
          · exact new
          · exact fun earlier => apart other later (List.mem_cons_of_mem _ earlier)

end Typing

end SchemaStubs.Stub
