import SchemaStubs.Proofs.Stub.Flattening
import SchemaStubs.Proofs.Stub.Shapes
import SchemaStubs.Proofs.Stub.Unmarked

/-!
Declarations that are read alike by the scan for imports and by the rules of the language. A
declaration is legible when its names, its types and its docstring are, and so are the classes of a
legible schema, whatever types are written in them.
-/

namespace SchemaStubs

theorem Graph.Legible.member {graph : Graph} (legible : graph.Legible) {bound : Nat} {node : Node}
    {members : List Stub.Member} (flattened : Stub.Member.ofNodeFrom graph bound node = .ok members)
    (inGraph : node ∈ graph.nodes) {member : Stub.Member} (listed : member ∈ members) :
    Stub.Unmarked member.field.name ∧ Stub.Quotable member.field.doc ∧
      ∀ body, member.group = some body → body ∈ graph.nodes := by
  obtain ⟨isOwner, isField, isBody⟩ := Stub.mem_of_node_from flattened inGraph listed
  exact ⟨legible.fields _ isOwner _ isField, legible.fieldDocs _ isOwner _ isField,
    fun body isGroup => Graph.mem_of_node? (isBody body isGroup).2⟩

namespace Stub

/-- A declaration whose lines are readable at every level, under a name that can stand in code. -/
structure Declaration.Legible (declaration : Declaration) : Prop where
  lines : ∀ level, ReadableLines (declaration.lines level)
  name : Unmarked declaration.name

theorem readable_comma : Readable ", " :=
  .of_unmarked (by decide)

theorem Readable.omittable {text : String} (omittable : Omittable Readable text) : Readable text := by
  obtain ⟨type, readable, rfl | rfl⟩ := omittable
  · exact readable
  · exact readable.append (.of_unmarked (by decide))

structure Param.Legible (param : Param) : Prop where
  name : Readable param.name
  type : Readable param.type
  default : Readable param.default

structure Signature.Legible (signature : Signature) : Prop where
  name : Unmarked signature.name
  params : ∀ param ∈ signature.params, param.Legible
  returns : Readable signature.returns
  decorators : ∀ decorator ∈ signature.decorators, Readable decorator
  doc : ∀ line ∈ signature.doc, Text.contains docQuotes (escapeDoc line) = false

theorem Param.Legible.text {param : Param} (legible : param.Legible) : Readable param.text := by
  unfold Param.text
  split
  · exact legible.name
  · refine ((legible.name.append (.of_unmarked (by decide))).append legible.type).append ?_
    split
    · exact .of_unmarked (by decide)
    · exact Readable.append (.of_unmarked (by decide)) legible.default

theorem Param.Legible.fixed {param : Param}
    (plain : Unmarked param.name ∧ Unmarked param.type ∧ Unmarked param.default) : param.Legible :=
  ⟨.of_unmarked plain.1, .of_unmarked plain.2.1, .of_unmarked plain.2.2⟩

theorem Param.Legible.omittable {name type : String} (plain : Unmarked name)
    (omittable : Omittable Readable type) :
    Param.Legible { name, type, default := "None" } := by
  have none : Unmarked "None" := by decide
  exact ⟨.of_unmarked plain, .omittable omittable, .of_unmarked none⟩

theorem Param.Legible.plain {name type : String} (plain : Unmarked name) (readable : Readable type) :
    Param.Legible { name, type } :=
  ⟨.of_unmarked plain, readable, Agrees.nil⟩

theorem Signature.Legible.lines {signature : Signature} (legible : signature.Legible) (level : Nat) :
    ReadableLines (signature.lines level) := by
  have params : ∀ text ∈ "self" :: signature.params.map Param.text, Readable text := by
    intro text listed
    rcases List.mem_cons.mp listed with rfl | later
    · exact .of_unmarked (by decide)
    · obtain ⟨param, inside, rfl⟩ := List.mem_map.mp later
      exact (legible.params param inside).text
  have head : Readable signature.head := by
    unfold Signature.head
    have opening : Readable ("def " ++ signature.name ++ "(") :=
      .of_unmarked ((Unmarked.append (by decide) legible.name).append (by decide))
    have listed := Readable.joinWith readable_comma params
    exact (((opening.append listed).append (.of_unmarked (by decide))).append
      legible.returns).append (.of_unmarked (by decide))
  unfold Signature.lines
  refine .append ?_ ?_
  · exact .map fun decorator listed =>
      Readable.append (.of_unmarked (by decide)) (legible.decorators decorator listed)
  · split
    · exact .line (head.append (.of_unmarked (by decide)))
    · exact (ReadableLines.line head).append (.docstring legible.doc)

namespace Signature.Legible

variable {name type returns : String}

theorem bare (plain : Unmarked name) (readable : Readable returns) :
    Signature.Legible { name, returns } :=
  ⟨plain, by simp, readable, by simp, by simp⟩

theorem property {doc : List String} (plain : Unmarked name) (readable : Readable type)
    (whole : ∀ line ∈ doc, Text.contains docQuotes (escapeDoc line) = false) :
    (Signature.property name type doc).Legible where
  name := plain
  params := by simp [Signature.property]
  returns := readable
  decorators := by
    simp only [Signature.property, List.mem_singleton, forall_eq]
    exact .of_unmarked (by decide)
  doc := whole

theorem setter (plain : Unmarked name) (readable : Readable type) :
    (Signature.setter name type).Legible where
  name := plain
  params := by
    simp only [Signature.setter, List.mem_singleton, forall_eq]
    exact .plain (by decide) readable
  returns := by
    have none : Unmarked "None" := by decide
    exact .of_unmarked none
  decorators := by
    simp only [Signature.setter, List.mem_singleton, forall_eq]
    exact .of_unmarked (plain.append (by decide))
  doc := by simp [Signature.setter]

theorem overloads {typed : List Signature} {fallback : Signature}
    (each : ∀ signature ∈ typed, signature.Legible) (last : fallback.Legible) :
    ∀ signature ∈ Signature.overloads typed fallback, signature.Legible := by
  have overloaded : ∀ signature : Signature, signature.Legible → signature.overloaded.Legible := by
    intro signature legible
    refine { legible with decorators := fun decorator listed => ?_ }
    rcases List.mem_cons.mp listed with rfl | later
    · exact .of_unmarked (by decide)
    · exact legible.decorators decorator later
  unfold Signature.overloads
  split
  · simpa using last
  · intro signature listed
    obtain ⟨original, inside, rfl⟩ := List.mem_map.mp listed
    rcases List.mem_append.mp inside with isTyped | isLast
    · exact overloaded original (each original isTyped)
    · cases List.mem_singleton.mp isLast
      exact overloaded fallback last

end Signature.Legible

namespace Declaration.Legible

variable {name type : String}

theorem method {signature : Signature} (legible : signature.Legible) :
    (Declaration.method signature).Legible :=
  ⟨legible.lines, legible.name⟩

theorem annotated (plain : Unmarked name) (readable : Readable type) :
    (Declaration.annotated name type).Legible :=
  ⟨fun _ => .line (((Readable.of_unmarked plain).append (.of_unmarked (by decide))).append readable),
    plain⟩

theorem typeAlias (plain : Unmarked name) (readable : Readable type) :
    (Declaration.typeAlias name type).Legible :=
  ⟨fun _ => .line (((Readable.of_unmarked plain).append (.of_unmarked (by decide))).append readable),
    plain⟩

theorem bodyLines {body : List Declaration} (legible : ∀ declaration ∈ body, declaration.Legible)
    (level : Nat) : ReadableLines (Declaration.bodyLines level body) := by
  induction body with
  | nil => exact Agrees.nil
  | cons declaration rest induction =>
      rw [Declaration.bodyLines]
      refine ((legible declaration List.mem_cons_self).lines level).append (induction ?_)
      exact fun other member => legible other (List.mem_cons_of_mem _ member)

theorem «class» {bases doc : List String} {body : List Declaration} (plain : Unmarked name)
    (readable : ∀ base ∈ bases, Readable base)
    (whole : ∀ line ∈ doc, Text.contains docQuotes (escapeDoc line) = false)
    (legible : ∀ declaration ∈ body, declaration.Legible) :
    (Declaration.class name bases doc body).Legible := by
  have head : Readable (Declaration.classHead name bases) := by
    unfold Declaration.classHead
    refine .append (.of_unmarked (Unmarked.append (by decide) plain)) ?_
    split
    · exact .of_unmarked (by decide)
    · have listed := Readable.joinWith readable_comma readable
      exact (Readable.append (.of_unmarked (by decide)) listed).append (.of_unmarked (by decide))
  refine ⟨fun level => ?_, plain⟩
  rw [Declaration.lines]
  split
  · exact .line (head.append (.of_unmarked (by decide)))
  · refine (ReadableLines.line (head.append (.of_unmarked (by decide)))).append ?_
    exact (ReadableLines.docstring whole).append (bodyLines legible _)

end Declaration.Legible

section Shapes

open Declaration Struct Interface

variable {node : Node} {internal : String} {members : List Member}

theorem readable_literal {values : List String} (plain : ∀ value ∈ values, Unmarked value) :
    Readable (literal values) := by
  refine .literal fun value listed c member => ?_
  have unmarked := plain value listed c member
  simp only [marks, List.mem_cons, List.not_mem_nil, or_false, not_or] at unmarked
  simp [isLineEnd, unmarked]

theorem Struct.IsDict.legible {view : Declaration} (shape : IsDict (fun _ => Readable) members view)
    (plain : ∀ member ∈ members, Unmarked member.field.name) : view.Legible := by
  obtain ⟨attributes, rfl, shown⟩ := shape
  refine .class (by decide) ?_ (by simp) (Written.forall shown fun member listed type readable => ?_)
  · have fixed : ∀ base ∈ ["TypedDict", "total=False"], Unmarked base := by decide
    exact fun base listed => .of_unmarked (fixed base listed)
  · exact .annotated (.safeName (plain member listed)) readable

theorem legible_which (plain : ∀ field ∈ node.fields, Unmarked field.name) :
    ∀ declaration ∈ which node, declaration.Legible := by
  unfold which
  split
  · intro declaration listed
    cases List.mem_singleton.mp listed
    refine .method (.bare (by decide) (readable_literal fun value shown => ?_))
    obtain ⟨field, inUnion, rfl⟩ := List.mem_map.mp shown
    obtain ⟨index, _, rfl⟩ := List.mem_map.mp inUnion
    rcases found : node.unionField? (index + 1) with _ | field
    · decide
    · exact plain field (List.mem_reverse.mp (List.mem_of_find?_eq_some found))
  · simp

theorem legible_other {name view : String} (plain : Unmarked internal) (named : Unmarked name)
    (viewed : Unmarked view) :
    (Declaration.method { name, returns := internal ++ view }).Legible :=
  .method (.bare named (.of_unmarked (plain.append viewed)))

theorem Struct.IsReader.legible {view : Declaration}
    (shape : IsReader (fun _ => Readable) node internal members view)
    (plain : ∀ member ∈ members, Unmarked member.field.name ∧ Quotable member.field.doc)
    (fields : ∀ field ∈ node.fields, Unmarked field.name) (named : Unmarked internal) :
    view.Legible := by
  obtain ⟨properties, rfl, shown⟩ := shape
  refine .class (by decide) ?_ (by simp) ?_
  · simp only [List.mem_singleton, forall_eq]
    exact .of_unmarked (by decide)
  · simp only [List.forall_mem_append, List.forall_mem_cons, List.not_mem_nil, false_imp_iff,
      implies_true, and_true]
    refine ⟨⟨?_, legible_which fields⟩, legible_other named (by decide) (by decide),
      legible_other named (by decide) (by decide)⟩
    refine Written.forall shown fun member listed type readable => ?_
    obtain ⟨unmarked, quotable⟩ := plain member listed
    exact .method (.property (.safeName unmarked) readable quotable)

theorem legible_initial {declarations : List Declaration}
    (shape : AreInitializers (fun _ => Readable) members declarations)
    (plain : ∀ member ∈ members, Unmarked member.field.name) :
    ∀ declaration ∈ declarations, declaration.Legible := by
  obtain ⟨initial, rfl, made⟩ := shape
  intro declaration listed
  obtain ⟨signature, inside, rfl⟩ := List.mem_map.mp listed
  refine .method (.overloads ?_ ?_ signature inside)
  · intro signature typed
    obtain ⟨member, isMember, type, sizes, readable, sized, rfl⟩ := made signature typed
    have selector : Readable (literal [member.field.name]) := by
      refine readable_literal fun value listed => ?_
      cases List.mem_singleton.mp listed
      exact plain member isMember
    refine ⟨(by decide : Unmarked "init"), ?_, readable, by simp, by simp⟩
    intro param listed
    rcases List.mem_cons.mp listed with rfl | later
    · exact .plain (by decide) selector
    · rcases sized with rfl | rfl
      · cases later
      · cases List.mem_singleton.mp later
        exact .fixed (by decide)
  · have fixed : ∀ param ∈ fallbackInitializer.params,
        Unmarked param.name ∧ Unmarked param.type ∧ Unmarked param.default := by decide
    have any : Unmarked fallbackInitializer.returns := by decide
    exact ⟨by decide, fun param listed => .fixed (fixed param listed), .of_unmarked any,
      by simp [fallbackInitializer], by simp [fallbackInitializer]⟩

theorem legible_accessors {member : Member} {declarations : List Declaration}
    (shape : AccessedBy (fun _ => Readable) member declarations) (plain : Unmarked member.field.name) :
    ∀ declaration ∈ declarations, declaration.Legible := by
  obtain ⟨type, assigned, readable, assignable, rfl⟩ := shape
  intro declaration listed
  rcases List.mem_cons.mp listed with rfl | later
  · exact .method (.property (.safeName plain) readable (by simp))
  · split at later
    · cases later
    · rename_i slot
      cases List.mem_singleton.mp later
      exact .method (.setter (.safeName plain) (assignable (by simpa using slot)))

theorem Struct.IsBuilder.legible {view : Declaration}
    (shape : IsBuilder (fun _ => Readable) node internal members view)
    (plain : ∀ member ∈ members, Unmarked member.field.name)
    (fields : ∀ field ∈ node.fields, Unmarked field.name) (named : Unmarked internal) :
    view.Legible := by
  obtain ⟨blocks, initial, rfl, accessed, made⟩ := shape
  refine .class (by decide) ?_ (by simp) ?_
  · simp only [List.mem_singleton, forall_eq]
    exact .of_unmarked (by decide)
  · simp only [List.forall_mem_append, List.forall_mem_cons, List.not_mem_nil, false_imp_iff,
      implies_true, and_true]
    refine ⟨⟨⟨⟨?_, legible_which fields⟩, legible_initial made plain⟩,
      legible_other named (by decide) (by decide), legible_other named (by decide) (by decide)⟩, ?_⟩
    · intro declaration listed
      obtain ⟨block, inBlocks, inBlock⟩ := List.mem_flatten.mp listed
      obtain ⟨member, isMember, accesses⟩ := Lists.exists_of_mem_left accessed.flip inBlocks
      exact legible_accessors accesses (plain member isMember) declaration inBlock
    · split
      · simp
      · simp only [List.mem_singleton, forall_eq]
        have bytes : Unmarked "bytes" := by decide
        exact .method (.bare (by decide) (.of_unmarked bytes))

theorem Struct.IsNewMessage.legible {message : Declaration}
    (shape : IsNewMessage (fun _ => Readable) internal members message)
    (plain : ∀ member ∈ members, Unmarked member.field.name) (named : Unmarked internal) :
    message.Legible := by
  obtain ⟨keywords, rfl, shown⟩ := shape
  refine .method ⟨(by decide : Unmarked "new_message"), ?_, .of_unmarked (named.append (by decide)),
    by simp, by simp⟩
  simp only [List.forall_mem_append, List.mem_singleton, forall_eq]
  refine ⟨⟨?_, Written.forall shown fun member listed type readable => ?_⟩, .fixed (by decide)⟩
  · split
    · simp
    · simp only [List.mem_singleton, forall_eq]
      exact .fixed (by decide)
  · exact .omittable (.safeName (plain member listed)) readable

theorem legible_reading {declaration : Declaration} (named : Unmarked internal)
    (listed : declaration ∈ [fromBytes internal, readFile internal]) : declaration.Legible := by
  have bounds : ∀ param ∈ limits,
      Unmarked param.name ∧ Unmarked param.type ∧ Unmarked param.default := by decide
  have params : ∀ first : Param, first.Legible → ∀ param ∈ first :: limits, param.Legible := by
    intro first legible param inside
    rcases List.mem_cons.mp inside with rfl | later
    · exact legible
    · exact .fixed (bounds param later)
  simp only [List.mem_cons, List.not_mem_nil, or_false] at listed
  rcases listed with rfl | rfl
  · refine .method ⟨(by decide : Unmarked "from_bytes"), params _ (.fixed (by decide)), ?_, by simp, by simp⟩
    exact .of_unmarked ((Unmarked.append (by decide) named).append (by decide))
  · refine .method ⟨(by decide : Unmarked "read"), params _ (.fixed (by decide)), ?_, by simp, by simp⟩
    exact .of_unmarked (named.append (by decide))

variable {stem : String} {method : Method}

theorem Interface.IsProtocol.legible {name : String} {fields : List Field} {protocol : Declaration}
    (shape : IsProtocol (fun _ => Readable) name fields protocol) (plain : Unmarked name)
    (fieldsPlain : ∀ field ∈ fields, Unmarked field.name) : protocol.Legible := by
  obtain ⟨attributes, rfl, shown⟩ := shape
  refine .class plain ?_ (by simp) (Written.forall shown fun field listed type readable => ?_)
  · simp only [List.mem_singleton, forall_eq]
    exact .of_unmarked (by decide)
  · exact .annotated (.safeName (fieldsPlain field listed)) readable

theorem Interface.IsClientMethod.legible {declaration : Declaration}
    (shape : IsClientMethod (fun _ => Readable) internal stem method declaration)
    (plain : Unmarked method.name)
    (params : ∀ field ∈ method.params, Unmarked field.name) (quotable : Quotable method.doc)
    (named : Unmarked internal) (stemmed : Unmarked stem) : declaration.Legible := by
  obtain ⟨shownParams, rfl, shown⟩ := shape
  refine .method ⟨plain.safeName, ?_, ?_, by simp, quotable⟩
  · exact Written.forall shown fun field listed type readable =>
      .omittable (.safeName (params field listed)) readable
  · have shape : Unmarked ("Awaitable[" ++ internal ++ "." ++ stem ++ "Result]") :=
      .append (.append (.append (.append (by decide) named) (by decide)) stemmed) (by decide)
    exact .of_unmarked shape

theorem Interface.GivesBack.readable {results : List String} {text : String}
    (gives : GivesBack results text) (each : ∀ result ∈ results, Readable result) : Readable text := by
  cases gives with
  | nothing => exact .of_unmarked (by decide)
  | @one result _ omittable =>
      have one := Readable.omittable (omittable.imp fun type same => by
        rw [same]
        exact each result List.mem_cons_self)
      exact .append (.append (.of_unmarked (by decide)) one) (.of_unmarked (by decide))
  | all _ =>
      have all := Readable.joinWith readable_comma each
      exact .append (.append (.of_unmarked (by decide)) all) (.of_unmarked (by decide))

theorem Interface.AreServerMethods.legible {declarations : List Declaration}
    (shape : AreServerMethods (fun _ => Readable) internal stem method declarations)
    (plain : Unmarked method.name) (paramsPlain : ∀ field ∈ method.params, Unmarked field.name)
    (named : Unmarked internal) (stemmed : Unmarked stem) :
    ∀ declaration ∈ declarations, declaration.Legible := by
  obtain ⟨params, results, given, rfl, shown, hold, gives⟩ := shape
  have readable : Readable given := gives.readable fun result listed => by
    obtain ⟨_, _, readable⟩ := Lists.exists_of_mem_left hold.flip listed
    exact readable
  have context : Unmarked (internal ++ "." ++ stem ++ "CallContext") :=
    ((named.append (by decide)).append stemmed).append (by decide)
  simp only [List.forall_mem_cons, List.not_mem_nil, false_imp_iff, implies_true, and_true]
  constructor
  · refine .method ⟨plain.safeName, ?_, readable, by simp, by simp⟩
    simp only [List.forall_mem_append, List.forall_mem_cons, List.not_mem_nil, false_imp_iff,
      implies_true, and_true]
    refine ⟨Written.forall shown fun field listed type holds => ?_, ?_, .fixed (by decide)⟩
    · exact .plain (.safeName (paramsPlain field listed)) holds
    · exact .plain (by decide) (.of_unmarked context)
  · refine .method ⟨plain.append (by decide), ?_, ?_, by simp, by simp⟩
    · simp only [List.mem_singleton, forall_eq]
      exact .plain (by decide) (.of_unmarked context)
    · have nothing : Unmarked "Awaitable[None]" := by decide
      exact .of_unmarked nothing

/-- The names of a method can stand in the code, and its doc in a docstring. -/
structure MethodLegible (method : Method) : Prop where
  name : Unmarked method.name
  params : ∀ field ∈ method.params, Unmarked field.name
  results : ∀ field ∈ method.results, Unmarked field.name
  doc : Quotable method.doc

theorem Interface.IsSurface.legible {surface : Surface}
    (shape : IsSurface (fun _ => Readable) internal method surface)
    (legible : MethodLegible method) (named : Unmarked internal) :
    (∀ declaration ∈ surface.protocols, declaration.Legible) ∧ surface.client.Legible ∧
      ∀ declaration ∈ surface.server, declaration.Legible := by
  obtain ⟨⟨params, results, whole, areParams, areResults⟩, client, server⟩ := shape
  have stemmed := legible.name.pascal
  have behind : ∀ ending, Unmarked ending →
      Unmarked (internal ++ "." ++ Text.pascal method.name ++ ending) :=
    fun _ => ((named.append (by decide)).append stemmed).append
  refine ⟨?_, client.legible legible.name legible.params legible.doc named stemmed,
    server.legible legible.name legible.params named stemmed⟩
  rw [whole]
  simp only [List.forall_mem_cons, List.not_mem_nil, false_imp_iff, implies_true, and_true]
  refine ⟨areParams.legible (stemmed.append (by decide)) legible.params,
    areResults.legible (stemmed.append (by decide)) legible.results, ?_⟩
  refine .class (stemmed.append (by decide)) ?_ (by simp) ?_
  · simp only [List.mem_singleton, forall_eq]
    exact .of_unmarked (by decide)
  · simp only [List.forall_mem_cons, List.not_mem_nil, false_imp_iff, implies_true, and_true]
    exact ⟨.annotated (by decide) (.of_unmarked (behind _ (by decide))),
      .annotated (by decide) (.of_unmarked (behind _ (by decide)))⟩

end Shapes

end Stub

end SchemaStubs
