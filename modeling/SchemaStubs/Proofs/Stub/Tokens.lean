import SchemaStubs.Proofs.Stub.Legible
import SchemaStubs.Proofs.Stub.Rehearsal

/-!
The names that a stub uses are those the rules of its language find. While a stub of a legible schema
is drafted, all identifiers, aliases and types that are written can be read, so its body is read the
same by the scan for imports, and every name of the standard library or of the runtime that stands in
the body outside strings and comments is imported once.
-/

namespace SchemaStubs.Stub

open Generation

structure Naming (registry : Registry) (file : Node) (draft : Draft) : Prop extends
    Standing registry file draft where
  locals : ∀ subject names, draft.locals.get? subject = some names →
    ∀ entry ∈ names, Unmarked entry.2

structure Wearable (plan : Plan) (registry : Registry) : Prop where
  identifiers : ∀ id internal, registry.internal? id = some internal → Unmarked internal
  aliases : ∀ entry ∈ registry.aliases, Unmarked entry.name
  references : ∀ target reference, plan.references.get? target = some reference →
    Unmarked reference.internal

theorem Prepared.wearable {plan : Plan} {asked registry : Registry}
    (prepared : Prepared plan asked registry) (legible : plan.graph.Legible) :
    Wearable plan registry := by
  have identifiers : ∀ id internal, registry.internal? id = some internal → Unmarked internal := by
    intro id internal held
    obtain ⟨node, found, identified⟩ := prepared.canonical id internal held
    exact legible.identifier identified (Graph.mem_of_node? found)
  refine ⟨identifiers, fun entry member => (prepared.unmarked_alias legible member).1, ?_⟩
  intro target reference known
  obtain ⟨_, _, _, held⟩ := prepared.located target reference known
  exact identifiers target _ held

section Drafting

variable {plan : Plan} {registry : Registry} {file : Node}

theorem unmarked_qualified {taken : List String} {name : String} {aliases : List (Role × String)}
    (plain : ∀ entry ∈ aliases, Unmarked entry.2) :
    ∀ entry ∈ Draft.qualified (Draft.freeQualifier taken name aliases) aliases, Unmarked entry.2 := by
  intro entry listed
  obtain ⟨original, inside, rfl⟩ := List.mem_map.mp listed
  exact (unmarked_free_qualifier taken name aliases).append (plain original inside)

theorem Wearable.aliasesOf (wearable : Wearable plan registry) {draft : Draft}
    (standing : Standing registry file draft) (subject : Subject) :
    ∀ entry ∈ draft.registry.aliasesOf subject, Unmarked entry.2 := by
  intro entry listed
  obtain ⟨assigned, inside, rfl⟩ := List.mem_map.mp listed
  exact wearable.aliases assigned (standing.aliases ▸ List.mem_of_mem_filter inside)

theorem naming_frame (located : plan.Located) (wearable : Wearable plan registry) :
    Frame plan (Naming registry file) where
  targets target reference known := (located target reference known).1
  markReferenced _ _ naming := { naming with }
  anyPointer _ naming := { naming with }
  importAliases _ _ _ roles _ _ _ _ := by
    refine import_aliases_keeps (fun _ naming => naming.resolved) ?_
      (fun _ _ _ _ naming _ _ => { naming with }) roles _
    intro draft aliases naming same
    refine { naming with locals := fun subject names known => ?_ }
    rw [Table.get?_set] at known
    split at known
    · cases known
      subst same
      exact unmarked_qualified (wearable.aliasesOf naming.toStanding _)
    · exact naming.locals subject names known
  note _ _ naming := { naming with }
  markDeclared _ _ naming := { naming with }
  bind _ _ := bind_keeps fun _ _ _ naming => { naming with }
  getAlias := get_alias_keeps fun _ naming => naming.resolved

theorem locals_of_gives (subject : Subject) (name : String) {aliases : List (Role × String)}
    (plain : ∀ entry ∈ aliases, Unmarked entry.2) :
    (Draft.localsOf subject name aliases).Gives (Naming registry file) fun names =>
      ∀ entry ∈ names, Unmarked entry.2 := by
  unfold Draft.localsOf
  refine .of_get_bind fun draft naming => ?_
  split
  · rename_i names known
    exact .of_pure (naming.locals subject names known)
  · intro before names after _ returns
    simp only [Step.Returns.bind_iff, Step.Returns.set_iff, Step.Returns.pure_iff] at returns
    obtain ⟨_, _, rfl, rfl, rfl⟩ := returns
    refine ⟨{ naming with locals := fun other names known => ?_ }, unmarked_qualified plain⟩
    rw [Table.get?_set] at known
    split at known
    · cases known
      exact unmarked_qualified plain
    · exact naming.locals other names known

theorem import_alias_gives (declaring : Node) (subject : Subject)
    {aliases names : List (Role × String)} (aliasesPlain : ∀ entry ∈ aliases, Unmarked entry.2)
    (namesPlain : ∀ entry ∈ names, Unmarked entry.2) (role : Role) :
    (Draft.importAlias plan declaring subject aliases names role).Gives (Naming registry file)
      Unmarked := by
  have looked : ∀ {entries : List (Role × String)} {name : String},
      (∀ entry ∈ entries, Unmarked entry.2) → entries.lookup role = some name → Unmarked name := by
    intro entries name plain found
    obtain ⟨front, back, rfl, _⟩ := List.lookup_eq_some_iff.mp found
    exact plain (role, name) (by simp)
  unfold Draft.importAlias
  split
  · exact .of_fail _
  · rename_i name found
    refine .of_get_bind fun draft _ => ?_
    refine .of_bind (.of_keeps (.of_modify fun _ naming => { naming with })) fun _ _ => .of_pure ?_
    rcases given : names.lookup role with _ | other
    · exact looked aliasesPlain found
    · exact looked namesPlain given

theorem import_aliases_gives (wearable : Wearable plan registry) (target : Id) (declaring : Node)
    (roles : List Role) :
    (Draft.importAliases plan target declaring roles).Gives (Naming registry file) fun names =>
      ∀ name ∈ names, Unmarked name := by
  unfold Draft.importAliases
  refine .of_bind ?_ fun aliases (aliasesPlain : ∀ entry ∈ aliases, Unmarked entry.2) => ?_
  · intro before aliases after naming returns
    obtain ⟨_, asks, rfl⟩ := Step.Returns.on_part_iff.mp returns
    obtain ⟨rfl, rfl⟩ := get_aliases_returns naming.resolved asks
    exact ⟨naming, wearable.aliasesOf naming.toStanding _⟩
  · refine .of_bind (locals_of_gives _ _ aliasesPlain) fun names namesPlain => ?_
    refine .imp (.of_mapM fun role _ =>
      import_alias_gives declaring _ aliasesPlain namesPlain role) fun imported each => ?_
    intro name listed
    obtain ⟨_, _, plain⟩ := Lists.exists_of_mem_left each.flip listed
    exact plain

theorem readable_alternatives {texts : List String} (each : ∀ text ∈ texts, Unmarked text) :
    Readable (Text.joinWith " | " texts) :=
  .joinWith (.of_unmarked (by decide)) fun text listed => .of_unmarked (each text listed)

theorem foreign_type_gives (wearable : Wearable plan registry) (reference : Reference)
    (kind : TypeKind) (view : View) :
    (Draft.foreignType plan reference kind view).Gives (Naming registry file) Readable := by
  have rest : ∀ text ∈ view.foreignRest kind, Unmarked text := by
    have all : ∀ text ∈ ["Any", "dict[str, Any]"], Unmarked text := by decide
    intro text listed
    apply all
    unfold View.foreignRest at listed
    split at listed <;> simp_all
  unfold Draft.foreignType
  refine .of_get_bind fun draft _ => ?_
  refine .of_bind (.of_keeps (Writing.declaringFile _ _)) fun declaring _ => ?_
  dsimp only
  split
  · exact .of_pure (readable_alternatives rest)
  · refine .of_bind (import_aliases_gives wearable _ _ _) fun names plain => .of_pure ?_
    refine readable_alternatives fun text listed => ?_
    rcases List.mem_append.mp listed with imported | fixed
    · exact plain text imported
    · exact rest text fixed

theorem readable_local_type {internal : String} (plain : Unmarked internal) (kind : TypeKind)
    (view : View) : Readable (view.localType internal kind) := by
  have behind : ∀ ending, Unmarked ending → Unmarked (internal ++ ending) := fun _ => plain.append
  apply Readable.of_unmarked
  unfold View.localType
  split
  · exact behind _ (by decide)
  · exact behind _ (by decide)
  · exact ((behind _ (by decide)).append plain).append (by decide)
  · decide
  · exact behind _ (by decide)
  · exact behind _ (by decide)
  · exact behind _ (by decide)
  · exact ((((behind _ (by decide)).append plain).append (by decide)).append plain).append (by decide)
  · exact behind _ (by decide)

theorem reference_to_gives (wearable : Wearable plan registry) (source target : Id) (via : String) :
    (Draft.referenceTo plan source target via).Gives (Naming registry file) fun reference =>
      Unmarked reference.internal := by
  intro before reference after naming returns
  exact ⟨(Writing.referenceTo _ _ _).returns returns naming,
    wearable.references target reference (reference_to_returns returns)⟩

theorem node_type_gives (located : plan.Located) (wearable : Wearable plan registry) (view : View)
    (kind : TypeKind) (target : Id) :
    (Draft.nodeType plan view kind target).Gives (Naming registry file) Readable := by
  unfold Draft.nodeType
  refine .of_get_bind fun draft _ => ?_
  refine .of_bind (reference_to_gives wearable _ target _) fun reference plain => ?_
  split
  · refine .of_bind (.of_keeps ((naming_frame located wearable).markReferenced target)) fun _ _ => ?_
    exact .of_pure (readable_local_type plain kind view)
  · exact foreign_type_gives wearable reference kind view

theorem write_gives (located : plan.Located) (wearable : Wearable plan registry) (view : View)
    (type : SchemaType) :
    ((Draft.spelling plan view).write type).Gives (Naming registry file) Readable := by
  obtain ⟨kind, element, target, brand, scope, index⟩ := type
  have any : Unmarked view.anyPointer := by cases view <;> decide
  unfold Spelling.write
  split
  · split
    · rename_i text found
      have fixed : Unmarked text := by
        have words : ∀ text ∈ ["None", "bool", "int", "float", "str", "bytes"], Unmarked text := by
          decide
        apply words
        have spelled : primitiveType kind = some text := found
        unfold primitiveType at spelled
        split at spelled <;> simp_all
      exact .of_pure (.of_unmarked fixed)
    · exact .of_fail _
  · split
    · split
      · exact .of_fail _
      · rename_i element
        refine .of_bind (write_gives located wearable view element) fun text readable => .of_pure ?_
        exact .append (.append (.of_unmarked (by decide)) readable) (.of_unmarked (by decide))
    · exact node_type_gives located wearable view _ target
    · exact node_type_gives located wearable view _ target
    · exact node_type_gives located wearable view _ target
    · exact .of_pure (.of_unmarked any)
    · exact .of_pure (.of_unmarked any)
    · exact .of_fail _

theorem typing_readable (located : plan.Located) (wearable : Wearable plan registry) :
    Typing plan (Naming registry file) (fun _ => Unmarked) fun _ => Readable where
  internalOf node := by
    intro before internal after naming returns
    obtain ⟨rfl, identified, _⟩ := internal_of_returns returns
    exact ⟨naming, wearable.identifiers node.id internal (naming.internal? node.id ▸ identified)⟩
  groupType view _ internal plain := by
    cases view <;> exact .of_unmarked (plain.append (by decide))
  typeText view type := by
    unfold Draft.typeText
    split
    · exact .of_get_bind fun draft _ => .of_fail _
    · refine .of_bind (write_gives located wearable view _) fun text readable => ?_
      split
      · exact .of_bind (.of_keeps (.of_modify fun _ naming => { naming with })) fun _ _ =>
          .of_pure readable
      · exact .of_pure readable
  superclass node id := by
    unfold Interface.superclass
    refine .of_get_bind fun draft _ => ?_
    refine .of_bind (reference_to_gives wearable _ id _) fun reference plain => ?_
    split
    · refine .of_bind (.of_keeps ((naming_frame located wearable).markReferenced id)) fun _ _ => ?_
      exact .of_pure ⟨.of_unmarked (plain.append (by decide)), .of_unmarked (plain.append (by decide))⟩
    · refine .of_bind (.of_keeps (Writing.declaringFile _ _)) fun declaring _ => ?_
      refine .of_bind (import_aliases_gives wearable _ _ _) fun names each => .of_pure ?_
      have at_place : ∀ place, Unmarked (names.getD place "") := by
        intro place
        rw [List.getD_eq_getElem?_getD]
        rcases found : names[place]? with _ | name
        · decide
        · exact each name (List.mem_of_getElem? found)
      exact ⟨.of_unmarked (at_place 0), .of_unmarked (at_place 1)⟩

end Drafting

section Declaring

variable {plan : Plan} {invariant : Draft → Prop}

theorem unmarked_class_name {internal : String} (plain : Unmarked internal) :
    Unmarked (className internal) := by
  intro c member
  unfold className Text.afterLast at member
  rw [String.toList_ofList, List.mem_reverse] at member
  exact plain c (List.mem_reverse.mp ((List.takeWhile_sublist _).subset member))

abbrev AllLegible (declarations : List Declaration) : Prop :=
  ∀ declaration ∈ declarations, declaration.Legible

theorem declare_struct_legible (frame : Frame plan invariant)
    (typing : Typing plan invariant (fun _ => Unmarked) fun _ => Readable)
    (legible : plan.graph.Legible)
    {nested body : Node → Step Draft (List Declaration)}
    (givesNested : ∀ node ∈ plan.graph.nodes, (nested node).Gives invariant AllLegible)
    (givesBody : ∀ node ∈ plan.graph.nodes, (body node).Gives invariant AllLegible) {node : Node}
    (inGraph : node ∈ plan.graph.nodes) :
    (Struct.declare plan nested body node).Gives invariant Declaration.Legible := by
  have fields := legible.fields node inGraph
  unfold Struct.declare
  refine .of_bind (typing.internalOf node) fun internal named => ?_
  refine .of_bind (.of_keeps (frame.markDeclared _)) fun _ _ => ?_
  refine .of_bind (.of_of_except _) fun members flattened => ?_
  have shown : ∀ member ∈ members, Unmarked member.field.name ∧ Quotable member.field.doc ∧
      ∀ group, member.group = some group → group ∈ plan.graph.nodes :=
    fun _ listed => legible.member flattened inGraph listed
  have plain : ∀ member ∈ members, Unmarked member.field.name :=
    fun member listed => (shown member listed).1
  have empty : AllLegible [] := List.forall_mem_nil _
  refine .of_ite_bind (.of_pure empty) (givesNested node inGraph)
    fun inner (innerLegible : AllLegible inner) => ?_
  dsimp only
  refine .of_bind (.mapM_flatten fun group listed => ?_)
    fun blocks (blocksLegible : AllLegible blocks.flatten) => ?_
  · obtain ⟨member, isMember, isGroup⟩ := List.mem_filterMap.mp listed
    exact givesBody group ((shown member isMember).2.2 group isGroup)
  · refine .of_bind (typing.views node internal members) ?_
    rintro _ ⟨dict, reader, builder, rfl, isDict, isReader, isBuilder⟩
    have viewsLegible : AllLegible [dict, reader, builder] := by
      simp only [AllLegible, List.forall_mem_cons, List.not_mem_nil, false_imp_iff, implies_true,
        and_true]
      exact ⟨isDict.legible plain, isReader.legible
        (fun member listed => ⟨(shown member listed).1, (shown member listed).2.1⟩) fields named,
        isBuilder.legible plain fields named⟩
    have parts : AllLegible (inner ++ blocks.flatten ++ [dict, reader, builder]) :=
      List.forall_mem_append.mpr ⟨List.forall_mem_append.mpr
        ⟨innerLegible, blocksLegible⟩, viewsLegible⟩
    have module : Readable "_StructModule" := .of_unmarked (by decide)
    split
    · exact .of_pure (.class (unmarked_class_name named) (by simp) (legible.docs node inGraph) parts)
    · refine .of_bind (typing.newMessage internal members) fun message isMessage => .of_pure ?_
      refine .class (unmarked_class_name named) (by simpa using module) (legible.docs node inGraph) ?_
      refine List.forall_mem_append.mpr ⟨parts, ?_⟩
      rw [List.forall_mem_cons]
      exact ⟨isMessage.legible plain named, fun _ => legible_reading named⟩

theorem declare_enum_legible (frame : Frame plan invariant)
    (typing : Typing plan invariant (fun _ => Unmarked) fun _ => Readable)
    (legible : plan.graph.Legible) {node : Node}
    (inGraph : node ∈ plan.graph.nodes) :
    (Enum.declare node).Gives invariant Declaration.Legible := by
  have plain := legible.enumerants node inGraph
  unfold Enum.declare
  split
  · exact .of_fail _
  · refine .of_bind (typing.internalOf node) fun internal named => ?_
    refine .of_bind (.of_keeps (frame.markDeclared _)) fun _ _ => .of_pure ?_
    have module : Readable "_EnumModule" := .of_unmarked (by decide)
    have int : Readable "int" := .of_unmarked (by decide)
    refine .class (unmarked_class_name named) (by simpa using module) (legible.docs node inGraph) ?_
    rw [List.forall_mem_cons]
    refine ⟨.typeAlias (by decide) (readable_literal plain), fun declaration listed => ?_⟩
    obtain ⟨name, inside, rfl⟩ := List.mem_map.mp listed
    exact .annotated (.safeName (plain name inside)) int

theorem declare_interface_legible (frame : Frame plan invariant)
    (typing : Typing plan invariant (fun _ => Unmarked) fun _ => Readable)
    (legible : plan.graph.Legible)
    {nested : Node → Step Draft (List Declaration)}
    (givesNested : ∀ node ∈ plan.graph.nodes, (nested node).Gives invariant AllLegible) {node : Node}
    (inGraph : node ∈ plan.graph.nodes) :
    (Interface.declare plan nested node).Gives invariant Declaration.Legible := by
  have methods : ∀ method ∈ node.methods, MethodLegible method := fun method listed =>
    ⟨legible.methods node inGraph method listed,
      fun field inside => legible.arguments node inGraph method listed field
        (List.mem_append_left _ inside),
      fun field inside => legible.arguments node inGraph method listed field
        (List.mem_append_right _ inside),
      legible.methodDocs node inGraph method listed⟩
  unfold Interface.declare
  refine .of_bind (typing.internalOf node) fun internal named => ?_
  refine .of_bind (.of_keeps (frame.markDeclared _)) fun _ _ => ?_
  refine .of_bind (givesNested node inGraph) fun inner innerLegible => ?_
  refine .of_bind (typing.bases node) ?_
  rintro ⟨clientBases, serverBases⟩ based
  refine .of_bind (typing.surfaces node internal [] node.methods) ?_
  rintro surfaces ⟨surfaced, _⟩
  have each : ∀ surface ∈ surfaces, AllLegible surface.protocols ∧ surface.client.Legible ∧
      AllLegible surface.server := by
    intro surface listed
    obtain ⟨method, inMethods, shape⟩ := Lists.exists_of_mem_left surfaced.flip listed
    exact shape.legible (methods method inMethods) named
  have readableBases : (∀ base ∈ clientBases, Readable base) ∧ ∀ base ∈ serverBases, Readable base := by
    rcases based with ⟨fixed, _⟩ | ⟨clients, servers⟩
    · obtain ⟨rfl, rfl⟩ := Prod.mk.inj fixed
      simp only [List.mem_singleton, forall_eq]
      exact ⟨.of_unmarked (by decide), .of_unmarked (by decide)⟩
    · constructor
      · intro base listed
        obtain ⟨_, _, readable⟩ := Lists.exists_of_mem_left clients.flip listed
        exact readable
      · intro base listed
        obtain ⟨_, _, readable⟩ := Lists.exists_of_mem_left servers.flip listed
        exact readable
  have newClientLegible : (Interface.newClient internal).Legible := by
    refine .method ⟨(by decide : Unmarked "_new_client"), ?_,
      .of_unmarked (named.append (by decide)), by simp, by simp⟩
    simp only [List.mem_singleton, forall_eq]
    exact .plain (by decide) (.of_unmarked (named.append (by decide)))
  have module : Readable "_InterfaceModule" := .of_unmarked (by decide)
  refine .of_pure (.class (unmarked_class_name named) (by simpa using module)
    (legible.docs node inGraph) ?_)
  simp only [List.forall_mem_append, List.forall_mem_cons, List.not_mem_nil, false_imp_iff,
    implies_true, and_true]
  refine ⟨⟨innerLegible, ?_⟩, .class (by decide) readableBases.1 (by simp) ?_,
    .class (by decide) readableBases.2 (by simp) ?_, newClientLegible⟩
  · intro declaration listed
    obtain ⟨surface, inside, shown⟩ := List.mem_flatMap.mp listed
    exact (each surface inside).1 declaration shown
  · intro declaration listed
    obtain ⟨surface, inside, rfl⟩ := List.mem_map.mp listed
    exact (each surface inside).2.1
  · intro declaration listed
    obtain ⟨surface, inside, shown⟩ := List.mem_flatMap.mp listed
    exact (each surface inside).2.2 declaration shown

theorem nested_declarations_legible {declare : Node → Step Draft (List Declaration)}
    (gives : ∀ node ∈ plan.graph.nodes, (declare node).Gives invariant AllLegible) (node : Node) :
    (nestedDeclarations plan declare node).Gives invariant AllLegible := by
  have empty : AllLegible [] := List.forall_mem_nil _
  unfold nestedDeclarations
  refine .of_bind (.mapM_flatten fun id _ => ?_)
    fun inner (legible : AllLegible inner.flatten) => .of_pure legible
  split
  · exact .of_fail _
  · rename_i nested found
    split
    · exact .of_pure empty
    · exact gives nested (Graph.mem_of_node? found)

theorem declare_kind_legible (frame : Frame plan invariant)
    (typing : Typing plan invariant (fun _ => Unmarked) fun _ => Readable)
    (legible : plan.graph.Legible)
    {nested body : Node → Step Draft (List Declaration)}
    (givesNested : ∀ node ∈ plan.graph.nodes, (nested node).Gives invariant AllLegible)
    (givesBody : ∀ node ∈ plan.graph.nodes, (body node).Gives invariant AllLegible) {node : Node}
    (inGraph : node ∈ plan.graph.nodes) :
    (declareKind plan nested body node).Gives invariant AllLegible := by
  have single : ∀ declaration : Declaration, declaration.Legible →
      (pure [declaration] : Step Draft (List Declaration)).Gives invariant AllLegible :=
    fun declaration whole => .of_pure fun other listed => List.mem_singleton.mp listed ▸ whole
  have empty : AllLegible [] := List.forall_mem_nil _
  unfold declareKind
  refine .of_bind (.of_keeps (frame.note _)) fun _ _ => ?_
  split
  · exact .of_bind (declare_struct_legible frame typing legible givesNested givesBody inGraph) single
  · exact .of_bind (declare_enum_legible frame typing legible inGraph) single
  · exact .of_bind (declare_interface_legible frame typing legible givesNested inGraph) single
  · rename_i isConst
    have plain : Unmarked node.name := legible.nodes node inGraph (by simp [isConst])
    refine .of_bind ?_ single
    exact .of_bind (typing.typeText .reader node.constType) fun type readable =>
      .of_pure (.annotated plain.safeName readable)
  · exact .of_pure empty
  · exact .of_fail _
  · exact .of_fail _

/-- All that a node becomes can be read, however deep declarations nest. -/
theorem declare_from_legible (frame : Frame plan invariant)
    (typing : Typing plan invariant (fun _ => Unmarked) fun _ => Readable)
    (legible : plan.graph.Legible) (bound : Nat) :
    ∀ node ∈ plan.graph.nodes, (declareFrom plan bound node).Gives invariant AllLegible := by
  induction bound with
  | zero => exact fun node _ => .of_fail _
  | succ bound induction =>
      intro node inGraph
      have nested : ∀ node ∈ plan.graph.nodes,
          (nestedDeclarations plan (declareFrom plan bound) node).Gives invariant AllLegible :=
        fun node _ => nested_declarations_legible induction node
      unfold declareFrom
      dsimp only
      split
      · refine .of_bind (declare_struct_legible frame typing legible nested induction inGraph)
          fun declaration whole => .of_pure ?_
        exact fun other listed => List.mem_singleton.mp listed ▸ whole
      · exact declare_kind_legible frame typing legible nested induction inGraph

theorem declare_top_level_legible (frame : Frame plan invariant)
    (typing : Typing plan invariant (fun _ => Unmarked) fun _ => Readable)
    (legible : plan.graph.Legible) {node : Node}
    (inGraph : node ∈ plan.graph.nodes) (inner : node.kind ≠ .file) :
    (declareTopLevel plan node).Gives invariant AllLegible := by
  have plain := legible.nodes node inGraph inner
  have declared : (declareNode plan node).Gives invariant AllLegible := by
    unfold declareNode
    split
    · exact .of_bind (.of_keeps (frame.note _)) fun _ _ => .of_fail _
    · exact declare_from_legible frame typing legible _ node inGraph
  unfold declareTopLevel
  refine .of_bind declared fun declarations whole => ?_
  refine .of_bind (.mapM_flatten fun declaration listed => ?_)
    fun bound (legible : AllLegible bound.flatten) => .of_pure legible
  have own : declaration.Legible := whole declaration listed
  have alone : AllLegible [declaration] := fun other same => List.mem_singleton.mp same ▸ own
  unfold bindTopLevel
  split
  · exact .of_bind (.of_keeps (frame.bind _ _)) fun _ _ => .of_pure alone
  · refine .of_bind (.of_keeps (frame.bind _ _)) fun _ _ => ?_
    refine .of_bind (.of_keeps (frame.bind _ _)) fun _ _ => .of_pure ?_
    refine List.forall_mem_cons.mpr ⟨own, List.forall_mem_singleton.mpr ?_⟩
    exact .annotated plain.safeName (.of_unmarked own.name)
  · exact .of_pure alone

theorem casts_legible {name view : String} {targets : List AnyPointer.Target} (named : Unmarked name)
    (viewed : Unmarked view) (plain : ∀ target ∈ targets, Unmarked target.internal) :
    AllLegible (AnyPointer.casts name view targets) := by
  intro declaration listed
  obtain ⟨signature, inside, rfl⟩ := List.mem_map.mp listed
  refine .method (.overloads ?_ ?_ signature inside)
  · intro typed isTyped
    obtain ⟨target, inTargets, rfl⟩ := List.mem_map.mp isTyped
    have internal := plain target inTargets
    refine ⟨named, ?_, .of_unmarked (internal.append viewed), by simp, by simp⟩
    exact List.forall_mem_singleton.mpr (.plain (by decide) (.of_unmarked internal))
  · have any : Unmarked "Any" := by decide
    refine ⟨named, ?_, .of_unmarked any, by simp, by simp⟩
    exact List.forall_mem_singleton.mpr (.plain (by decide) (.of_unmarked any))

theorem declare_any_pointer_legible (frame : Frame plan invariant)
    (typing : Typing plan invariant (fun _ => Unmarked) fun _ => Readable) :
    (AnyPointer.declare plan).Gives invariant Declaration.Legible := by
  have target : ∀ node, (AnyPointer.target plan node).Gives invariant fun found =>
      ∀ target ∈ found, Unmarked target.internal := by
    intro node
    unfold AnyPointer.target
    refine .of_get_bind fun draft _ => ?_
    split
    · exact .of_pure (by simp)
    · split
      · exact .of_pure (by simp)
      · refine .of_bind (typing.internalOf node) fun internal plain => ?_
        refine .of_bind (.of_keeps (frame.getAlias _ _)) fun aliasName _ => .of_pure ?_
        exact List.forall_mem_singleton.mpr plain
  have targets : (AnyPointer.targets plan).Gives invariant fun targets =>
      ∀ target ∈ targets, Unmarked target.internal := by
    refine .of_bind (.of_mapM fun node _ => target node) fun found plain => .of_pure ?_
    intro target listed
    obtain ⟨block, inFound, inBlock⟩ := List.mem_flatten.mp (Lists.mem_sort_by.mp listed)
    obtain ⟨_, _, each⟩ := Lists.exists_of_mem_left plain.flip inFound
    exact each target inBlock
  unfold AnyPointer.declare
  refine .of_bind targets fun targets plain => .of_pure ?_
  have base : Readable "_DynamicObjectReader" := .of_unmarked (by decide)
  have any : Unmarked "Any" := by decide
  have sequence : Unmarked "Sequence[Any]" := by decide
  have text : Unmarked "str" := by decide
  refine .class (by decide) (by simpa using base) (by simp) ?_
  simp only [List.forall_mem_append, List.forall_mem_cons, List.not_mem_nil, false_imp_iff,
    implies_true, and_true]
  refine ⟨⟨?_, ?_⟩, .method ⟨(by decide : Unmarked "as_list"), ?_, .of_unmarked sequence, by simp, by simp⟩,
    .method (.bare (by decide) (.of_unmarked text))⟩
  · exact casts_legible (by decide) (by decide) fun target listed =>
      plain target (List.mem_of_mem_filter listed)
  · exact casts_legible (by decide) (by decide) fun target listed =>
      plain target (List.mem_of_mem_filter listed)
  · exact List.forall_mem_singleton.mpr (.plain (by decide) (.of_unmarked any))

theorem declare_file_legible (frame : Frame plan invariant)
    (typing : Typing plan invariant (fun _ => Unmarked) fun _ => Readable)
    (legible : plan.graph.Legible) :
    (declareFile plan).Gives invariant AllLegible := by
  unfold declareFile
  refine .of_get_bind fun draft _ => ?_
  refine .of_bind (.mapM_flatten fun node listed => ?_)
    fun blocks (whole : AllLegible blocks.flatten) => ?_
  · obtain ⟨found, inner, _⟩ := mem_top_level_nodes listed
    exact declare_top_level_legible frame typing legible (Graph.mem_of_node? found) inner
  · refine .of_get_bind fun reached _ => ?_
    split
    · refine .of_bind (.of_keeps (frame.bind _ _)) fun _ _ => ?_
      refine .of_bind (declare_any_pointer_legible frame typing) fun anyPointer own => .of_pure ?_
      exact List.forall_mem_append.mpr ⟨whole, List.forall_mem_singleton.mpr own⟩
    · exact .of_pure whole

end Declaring

section Body

theorem readable_blank : ReadableLines [Line.blank] :=
  .line (.of_unmarked (by decide))

theorem ReadableLines.blocks {declarations : List Declaration} (legible : AllLegible declarations) :
    ReadableLines (Declaration.blocks declarations) := by
  fun_induction Declaration.blocks declarations with
  | case1 => exact Agrees.nil
  | case2 declaration => exact (legible declaration (by simp)).lines 0
  | case3 first second rest induction =>
      have later := induction fun other member => legible other (List.mem_cons_of_mem _ member)
      refine (((legible first List.mem_cons_self).lines 0).append ?_).append later
      unfold Declaration.gap
      split
      · exact Agrees.nil
      · exact readable_blank

theorem ReadableLines.body {declarations : List Declaration} {aliases : List Alias}
    (legible : AllLegible declarations)
    (plain : ∀ entry ∈ aliases, Unmarked entry.name ∧ Unmarked entry.target) :
    ReadableLines (Stub.bodyLines declarations aliases) := by
  have aliasLines : ReadableLines (aliases.flatMap fun entry =>
      (Declaration.typeAlias entry.name entry.target).lines 0) := by
    refine .flatMap fun entry listed => ?_
    obtain ⟨name, target⟩ := plain entry listed
    exact (Declaration.Legible.typeAlias name (.of_unmarked target)).lines 0
  unfold Stub.bodyLines
  dsimp only
  split
  · exact aliasLines
  · refine (ReadableLines.blocks legible).append ?_
    unfold afterBlank
    split
    · exact Agrees.nil
    · exact readable_blank.append aliasLines

end Body

end SchemaStubs.Stub
