import SchemaStubs.Proofs.Stub.ClassPlaces
import SchemaStubs.Proofs.Walk.Mention

/-!
What a stub refers to. The types of the members of a struct, of the parameters and results of a method
and of a constant are written on the way to its declarations, and writing a type marks the nodes of the
same file that it mentions. Brands are not written.
-/

namespace SchemaStubs

/-- The mentions that are written in the stub of the declaration that makes them. -/
def Via.isWritten : Via → Bool
  | .field | .superclass | .param | .result | .const => true
  | .nested | .group | .brand => false

theorem SchemaType.Mentions.of_brand {type : SchemaType} {found : Via} {target : Id}
    (mentioned : type.Mentions .brand found target) : found = .brand := by
  suffices from_via : ∀ via, type.Mentions via found target → via = .brand → found = .brand from
    from_via .brand mentioned rfl
  clear mentioned
  intro via mentions
  induction mentions with
  | target _ => exact id
  | element _ _ _ induction => exact induction
  | brand _ _ _ induction => exact fun _ => induction rfl

namespace Stub

variable {plan : Plan} {registry : Registry} {file : Node} {marked : List Id} {before after : Draft}

def Leads (plan : Plan) (file : Node) (target : Id) : Prop :=
  ∀ reference, plan.references.get? target = some reference → reference.file = file.id

theorem mark_referenced_returns {id : Id}
    (returns : (Draft.inRegistry (Registry.markReferenced id)).Returns before () after) :
    id ∈ after.registry.referenced := by
  unfold Draft.inRegistry Registry.markReferenced at returns
  obtain ⟨_, marks, rfl⟩ := Step.Returns.on_part_iff.mp returns
  cases Step.Returns.modify_iff.mp marks
  dsimp only
  split
  · assumption
  · simp

theorem node_type_marks {view : View} {kind : TypeKind} {target : Id} {text : String}
    (standing : Standing registry file before) (inFile : Leads plan file target)
    (returns : (Draft.nodeType plan view kind target).Returns before text after) :
    target ∈ after.registry.referenced := by
  unfold Draft.nodeType at returns
  simp only [Step.Returns.bind_iff, Step.Returns.get_iff] at returns
  obtain ⟨_, _, ⟨rfl, rfl⟩, reference, middle, refers, returns⟩ := returns
  rw [if_pos (by rw [inFile _ (reference_to_returns refers), standing.ofFile])] at returns
  simp only [Step.Returns.bind_iff] at returns
  obtain ⟨_, _, marks, last⟩ := returns
  obtain ⟨_, rfl⟩ := Step.Returns.pure_iff.mp last
  exact mark_referenced_returns marks

/-- Writing a type marks what it refers to, through lists and not into brands. -/
theorem write_marks {view : View} {type : SchemaType} {text : String} {via found : Via} {target : Id}
    (standing : Standing registry file before) (inFile : Leads plan file target)
    (mentioned : type.Mentions via found target) (written : found.isWritten = true)
    (returns : ((Draft.spelling plan view).write type).Returns before text after) :
    target ∈ after.registry.referenced := by
  induction mentioned generalizing text after with
  | @target via type refers =>
      obtain ⟨kind, element, target, brand, scope, index⟩ := type
      unfold Spelling.write at returns
      unfold SchemaType.isReference at refers
      cases kind <;> first | exact node_type_marks standing inFile returns | cases refers
  | @element via found type element target isList held inner induction =>
      obtain ⟨kind, inside, other, brand, scope, index⟩ := type
      cases isList
      cases held
      unfold Spelling.write at returns
      rw [if_neg (by decide), Step.Returns.bind_iff] at returns
      obtain ⟨_, _, writes, last⟩ := returns
      obtain ⟨_, rfl⟩ := Step.Returns.pure_iff.mp last
      exact induction inFile written writes
  | brand _ _ inner _ =>
      rw [inner.of_brand] at written
      cases written

def Wrote (plan : Plan) (registry : Registry) (file : Node) (marked : List Id)
    (type : Option SchemaType) : Prop :=
  ∃ view before text after, Standing registry file before ∧
    (Draft.typeText plan view type).Returns before text after ∧ after.registry.referenced ⊆ marked

theorem Wrote.marks {type : SchemaType} {via found : Via} {target : Id}
    (wrote : Wrote plan registry file marked (some type)) (inFile : Leads plan file target)
    (mentioned : type.Mentions via found target) (written : found.isWritten = true) :
    target ∈ marked := by
  obtain ⟨view, before, text, after, standing, returns, within⟩ := wrote
  unfold Draft.typeText at returns
  rw [Step.Returns.bind_iff] at returns
  obtain ⟨_, middle, writes, returns⟩ := returns
  have there := write_marks standing inFile mentioned written writes
  apply within
  split at returns
  · simp only [Step.Returns.bind_iff] at returns
    obtain ⟨_, _, modifies, last⟩ := returns
    obtain ⟨_, rfl⟩ := Step.Returns.pure_iff.mp last
    cases Step.Returns.modify_iff.mp modifies
    exact there
  · obtain ⟨_, rfl⟩ := Step.Returns.pure_iff.mp returns
    exact there

def Took {α : Type} (registry : Registry) (file : Node) (marked : List Id) (step : Step Draft α) :
    Prop :=
  ∃ before value after, Standing registry file before ∧ step.Returns before value after ∧
    after.registry.referenced ⊆ marked

theorem Took.mono {α : Type} {step : Step Draft α} {more : List Id}
    (took : Took registry file marked step) (subset : marked ⊆ more) :
    Took registry file more step := by
  obtain ⟨before, value, after, standing, returns, within⟩ := took
  exact ⟨before, value, after, standing, returns, List.Subset.trans within subset⟩

theorem Took.wrote {view : View} {type : Option SchemaType}
    (took : Took registry file marked (Draft.typeText plan view type)) :
    Wrote plan registry file marked type := by
  obtain ⟨before, text, after, standing, returns, within⟩ := took
  exact ⟨view, before, text, after, standing, returns, within⟩

theorem Took.first {α β : Type} {step : Step Draft α} {next : α → Step Draft β}
    (located : plan.Located)
    (keeps : ∀ {invariant : Draft → Prop}, Frame plan invariant → step.Keeps invariant)
    (rest : ∀ value {invariant : Draft → Prop}, Frame plan invariant → (next value).Keeps invariant)
    (took : Took registry file marked (step >>= next)) : Took registry file marked step := by
  obtain ⟨before, value, after, standing, returns, within⟩ := took
  rw [Step.Returns.bind_iff] at returns
  obtain ⟨first, middle, here, later⟩ := returns
  have stands := (keeps (standing_frame located registry file)).returns here standing
  exact ⟨before, first, middle, standing, here,
    List.Subset.trans (referenced_subset located (fun frame => rest first frame) stands later) within⟩

theorem Took.second {α β : Type} {step : Step Draft α} {next : α → Step Draft β}
    (located : plan.Located)
    (keeps : ∀ {invariant : Draft → Prop}, Frame plan invariant → step.Keeps invariant)
    (took : Took registry file marked (step >>= next)) :
    ∃ value, Took registry file marked (next value) := by
  obtain ⟨before, value, after, standing, returns, within⟩ := took
  rw [Step.Returns.bind_iff] at returns
  obtain ⟨first, middle, here, later⟩ := returns
  have stands := (keeps (standing_frame located registry file)).returns here standing
  exact ⟨first, middle, value, after, stands, later, within⟩

theorem Took.mapM {α β : Type} {body : α → Step Draft β} {items : List α} (located : plan.Located)
    (keeps : ∀ item {invariant : Draft → Prop}, Frame plan invariant → (body item).Keeps invariant)
    (took : Took registry file marked (items.mapM body)) {item : α} (member : item ∈ items) :
    Took registry file marked (body item) := by
  induction items with
  | nil => cases member
  | cons first rest induction =>
      rw [List.mapM_cons] at took
      rcases List.mem_cons.mp member with rfl | inRest
      · refine took.first located (keeps item) fun value _ frame => ?_
        exact .of_bind (.of_mapM fun other _ => keeps other frame) fun _ => .of_pure _
      · obtain ⟨value, later⟩ := took.second located (keeps first)
        refine induction (later.first located ?_ fun _ _ _ => .of_pure _) inRest
        exact fun frame => .of_mapM fun other _ => keeps other frame

section Parts

variable {node : Node} {internal : String}

theorem Took.views_wrote (located : plan.Located) {members : List Member}
    (took : Took registry file marked (Struct.views plan node internal members)) {member : Member}
    (listed : member ∈ members) (slot : member.group = none) :
    Wrote plan registry file marked member.field.type := by
  unfold Struct.views Struct.dictView at took
  have dict := took.first located (fun frame => frame.dictView members) fun _ _ frame =>
    .of_bind (frame.readerView node internal members) fun _ =>
      .of_bind (frame.builderView node internal members) fun _ => .of_pure _
  have shown := (dict.first located (fun frame => .of_mapM fun other _ =>
      .of_bind (frame.memberType .dict other) fun _ => .of_pure _) fun _ _ _ => .of_pure _).mapM
    located (fun other _ frame => .of_bind (frame.memberType .dict other) fun _ => .of_pure _) listed
  have typed := shown.first located (fun frame => frame.memberType .dict member) fun _ _ _ => .of_pure _
  unfold Member.type at typed
  rw [slot] at typed
  exact typed.wrote

theorem Took.protocol_wrote (located : plan.Located) {name : String} {fields : List Field}
    (took : Took registry file marked (Interface.protocol plan name fields)) {field : Field}
    (listed : field ∈ fields) : Wrote plan registry file marked field.type := by
  unfold Interface.protocol at took
  have shown := (took.first located (fun frame => .of_mapM fun other _ =>
      .of_bind (frame.typeText .reader other.type) fun _ => .of_pure _) fun _ _ _ => .of_pure _).mapM
    located (fun other _ frame => .of_bind (frame.typeText .reader other.type) fun _ => .of_pure _)
    listed
  exact (shown.first located (fun frame => frame.typeText .reader field.type)
    fun _ _ _ => .of_pure _).wrote

theorem Took.surface_wrote (located : plan.Located) {method : Method}
    (took : Took registry file marked (Interface.surface plan internal method)) {field : Field}
    (listed : field ∈ method.params ∨ field ∈ method.results) :
    Wrote plan registry file marked field.type := by
  unfold Interface.surface Interface.protocols at took
  have protocols := took.first located
    (fun frame => .of_bind (frame.protocol _ _) fun _ =>
      .of_bind (frame.protocol _ _) fun _ => .of_pure _)
    fun _ _ frame => .of_bind (frame.clientMethod internal _ method) fun _ =>
      .of_bind (frame.serverMethods internal _ method) fun _ => .of_pure _
  rcases listed with inParams | inResults
  · exact (protocols.first located (fun frame => frame.protocol _ _) fun _ _ frame =>
      .of_bind (frame.protocol _ _) fun _ => .of_pure _).protocol_wrote located inParams
  · obtain ⟨_, results⟩ := protocols.second located fun frame => frame.protocol _ _
    exact (results.first located (fun frame => frame.protocol _ _)
      fun _ _ _ => .of_pure _).protocol_wrote located inResults

theorem Took.surfaces_took (located : plan.Located) {stems : List String} {methods : List Method}
    (took : Took registry file marked (Interface.surfaces plan node internal stems methods))
    {method : Method} (declared : method ∈ methods) :
    Took registry file marked (Interface.surface plan internal method) := by
  induction methods generalizing stems with
  | nil => cases declared
  | cons first rest induction =>
      unfold Interface.surfaces at took
      dsimp only at took
      split at took
      · obtain ⟨_, _, _, _, returns, _⟩ := took
        exact (Step.Returns.fail_iff.mp returns).elim
      · rcases List.mem_cons.mp declared with rfl | inRest
        · exact took.first located (fun frame => frame.surface internal method) fun _ _ frame =>
            .of_bind (frame.surfaces node internal _ rest) fun _ => .of_pure _
        · obtain ⟨_, later⟩ := took.second located fun frame => frame.surface internal first
          refine induction (later.first located ?_ fun _ _ _ => .of_pure _) inRest
          exact fun frame => frame.surfaces node internal _ rest

theorem Took.bases_marks (located : plan.Located)
    (took : Took registry file marked (Interface.bases plan node)) {id : Id}
    (listed : id ∈ node.superclasses) (inFile : Leads plan file id) : id ∈ marked := by
  unfold Interface.bases at took
  split at took
  · rename_i none
    rw [List.isEmpty_iff.mp none] at listed
    cases listed
  · have each := (took.first located (fun frame => .of_mapM fun other _ => frame.superclass node other)
        fun _ _ _ => .of_pure _).mapM located (fun other _ frame => frame.superclass node other) listed
    obtain ⟨before, value, after, standing, returns, within⟩ := each
    unfold Interface.superclass at returns
    simp only [Step.Returns.bind_iff, Step.Returns.get_iff] at returns
    obtain ⟨_, _, ⟨rfl, rfl⟩, reference, middle, refers, returns⟩ := returns
    rw [if_pos (by rw [inFile _ (reference_to_returns refers), standing.ofFile])] at returns
    simp only [Step.Returns.bind_iff] at returns
    obtain ⟨_, _, marks, last⟩ := returns
    obtain ⟨_, rfl⟩ := Step.Returns.pure_iff.mp last
    exact within (mark_referenced_returns marks)

theorem Took.struct_parts (located : plan.Located) {bound : Nat}
    (took : Took registry file marked (declareFrom plan bound node)) (isStruct : node.kind = .struct) :
    ∃ less internal members, Member.ofNode plan.graph node = .ok members ∧
      (node.isGroup = false →
        Took registry file marked (nestedDeclarations plan (declareFrom plan less) node)) ∧
      Took registry file marked (Struct.views plan node internal members) := by
  have frame := standing_frame located registry file
  obtain ⟨before, declarations, after, standing, returns, within⟩ := took
  obtain ⟨less, rfl, declared⟩ := declare_from_returns returns
  cases declared with
  | struct _ begins declares =>
      have starts := begins.standing located standing
      obtain ⟨internal, members, inner, groups, views, extra, parts, rfl⟩ :=
        declare_struct_returns declares
      obtain ⟨marked, nestedDone, groupsDone, viewsDone, marks, nests, ⟨blocks, bodies, rfl⟩, viewing,
        messages⟩ := parts.made
      have marking := (frame.markDeclared _).returns marks starts
      have nesting : Standing registry file nestedDone := by
        split at nests
        · obtain ⟨_, rfl⟩ := nests
          exact marking
        · exact (Frame.nestedDeclarations (frame.declareFrom less) node).returns nests marking
      have grouping := (Step.Keeps.of_mapM fun body _ => frame.declareFrom less body).returns bodies
        nesting
      have viewed := (frame.views node internal members).returns viewing grouping
      have afterNested := referenced_subset located
        (fun frame => .of_mapM fun body _ => frame.declareFrom less body) nesting bodies
      have afterGroups := referenced_subset located
        (fun frame => frame.views node internal members) grouping viewing
      have afterViews : viewsDone.registry.referenced ⊆ after.registry.referenced := by
        split at messages
        · obtain ⟨_, rfl⟩ := messages
          exact List.Subset.refl _
        · obtain ⟨_, makes, _⟩ := messages
          exact referenced_subset located (fun frame => frame.newMessage internal members) viewed makes
      refine ⟨less, internal, members, parts.flattened, fun single => ?_, ?_⟩
      · rw [if_neg (by simp [single])] at nests
        exact ⟨_, _, _, marking, nests,
          List.Subset.trans (List.Subset.trans (List.Subset.trans afterNested afterGroups) afterViews)
            within⟩
      · exact ⟨_, _, _, grouping, viewing, List.Subset.trans afterViews within⟩
  | enum _ isEnum _ _ => simp [isEnum] at isStruct
  | interface _ isInterface _ _ => simp [isInterface] at isStruct
  | const _ isConst _ _ => simp [isConst] at isStruct
  | nothing _ unseen _ => simp [unseen] at isStruct

theorem Took.interface_parts (located : plan.Located) {bound : Nat}
    (took : Took registry file marked (declareFrom plan bound node)) (single : node.isGroup = false)
    (isInterface : node.kind = .interface) :
    ∃ less internal,
      Took registry file marked (nestedDeclarations plan (declareFrom plan less) node) ∧
      Took registry file marked (Interface.bases plan node) ∧
      Took registry file marked (Interface.surfaces plan node internal [] node.methods) := by
  have frame := standing_frame located registry file
  obtain ⟨before, declarations, after, standing, returns, within⟩ := took
  obtain ⟨less, rfl, declared⟩ := declare_from_returns returns
  cases declared with
  | struct isStruct _ _ => simp [isInterface, single] at isStruct
  | enum _ isEnum _ _ => simp [isEnum] at isInterface
  | interface _ _ begins declares =>
      have starts := begins.standing located standing
      obtain ⟨internal, inner, clientBases, serverBases, surfaces, parts, rfl⟩ :=
        declare_interface_returns declares
      obtain ⟨marked, nestedDone, based, marks, nests, bases, surfacing⟩ := parts.made
      have marking := (frame.markDeclared _).returns marks starts
      have nesting := (Frame.nestedDeclarations (frame.declareFrom less) node).returns nests marking
      have basing := (frame.bases node).returns bases nesting
      have afterNested := referenced_subset located (fun frame => frame.bases node) nesting bases
      have afterBases := referenced_subset located
        (fun frame => frame.surfaces node internal [] node.methods) basing surfacing
      exact ⟨less, internal, ⟨_, _, _, marking, nests,
          List.Subset.trans (List.Subset.trans afterNested afterBases) within⟩,
        ⟨_, _, _, nesting, bases, List.Subset.trans afterBases within⟩, ⟨_, _, _, basing, surfacing, within⟩⟩
  | const _ isConst _ _ => simp [isConst] at isInterface
  | nothing _ unseen _ => simp [unseen] at isInterface

theorem Took.const_wrote (located : plan.Located) {bound : Nat}
    (took : Took registry file marked (declareFrom plan bound node)) (single : node.isGroup = false)
    (isConst : node.kind = .const) : Wrote plan registry file marked node.constType := by
  obtain ⟨before, declarations, after, standing, returns, within⟩ := took
  obtain ⟨less, rfl, declared⟩ := declare_from_returns returns
  cases declared with
  | struct isStruct _ _ => simp [isConst, single] at isStruct
  | enum _ isEnum _ _ => simp [isEnum] at isConst
  | interface _ isInterface _ _ => simp [isInterface] at isConst
  | const _ _ begins typed =>
      exact ⟨_, _, _, _, begins.standing located standing, typed, within⟩
  | nothing _ unseen _ => simp [unseen] at isConst

theorem Took.nested_took (scene : Scene plan registry) {bound : Nat}
    (took : Took registry file marked (nestedDeclarations plan (declareFrom plan bound) node))
    (found : plan.graph.node? node.id = some node) {id : Id} (listed : id ∈ node.nested) {inner : Node}
    (innerFound : plan.graph.node? id = some inner) :
    Took registry file marked (declareFrom plan bound inner) := by
  have keeps : ∀ (other : Id) {invariant : Draft → Prop}, Frame plan invariant →
      (nestedDeclaration plan (declareFrom plan bound) node other).Keeps invariant :=
    fun other _ frame => Frame.nestedDeclaration (frame.declareFrom bound) node other
  rw [nested_declarations_eq] at took
  have each := (took.first scene.located (fun frame => .of_mapM fun other _ => keeps other frame)
    fun _ _ _ => .of_pure _).mapM scene.located (fun other _ frame => keeps other frame) listed
  obtain ⟨single, _⟩ := scene.nested_single found listed innerFound
  rwa [nested_declaration_of_found innerFound single] at each

end Parts

theorem Made.took {node : Node} {statement : ClassStatement}
    (made : Made plan registry file marked node statement) :
    ∃ bound, Took registry file marked (declareFrom plan bound node) := by
  obtain ⟨bound, before, after, standing, returns, within⟩ := made.declares
  exact ⟨bound, before, _, after, standing, returns, within⟩

/-- What was declared in a stub: the nodes of the top level, and every node with a class. -/
structure Drew (plan : Plan) (registry : Registry) (file : Node) (marked : List Id) : Prop where
  top : ∀ id ∈ file.nested, ∀ node, plan.graph.node? id = some node →
    ∃ bound, Took registry file marked (declareFrom plan bound node)
  classes : ∀ node, plan.graph.node? node.id = some node → plan.graph.HasClass node →
    plan.graph.file node.id = .ok file →
    ∃ bound, Took registry file marked (declareFrom plan bound node)

/-- A constant was declared where it stands, in the class of its scope or at the top level. -/
theorem Drew.constant (drew : Drew plan registry file marked) (scene : Scene plan registry)
    {node : Node} (found : plan.graph.node? node.id = some node) (inFile : plan.graph.file node.id = .ok file)
    (isConst : node.kind = .const) :
    node.isGroup = false ∧ ∃ bound, Took registry file marked (declareFrom plan bound node) := by
  obtain ⟨entries, requested, built⟩ := scene.built
  have single := scene.single found (by simp [isConst])
  refine ⟨single, ?_⟩
  obtain ⟨scope, scopeFound, listed⟩ :=
    scene.wellScoped.inScope node (Graph.mem_of_node? found) (by simp [isConst])
  rw [if_neg (by simp [single])] at listed
  have scopeAgain := Graph.id_of_node? scopeFound ▸ scopeFound
  obtain ⟨scopes, chain⟩ := Graph.scope_chain_of_file found inFile
  obtain ⟨rest, rfl, above⟩ := chain.above (by simp [isConst]) scopeFound
  have scopeFile : plan.graph.file scope.id = .ok file :=
    Graph.file_eq_ok_iff.mpr ⟨scope, rest, scopeAgain, above⟩
  -- a group nests nothing, so the scope is no group
  have scopeSingle : scope.isGroup = false := by
    by_contra group
    rw [scene.wellScoped.groups scope (Graph.mem_of_node? scopeFound) (by simpa using group)]
      at listed
    cases listed
  have named : plan.graph.isAnonymousGroup scope = false := by
    simp [Graph.isAnonymousGroup, scopeSingle]
  rcases Graph.build_scope_kind built (Graph.mem_of_node? found) scopeFound with
    isFile | isStruct | isInterface
  · cases above with
    | file _ => exact drew.top node.id listed node found
    | up notFile _ _ => exact absurd isFile notFile
  · obtain ⟨_, took⟩ := drew.classes scope scopeAgain ⟨by rw [isStruct]; rfl, named⟩ scopeFile
    obtain ⟨less, _, _, _, nests, _⟩ := took.struct_parts scene.located isStruct
    exact ⟨less, (nests scopeSingle).nested_took scene scopeAgain listed found⟩
  · obtain ⟨_, took⟩ := drew.classes scope scopeAgain ⟨by rw [isInterface]; rfl, named⟩ scopeFile
    obtain ⟨less, _, nests, _, _⟩ := took.interface_parts scene.located scopeSingle isInterface
    exact ⟨less, nests.nested_took scene scopeAgain listed found⟩

end Stub

end SchemaStubs
