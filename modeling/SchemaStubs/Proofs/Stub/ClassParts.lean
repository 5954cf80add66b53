import SchemaStubs.Proofs.Stub.ClassTree
import SchemaStubs.Proofs.Stub.Declared

/-!
What stands in the class of a node besides the classes of other nodes: the views of a struct, and
the protocols, the client and the server of an interface. None of these is the class of a node.
-/

namespace SchemaStubs.Stub

variable {plan : Plan} {before after : Draft}

def Shows (member : Member) (shown : Declaration) : Prop :=
  ∃ type, shown = .annotated member.name type

theorem dict_view_returns {members : List Member} {view : Declaration}
    (returns : (Struct.dictView plan members).Returns before view after) :
    ∃ attributes, view = .class "Dict" ["TypedDict", "total=False"] [] attributes ∧
      List.Forall₂ Shows members attributes := by
  unfold Struct.dictView at returns
  rw [Step.Returns.bind_iff] at returns
  obtain ⟨attributes, _, shows, last⟩ := returns
  obtain ⟨rfl, _⟩ := Step.Returns.pure_iff.mp last
  refine ⟨attributes, rfl, Step.Returns.mapM_related Shows ?_ shows⟩
  intro member _ before shown after step
  rw [Step.Returns.bind_iff] at step
  obtain ⟨type, _, _, last⟩ := step
  obtain ⟨rfl, _⟩ := Step.Returns.pure_iff.mp last
  exact ⟨type, rfl⟩

def Plain (declarations : List Declaration) : Prop :=
  ∀ declaration ∈ declarations, declaration.isClass = false

theorem Plain.append {one two : List Declaration} (first : Plain one) (second : Plain two) :
    Plain (one ++ two) := by
  intro declaration member
  rcases List.mem_append.mp member with inOne | inTwo
  · exact first declaration inOne
  · exact second declaration inTwo

theorem Plain.of_mapM {α : Type} {items : List α} {body : α → Step Draft Declaration}
    {declarations : List Declaration}
    (each : ∀ item before declaration after, (body item).Returns before declaration after →
      declaration.isClass = false)
    (returns : (items.mapM body).Returns before declarations after) : Plain declarations := by
  intro declaration member
  obtain ⟨item, _, start, reached, step⟩ := Step.Returns.mapM_mem returns member
  exact each item start declaration reached step

theorem plain_which (node : Node) : Plain (Struct.which node) := by
  unfold Plain Struct.which
  split <;> simp [Declaration.isClass]

theorem plain_methods (signatures : List Signature) :
    Plain (signatures.map Declaration.method) := by
  simp [Plain, Declaration.isClass]

theorem reader_view_returns {node : Node} {internal : String} {members : List Member}
    {view : Declaration}
    (returns : (Struct.readerView plan node internal members).Returns before view after) :
    ∃ body, view = .class "Reader" ["_DynamicStructReader"] [] body ∧ Plain body := by
  unfold Struct.readerView at returns
  rw [Step.Returns.bind_iff] at returns
  obtain ⟨properties, _, made, last⟩ := returns
  obtain ⟨rfl, _⟩ := Step.Returns.pure_iff.mp last
  have plain : Plain properties := by
    refine .of_mapM (fun member before declaration after step => ?_) made
    rw [Step.Returns.bind_iff] at step
    obtain ⟨type, _, _, last⟩ := step
    obtain ⟨rfl, _⟩ := Step.Returns.pure_iff.mp last
    rfl
  exact ⟨_, rfl, (plain.append (plain_which node)).append (by simp [Plain, Declaration.isClass])⟩

theorem builder_view_returns {node : Node} {internal : String} {members : List Member}
    {view : Declaration}
    (returns : (Struct.builderView plan node internal members).Returns before view after) :
    ∃ body, view = .class "Builder" ["_DynamicStructBuilder"] [] body ∧ Plain body := by
  unfold Struct.builderView Struct.initializers at returns
  simp only [Step.Returns.bind_iff] at returns
  obtain ⟨properties, _, made, initializers, _, ⟨typed, _, _, initials⟩, last⟩ := returns
  obtain ⟨rfl, _⟩ := Step.Returns.pure_iff.mp initials
  obtain ⟨rfl, _⟩ := Step.Returns.pure_iff.mp last
  have plain : Plain properties.flatten := by
    intro declaration member
    obtain ⟨block, inBlocks, inBlock⟩ := List.mem_flatten.mp member
    obtain ⟨shown, _, start, reached, step⟩ := Step.Returns.mapM_mem made inBlocks
    unfold Struct.accessors at step
    rw [Step.Returns.bind_iff] at step
    obtain ⟨type, _, _, rest⟩ := step
    dsimp only at rest
    split at rest
    · obtain ⟨rfl, _⟩ := Step.Returns.pure_iff.mp rest
      cases List.mem_singleton.mp inBlock
      rfl
    · rw [Step.Returns.bind_iff] at rest
      obtain ⟨assigned, _, _, last⟩ := rest
      obtain ⟨rfl, _⟩ := Step.Returns.pure_iff.mp last
      simp only [List.mem_cons, List.not_mem_nil, or_false] at inBlock
      rcases inBlock with rfl | rfl <;> rfl
  have ending : Plain (if node.isGroup then [] else
      [Declaration.method { name := "to_bytes", returns := "bytes" }]) := by
    split <;> simp [Plain, Declaration.isClass]
  refine ⟨_, rfl, .append (.append (.append (.append plain (plain_which node)) ?_) ?_) ending⟩
  · exact plain_methods _
  · simp [Plain, Declaration.isClass]

theorem views_returns {node : Node} {internal : String} {members : List Member}
    {views : List Declaration}
    (returns : (Struct.views plan node internal members).Returns before views after) :
    ∃ attributes reader builder, views = [
        .class "Dict" ["TypedDict", "total=False"] [] attributes,
        .class "Reader" ["_DynamicStructReader"] [] reader,
        .class "Builder" ["_DynamicStructBuilder"] [] builder] ∧
      List.Forall₂ Shows members attributes ∧ Plain reader ∧ Plain builder := by
  unfold Struct.views at returns
  simp only [Step.Returns.bind_iff] at returns
  obtain ⟨dict, _, dicts, reader, _, readers, builder, _, builders, last⟩ := returns
  obtain ⟨rfl, _⟩ := Step.Returns.pure_iff.mp last
  obtain ⟨attributes, rfl, shows⟩ := dict_view_returns dicts
  obtain ⟨readerBody, rfl, readerPlain⟩ := reader_view_returns readers
  obtain ⟨builderBody, rfl, builderPlain⟩ := builder_view_returns builders
  exact ⟨attributes, readerBody, builderBody, rfl, shows, readerPlain, builderPlain⟩

theorem plain_of_shows {members : List Member} {attributes : List Declaration}
    (shows : List.Forall₂ Shows members attributes) : Plain attributes := by
  induction shows with
  | nil => simp [Plain]
  | cons first _ induction =>
      intro declaration member
      rcases List.mem_cons.mp member with rfl | later
      · obtain ⟨_, rfl⟩ := first
        rfl
      · exact induction declaration later

theorem new_message_returns {internal : String} {members : List Member} {message : Declaration}
    (returns : (Struct.newMessage plan internal members).Returns before message after) :
    message.isClass = false := by
  unfold Struct.newMessage at returns
  rw [Step.Returns.bind_iff] at returns
  obtain ⟨_, _, _, last⟩ := returns
  obtain ⟨rfl, _⟩ := Step.Returns.pure_iff.mp last
  rfl

structure Surfaced (method : Method) (surface : Interface.Surface) : Prop where
  protocols : ∃ params results context, surface.protocols = [
      .class (Text.pascal method.name ++ "Params") ["Protocol"] [] params,
      .class (Text.pascal method.name ++ "Result") ["Protocol"] [] results,
      .class (Text.pascal method.name ++ "CallContext") ["Protocol"] [] context] ∧
    Plain params ∧ Plain results ∧ Plain context
  client : surface.client.isClass = false
  server : Plain surface.server

theorem surface_returns {internal : String} {method : Method} {surface : Interface.Surface}
    (returns : (Interface.surface plan internal method).Returns before surface after) :
    Surfaced method surface := by
  have protocol : ∀ {name fields before declaration after},
      (Interface.protocol plan name fields).Returns before declaration after →
        ∃ body, declaration = .class name ["Protocol"] [] body ∧ Plain body := by
    intro name fields before declaration after returns
    unfold Interface.protocol at returns
    rw [Step.Returns.bind_iff] at returns
    obtain ⟨body, _, made, last⟩ := returns
    obtain ⟨rfl, _⟩ := Step.Returns.pure_iff.mp last
    refine ⟨body, rfl, .of_mapM (fun field before declaration after step => ?_) made⟩
    rw [Step.Returns.bind_iff] at step
    obtain ⟨_, _, _, last⟩ := step
    obtain ⟨rfl, _⟩ := Step.Returns.pure_iff.mp last
    rfl
  unfold Interface.surface Interface.protocols Interface.clientMethod Interface.serverMethods
    at returns
  simp only [Step.Returns.bind_iff, Step.Returns.pure_iff] at returns
  obtain ⟨_, _, ⟨_, _, params, _, _, results, rfl, _⟩, _, _, ⟨_, _, _, rfl, _⟩, _, _,
    ⟨_, _, _, _, _, _, rfl, _⟩, rfl, _⟩ := returns
  obtain ⟨paramsBody, rfl, paramsPlain⟩ := protocol params
  obtain ⟨resultsBody, rfl, resultsPlain⟩ := protocol results
  refine ⟨⟨paramsBody, resultsBody, _, rfl, paramsPlain, resultsPlain, ?_⟩, rfl, ?_⟩
  · simp [Plain, Declaration.isClass]
  · simp [Plain, Declaration.isClass]

theorem surfaces_returns {node : Node} {internal : String} {stems : List String}
    {methods : List Method} {surfaces : List Interface.Surface}
    (returns : (Interface.surfaces plan node internal stems methods).Returns before surfaces after) :
    List.Forall₂ Surfaced methods surfaces := by
  induction methods generalizing stems before after surfaces with
  | nil =>
      obtain ⟨rfl, _⟩ := Step.Returns.pure_iff.mp returns
      exact .nil
  | cons method rest induction =>
      unfold Interface.surfaces at returns
      dsimp only at returns
      split at returns
      · exact (Step.Returns.fail_iff.mp returns).elim
      · simp only [Step.Returns.bind_iff] at returns
        obtain ⟨first, _, here, others, _, later, last⟩ := returns
        obtain ⟨rfl, _⟩ := Step.Returns.pure_iff.mp last
        exact .cons (surface_returns here) (induction later)

section Classes

variable {outer : String}

theorem module_classes_views {attributes reader builder : List Declaration}
    (attributesPlain : Plain attributes) (readerPlain : Plain reader) (builderPlain : Plain builder)
    {dictBases readerBases builderBases : List String} :
    moduleClasses outer [.class "Dict" dictBases [] attributes,
      .class "Reader" readerBases [] reader, .class "Builder" builderBases [] builder] = [] := by
  rw [module_classes_cons, module_classes_class_of_plain (by decide) attributesPlain,
    module_classes_cons, module_classes_class_of_plain (by decide) readerPlain,
    module_classes_class_of_plain (by decide) builderPlain]
  rfl

theorem module_classes_protocols {methods : List Method} {surfaces : List Interface.Surface}
    (surfaced : List.Forall₂ Surfaced methods surfaces) :
    moduleClasses outer (surfaces.flatMap Interface.Surface.protocols) = [] := by
  induction surfaced with
  | nil => rfl
  | @cons method _ _ _ first _ induction =>
      obtain ⟨params, results, context, protocols, inParams, inResults, inContext⟩ :=
        first.protocols
      have last : ∀ ending : String, ending.toList.getLast? = some 's' ∨
          ending.toList.getLast? = some 't' →
          Text.endsWith moduleWord (Text.pascal method.name ++ ending) = false := by
        rintro ending (isS | isT)
        · exact Text.not_ends_with_module isS (by decide)
        · exact Text.not_ends_with_module isT (by decide)
      rw [List.flatMap_cons, module_classes_append, induction, List.append_nil, protocols,
        module_classes_cons, module_classes_class_of_plain (last "Params" (by decide)) inParams,
        module_classes_cons, module_classes_class_of_plain (last "Result" (by decide)) inResults,
        module_classes_class_of_plain (last "CallContext" (by decide)) inContext]
      rfl

theorem mem_protocol_types {methods : List Method} {surfaces : List Interface.Surface}
    (surfaced : List.Forall₂ Surfaced methods surfaces) {method : Method}
    (member : method ∈ methods) {word : String} (listed : word ∈ ["Params", "Result", "CallContext"]) :
    Text.pascal method.name ++ word ∈
      (surfaces.flatMap Interface.Surface.protocols).filterMap Declaration.typeName? := by
  induction surfaced with
  | nil => cases member
  | cons first _ induction =>
      rw [List.flatMap_cons, List.filterMap_append]
      rcases List.mem_cons.mp member with rfl | later
      · obtain ⟨_, _, _, protocols, _⟩ := first.protocols
        apply List.mem_append_left
        rw [protocols]
        simpa [Declaration.typeName?] using listed
      · exact List.mem_append_right _ (induction later)

theorem declare_any_pointer_plain {declaration : Declaration}
    (returns : (AnyPointer.declare plan).Returns before declaration after) :
    moduleClasses outer [declaration] = [] := by
  unfold AnyPointer.declare at returns
  rw [Step.Returns.bind_iff] at returns
  obtain ⟨_, _, _, last⟩ := returns
  obtain ⟨rfl, _⟩ := Step.Returns.pure_iff.mp last
  apply module_classes_class_of_plain (by decide)
  have casts : ∀ name view targets, Plain (AnyPointer.casts name view targets) :=
    fun name view targets => plain_methods _
  exact ((casts _ _ _).append (casts _ _ _)).append (by simp [Plain, Declaration.isClass])

theorem bind_top_level_returns {node : Node} {declaration : Declaration} {block : List Declaration}
    (returns : (bindTopLevel node declaration).Returns before block after) :
    ∃ added, block = declaration :: added ∧ Plain added := by
  unfold bindTopLevel at returns
  split at returns
  · simp only [Step.Returns.bind_iff, Step.Returns.pure_iff] at returns
    obtain ⟨_, _, _, rfl, _⟩ := returns
    exact ⟨[], rfl, by simp [Plain]⟩
  · simp only [Step.Returns.bind_iff, Step.Returns.pure_iff] at returns
    obtain ⟨_, _, _, _, _, _, rfl, _⟩ := returns
    exact ⟨[_], rfl, by simp [Plain, Declaration.isClass]⟩
  · obtain ⟨rfl, _⟩ := Step.Returns.pure_iff.mp returns
    exact ⟨[], rfl, by simp [Plain]⟩

theorem bind_top_levels_returns {node : Node} {declarations : List Declaration}
    {blocks : List (List Declaration)}
    (returns : (declarations.mapM (bindTopLevel node)).Returns before blocks after) :
    moduleClasses outer blocks.flatten = moduleClasses outer declarations := by
  have related := Step.Returns.mapM_related
    (fun declaration block => moduleClasses outer block = moduleClasses outer [declaration])
    (fun declaration _ before block after step => by
      obtain ⟨added, rfl, plain⟩ := bind_top_level_returns step
      rw [module_classes_cons, module_classes_of_plain plain, List.append_nil]) returns
  clear returns
  induction related with
  | nil => rfl
  | cons first _ induction =>
      rw [List.flatten_cons, module_classes_append, induction, first, ← module_classes_cons]

end Classes

end SchemaStubs.Stub
