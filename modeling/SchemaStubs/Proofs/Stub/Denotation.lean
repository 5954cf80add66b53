import SchemaStubs.Proofs.Stub.Casts
import SchemaStubs.Proofs.Stub.ClassTypes
import SchemaStubs.Proofs.Stub.Contents

/-!
What the types and the aliases of a stub denote. Wherever a declaration shows a node of its own file,
in the type of a member, a parameter, a result or a constant, as a superclass, in a cast or as the
target of an alias, it does so by types that stand in the class of this node. Anonymous groups have no
class, and a run in which a type refers to one fails.
-/

namespace SchemaStubs.Stub

open Generation

variable {graph : Graph} {plan : Plan} {registry : Registry} {file node : Node} {marked : List Id}
  {declarations : List Declaration}

/-- A method of the class of pointers to anything. A cast takes the class of a node of the file and gives
a type that stands in this class; the other methods take no class. -/
inductive Casts (graph : Graph) (known : Id → Option String) (file : Node) (declarations : List Declaration)
    (signature : Signature) : Prop where
  | node {node : Node} {internal type : String} (found : graph.node? node.id = some node)
      (inFile : graph.file node.id = .ok file) (held : known node.id = some internal)
      (takes : signature.params = [{ name := "schema", type := internal }])
      (gives : signature.returns = internal ++ "." ++ type) (ofClass : type ∈ classTypes node)
      (emitted : Emits declarations internal)
      (emittedType : Emits declarations (internal ++ "." ++ type)) :
      Casts graph known file declarations signature
  | anything (takes : ∀ param ∈ signature.params, param.type = "Any")
      (gives : signature.returns ∈ ["Any", "Sequence[Any]", "str"]) :
      Casts graph known file declarations signature

/-- What follows the declarations of the top level: nothing, or the class of pointers to anything. -/
inductive Follows (graph : Graph) (known : Id → Option String) (file : Node)
    (declarations : List Declaration) : List Declaration → Prop where
  | nothing : Follows graph known file declarations []
  | pointers {methods : List Signature}
      (casts : ∀ method ∈ methods, Casts graph known file declarations method) :
      Follows graph known file declarations
        [.class anyPointerClass ["_DynamicObjectReader"] [] (methods.map Declaration.method)]

/-- The target of an alias lists types that stand in the class of a node of the file, and has such
types. -/
def Aims (graph : Graph) (known : Id → Option String) (file : Node) (declarations : List Declaration)
    (entry : Alias) : Prop :=
  ∃ node types rest, graph.node? entry.subject.node = some node ∧ graph.HasClass node ∧
    graph.file node.id = .ok file ∧ types ≠ [] ∧ types ⊆ classTypes node ∧
    Denotes (Emits declarations) known node.id types rest entry.target

/-- The classes of the stub of a file, what stands in them and at the top level, and what the texts of
types and the aliases denote. -/
structure Denoting (graph : Graph) (registry : Registry) (file : Node)
    (declarations : List Declaration) : Prop where
  /-- Every node of the file that has a class has one class statement, at its identifier, and the
  other classes stand for no nodes. -/
  classes : ∃ owners : List Node, owners.Nodup ∧
    (∀ node, node ∈ owners ↔ graph.node? node.id = some node ∧ graph.HasClass node ∧
      graph.file node.id = .ok file) ∧
    List.Forall₂ (fun node statement => ClassOf graph registry node statement ∧
        Holds (Conveys (Emits declarations) graph registry.internal? file) graph registry.internal? node
          statement.path statement.body)
      owners (moduleClasses "" declarations)
  top : ∃ nodes blocks extra, (nodes.map Node.id).Perm file.nested ∧
    (∀ node ∈ nodes, graph.node? node.id = some node) ∧
    List.Forall₂ (AtTop (Conveys (Emits declarations) graph registry.internal? file)
      registry.internal?) nodes blocks ∧
    declarations = blocks.flatten ++ extra ∧ Follows graph registry.internal? file declarations extra
  aliases : ∀ entry ∈ fileAliases registry file.id, Aims graph registry.internal? file declarations entry

section Finished

structure Finished (plan : Plan) (asked registry : Registry) (file : Node) (marked : List Id)
    (declarations : List Declaration) : Prop where
  settled : Settled plan registry file marked declarations
  scene : Scene plan registry
  prepared : Prepared plan asked registry
  toured : Toured plan
  found : plan.graph.node? file.id = some file
  isFile : file.kind = .file
  met : file.id ∈ plan.order
  declared : ∀ id ∈ marked, ∀ node, plan.graph.node? id = some node → plan.graph.HasClass node
  drafts : ∃ before after, Standing registry file before ∧
    (declareFile plan).Returns before declarations after

variable {asked : Registry} {id : Id} {text : String}

namespace Finished

theorem presents (finished : Finished plan asked registry file marked declarations)
    (found : plan.graph.node? node.id = some node) (inner : node.kind ≠ .file)
    (inFile : plan.graph.file node.id = .ok file) : Presents plan file.id node := by
  obtain ⟨scopes, chain⟩ := Graph.scope_chain_of_file found inFile
  clear inFile
  -- from the scope inwards: the scope lists the node, or has it as the body of a group
  induction chain with
  | file isFile => exact absurd isFile inner
  | @up node scope file rest _ scopeFound above induction =>
      obtain ⟨_, sameScope, place⟩ :=
        finished.scene.wellScoped.inScope node (Graph.mem_of_node? found) inner
      rw [scopeFound] at sameScope
      cases sameScope
      by_cases isFile : scope.kind = .file
      · cases above with
        | up notFile _ _ => exact absurd isFile notFile
        | file _ =>
            split at place
            · exact absurd place.1 (by simp [isFile])
            · exact .top (finished.scene.mem_top_level finished.prepared.distinct finished.found isFile
                (finished.prepared.nested_met finished.met finished.found) place found)
      · have outer := induction finished (Graph.id_of_node? scopeFound ▸ scopeFound) isFile
        split at place
        · obtain ⟨field, filtered, isBody⟩ := List.mem_map.mp place.2
          obtain ⟨listed, isGroup⟩ := List.mem_filter.mp filtered
          exact .body outer place.1 listed isGroup (isBody ▸ found)
        · exact .nested outer place found

theorem leads (finished : Finished plan asked registry file marked declarations)
    (own : plan.graph.file id = .ok file) : Leads plan file id :=
  fun _ known => (finished.prepared.own_reference known).2 own

theorem denotes (finished : Finished plan asked registry file marked declarations)
    (found : plan.graph.node? id = some node) (hasClass : plan.graph.HasClass node)
    (own : plan.graph.file id = .ok file) {types rest : List String} (within : types ⊆ classTypes node)
    (spelled : Denotes (fun _ => True) registry.internal? id types rest text) :
    Denotes (Emits declarations) registry.internal? id types rest text := by
  obtain rfl := Graph.id_of_node? found
  obtain ⟨internal, held, shaped⟩ := finished.settled.shaped finished.scene found hasClass own
  refine spelled.imp fun other known type listed => ?_
  rw [held] at known
  cases known
  exact shaped type (within listed)

/-- A node of the file that was referred to is shown by types of its class. -/
theorem showsNode (finished : Finished plan asked registry file marked declarations) {view : View}
    {type : SchemaType} {kind : NodeKind} (wanted : type.kind.target? = some kind)
    (knows : plan.Knows type.target kind) (marks : Leads plan file type.target → type.target ∈ marked)
    (shows : ShowsNode (fun _ => True) plan.graph registry.internal? file view type text) :
    ShowsNode (Emits declarations) plan.graph registry.internal? file view type text := by
  intro own
  obtain ⟨other, same, spelled⟩ := shows own
  rw [wanted] at same
  cases same
  obtain ⟨reference, known, _, ofKind, _⟩ := knows
  obtain ⟨node, found, sameKind⟩ := finished.toured.kinds _ _ known
  have kinds : kind = node.kind := ofKind.symm.trans sameKind
  subst kinds
  exact ⟨node.kind, wanted, finished.denotes found
    (finished.declared _ (marks (finished.leads own)) node found) own (shown_types_subset view node)
    spelled⟩

/-- The text of a type that was written conveys it by types that the stub has. -/
theorem conveys_type (finished : Finished plan asked registry file marked declarations) {view : View}
    {type : Option SchemaType} (wrote : Wrote plan registry file marked type)
    (writable : ∀ given, type = some given → Writable plan given)
    (conveys : Conveys (fun _ => True) plan.graph registry.internal? file (.type view type) text) :
    Conveys (Emits declarations) plan.graph registry.internal? file (.type view type) text := by
  obtain ⟨given, rfl, spelled⟩ := conveys
  refine ⟨given, rfl, spelled.imp (writable given rfl) ?_⟩
  intro part text kind wanted knows mentioned shows
  exact finished.showsNode wanted knows (fun leads => wrote.marks leads mentioned rfl) shows

theorem took (finished : Finished plan asked registry file marked declarations)
    (found : plan.graph.node? node.id = some node) (hasClass : plan.graph.HasClass node)
    (inFile : plan.graph.file node.id = .ok file) :
    ∃ bound, Took registry file marked (declareFrom plan bound node) :=
  (finished.settled.drew finished.scene).classes node found hasClass inFile

/-- The body of a named group is in the file of the struct that shows it. -/
theorem body_in_file (finished : Finished plan asked registry file marked declarations) {body : Node}
    (placed : GroupIn plan.graph node body) (inFile : plan.graph.file node.id = .ok file) :
    plan.graph.file body.id = .ok file := by
  obtain ⟨entries, requested, built⟩ := finished.scene.built
  obtain ⟨scopes, other, chain⟩ := finished.scene.wellScoped.ends body (Graph.mem_of_node? placed.found)
  obtain ⟨rest, above, _⟩ := placed.inHome.chain (Graph.kind_ne_file_of_has_module placed.hasClass.1)
    chain (Graph.build_groups built)
  obtain ⟨_, homeChain⟩ := Graph.scope_chain_of_file placed.inHome.found inFile
  rw [← (above.unique homeChain).2]
  exact Graph.file_eq_ok_iff.mpr ⟨body, scopes, placed.found, chain⟩

theorem passes (finished : Finished plan asked registry file marked declarations)
    (found : plan.graph.node? node.id = some node) (named : plan.graph.isAnonymousGroup node = false)
    (inFile : plan.graph.file node.id = .ok file) (isStruct : node.kind = .struct)
    {members : List Member} (flattened : Member.ofNode plan.graph node = .ok members) :
    Struct.Passes (Conveys (fun _ => True) plan.graph registry.internal? file)
      (Conveys (Emits declarations) plan.graph registry.internal? file) members := by
  intro member listed view text conveys
  have presents := finished.presents found (by simp [isStruct]) inFile
  have legible := (finished.toured.of_node_legible presents isStruct).1 members flattened member listed
  unfold Legible at legible
  unfold Member.meaning at conveys ⊢
  split at legible
  · rename_i body group
    rw [group] at conveys ⊢
    have placed := finished.scene.groups_named found named flattened
      (List.mem_filterMap.mpr ⟨member, listed, group⟩)
    exact finished.denotes placed.found placed.hasClass (finished.body_in_file placed inFile)
      (by simpa using body_type_mem view legible.2) conveys
  · rename_i slot
    rw [slot] at conveys ⊢
    obtain ⟨type, typed, writable⟩ := legible
    obtain ⟨_, took⟩ := finished.took found ⟨by rw [isStruct]; rfl, named⟩ inFile
    obtain ⟨_, _, others, again, _, views⟩ := took.struct_parts finished.scene.located isStruct
    rw [flattened] at again
    cases again
    refine finished.conveys_type (views.views_wrote finished.scene.located listed slot) ?_ conveys
    intro given same
    rw [typed] at same
    cases same
    exact writable

/-- The texts for the parameters and the results of the methods of an interface. -/
theorem conveys_argument (finished : Finished plan asked registry file marked declarations)
    (found : plan.graph.node? node.id = some node) (hasClass : plan.graph.HasClass node)
    (inFile : plan.graph.file node.id = .ok file) (isInterface : node.kind = .interface)
    {method : Method} (declared : method ∈ node.methods) {field : Field}
    (member : field ∈ method.params ++ method.results) {view : View}
    (conveys : Conveys (fun _ => True) plan.graph registry.internal? file (.type view field.type) text) :
    Conveys (Emits declarations) plan.graph registry.internal? file (.type view field.type) text := by
  obtain ⟨_, took⟩ := finished.took found hasClass inFile
  obtain ⟨_, _, _, _, surfaces⟩ := took.interface_parts finished.scene.located
    (finished.scene.single found (by simp [isInterface])) isInterface
  have wrote := (surfaces.surfaces_took finished.scene.located declared).surface_wrote
    finished.scene.located (List.mem_append.mp member)
  refine finished.conveys_type wrote (fun given typed => ?_) conveys
  exact finished.toured.writable (finished.presents found (by simp [isInterface]) inFile)
    (.argument isInterface declared member typed)

theorem denotes_superclass (finished : Finished plan asked registry file marked declarations)
    (found : plan.graph.node? node.id = some node) (hasClass : plan.graph.HasClass node)
    (inFile : plan.graph.file node.id = .ok file) (isInterface : node.kind = .interface)
    (listed : id ∈ node.superclasses) (own : plan.graph.file id = .ok file) {type : String}
    (isType : type ∈ ["Client", "Server"])
    (spelled : Denotes (fun _ => True) registry.internal? id [type] [] text) :
    Denotes (Emits declarations) registry.internal? id [type] [] text := by
  obtain ⟨_, took⟩ := finished.took found hasClass inFile
  obtain ⟨_, _, _, bases, _⟩ := took.interface_parts finished.scene.located
    (finished.scene.single found (by simp [isInterface])) isInterface
  have marks := bases.bases_marks finished.scene.located listed (finished.leads own)
  have presents := finished.presents found (by simp [isInterface]) inFile
  obtain ⟨reference, known, _, ofKind, _⟩ :=
    finished.toured.knows_superclass presents isInterface listed
  obtain ⟨superclass, superFound, sameKind⟩ := finished.toured.kinds _ _ known
  refine finished.denotes superFound (finished.declared id marks superclass superFound) own ?_ spelled
  rw [classTypes, ← sameKind, ofKind]
  exact List.cons_subset.mpr ⟨List.mem_append_left _ isType, List.nil_subset _⟩

theorem conveys_const (finished : Finished plan asked registry file marked declarations)
    (found : plan.graph.node? node.id = some node) (inFile : plan.graph.file node.id = .ok file)
    (isConst : node.kind = .const)
    (conveys : Conveys (fun _ => True) plan.graph registry.internal? file
      (.type .reader node.constType) text) :
    Conveys (Emits declarations) plan.graph registry.internal? file (.type .reader node.constType)
      text := by
  obtain ⟨single, _, took⟩ :=
    (finished.settled.drew finished.scene).constant finished.scene found inFile isConst
  refine finished.conveys_type (took.const_wrote finished.scene.located single isConst) ?_ conveys
  exact fun given typed => finished.toured.writable
    (finished.presents found (by simp [isConst]) inFile) (.const isConst typed)

theorem areNested (finished : Finished plan asked registry file marked declarations)
    (found : plan.graph.node? node.id = some node) (inFile : plan.graph.file node.id = .ok file)
    {blocks : List (List Declaration)}
    (areNested : AreNested (Conveys (fun _ => True) plan.graph registry.internal? file) plan.graph
      registry.internal? node blocks) :
    AreNested (Conveys (Emits declarations) plan.graph registry.internal? file) plan.graph
      registry.internal? node blocks := by
  refine Lists.forall₂_imp (fun id listed block => ?_) areNested
  rintro ⟨inner, innerFound, inside⟩
  refine ⟨inner, innerFound, inside.imp fun isConst text => ?_⟩
  obtain ⟨_, inNode⟩ := finished.scene.nested_single found listed innerFound
  obtain ⟨scopes, chain⟩ := Graph.scope_chain_of_file found inFile
  have sameId := Graph.id_of_node? innerFound
  refine finished.conveys_const (sameId ▸ innerFound) ?_ isConst
  exact Graph.file_eq_ok_iff.mpr
    ⟨inner, _, sameId ▸ innerFound, .up (by simp [isConst]) inNode chain⟩

theorem holds (finished : Finished plan asked registry file marked declarations)
    (found : plan.graph.node? node.id = some node) (hasClass : plan.graph.HasClass node)
    (inFile : plan.graph.file node.id = .ok file) {internal : String} {body : List Declaration}
    (holds : Holds (Conveys (fun _ => True) plan.graph registry.internal? file) plan.graph
      registry.internal? node internal body) :
    Holds (Conveys (Emits declarations) plan.graph registry.internal? file) plan.graph
      registry.internal? node internal body := by
  cases holds with
  | struct isStruct flattened areNested bodies isDict isReader isBuilder makes =>
      have passes := finished.passes found hasClass.2 inFile isStruct flattened
      refine .struct isStruct flattened (finished.areNested found inFile areNested) ?_
        (isDict.imp passes) (isReader.imp passes) (isBuilder.imp passes) ?_
      · refine Lists.forall₂_imp (fun body listed block inside => inside.imp_of_module ?_) bodies
        exact (finished.scene.groups_named found hasClass.2 flattened listed).hasClass.1
      · split
        · rename_i isGroup
          rwa [if_pos isGroup] at makes
        · rename_i single
          rw [if_neg single] at makes
          exact makes.imp passes
  | enum isEnum => exact .enum isEnum
  | interface isInterface areNested areBases surfaced =>
      refine .interface isInterface (finished.areNested found inFile areNested) (areBases.imp ?_ ?_) ?_
      · exact fun id listed text conveys own => finished.denotes_superclass found hasClass inFile
          isInterface listed own (by simp) (conveys own)
      · exact fun id listed text conveys own => finished.denotes_superclass found hasClass inFile
          isInterface listed own (by simp) (conveys own)
      · exact Lists.forall₂_imp (fun method declared _ isSurface => isSurface.imp
          fun field member view text => finished.conveys_argument found hasClass inFile isInterface
            declared member) surfaced

theorem met_node (finished : Finished plan asked registry file marked declarations)
    (inFile : plan.graph.file id = .ok file) : id ∈ plan.order := by
  obtain ⟨node, scopes, found, chain⟩ := Graph.file_eq_ok_iff.mp inFile
  obtain rfl := Graph.id_of_node? found
  by_cases isFile : node.kind = .file
  · cases chain with
    | file _ => exact finished.met
    | up notFile _ _ => exact absurd isFile notFile
  · exact (finished.toured.met (finished.presents found isFile inFile)).1

theorem casts (finished : Finished plan asked registry file marked declarations) {nodes : Set Node}
    {role : Role} {name type view : String} {methods : List Signature}
    (within : ∀ node ∈ nodes, node ∈ plan.graph.nodes ∧ plan.graph.HasClass node ∧
      plan.graph.file node.id = .ok file ∧ type ∈ classTypes node)
    (spelled : view = "." ++ type) (areCasts : AreCastsTo registry nodes role name view methods)
    {signature : Signature} (listed : signature ∈ methods) :
    Casts plan.graph registry.internal? file declarations signature := by
  subst spelled
  rcases areCasts.mem_cases listed with ⟨node, inside, internal, held, same⟩ | same
  · obtain ⟨inGraph, hasClass, inFile, ofClass⟩ := within node inside
    obtain ⟨entries, requested, built⟩ := finished.scene.built
    have found := Graph.node?_of_mem (Graph.build_distinct built) inGraph
    obtain ⟨statement, member, made⟩ := finished.settled.class_made finished.scene found hasClass inFile
    have path := made.path
    rw [held] at path
    cases path
    have present := (finished.scene.identifies found made.path).ne_empty_of_class hasClass
    have inStub := List.mem_of_mem_filter member
    exact .node found inFile held (congrArg Signature.params same)
      ((congrArg Signature.returns same).trans String.append_assoc.symm) ofClass
      ⟨statement, inStub, .inl rfl⟩ ((made.classOf finished.scene).emits inStub present ofClass)
  · refine .anything ?_ ?_
    · have takes : signature.params = [{ name := "schema", type := "Any" }] :=
        (congrArg Signature.params same :)
      simp [takes]
    · have gives : signature.returns = "Any" := (congrArg Signature.returns same :)
      simp [gives]

/-- The class of pointers to anything has casts to classes that the stub has. -/
theorem follows (finished : Finished plan asked registry file marked declarations)
    {body : List Declaration} (holds : HoldsCasts plan.graph registry file body) :
    Follows plan.graph registry.internal? file declarations
      [.class anyPointerClass ["_DynamicObjectReader"] [] body] := by
  obtain ⟨structs, interfaces, rfl, toStructs, toInterfaces⟩ := holds
  have whole : structs.map Declaration.method ++ interfaces.map Declaration.method ++ [
      .method {
        name := "as_list"
        params := [{ name := "schema", type := "Any" }]
        returns := "Sequence[Any]" },
      .method { name := "as_text", returns := "str" }] =
      (structs ++ interfaces ++ ([
        { name := "as_list", params := [{ name := "schema", type := "Any" }], returns := "Sequence[Any]" },
        { name := "as_text", returns := "str" }] : List Signature)).map Declaration.method := by simp
  rw [whole]
  refine .pointers ?_
  simp only [List.forall_mem_append, List.forall_mem_cons, List.not_mem_nil, false_imp_iff,
    implies_true, and_true]
  refine ⟨⟨fun signature => finished.casts ?_ (by decide : ".Reader" = "." ++ "Reader") toStructs,
    fun signature => finished.casts ?_ (by decide : ".Client" = "." ++ "Client") toInterfaces⟩,
    .anything (by simp) (by simp), .anything (by simp) (by simp)⟩
  · rintro node ⟨inGraph, isStruct, single, inFile⟩
    exact ⟨inGraph, ⟨by rw [isStruct]; rfl, by simp [Graph.isAnonymousGroup, single]⟩, inFile,
      by simp [classTypes, isStruct]⟩
  · rintro node ⟨inGraph, isInterface, inFile⟩
    obtain ⟨entries, requested, built⟩ := finished.scene.built
    have single := finished.scene.single (Graph.node?_of_mem (Graph.build_distinct built) inGraph)
      (by simp [isInterface])
    exact ⟨inGraph, ⟨by rw [isInterface]; rfl, by simp [Graph.isAnonymousGroup, single]⟩, inFile,
      by simp [classTypes, isInterface]⟩

theorem top (finished : Finished plan asked registry file marked declarations) :
    ∃ nodes blocks extra, (nodes.map Node.id).Perm file.nested ∧
      (∀ node ∈ nodes, plan.graph.node? node.id = some node) ∧
      List.Forall₂ (AtTop (Conveys (Emits declarations) plan.graph registry.internal? file)
        registry.internal?) nodes blocks ∧
      declarations = blocks.flatten ++ extra ∧
      Follows plan.graph registry.internal? file declarations extra := by
  have ⟨entries, requested, built⟩ := finished.scene.built
  obtain ⟨before, after, standing, returns⟩ := finished.drafts
  obtain ⟨blocks, extra, reached, whole, atTop, stands, appended⟩ := declare_file_at_top finished.scene
    (typing_conveys finished.prepared) finished.found finished.isFile standing returns
  have closed := finished.prepared.nested_met finished.met finished.found
  refine ⟨topLevelNodes plan file.id, blocks, extra, finished.scene.top_level_perm
    finished.prepared.distinct finished.found finished.isFile closed,
    fun node listed => (mem_top_level_nodes listed).1, ?_, whole, ?_⟩
  · refine Lists.forall₂_imp (fun node listed block shown => shown.imp fun isConst text => ?_) atTop
    obtain ⟨found, notFile, inFile⟩ := mem_top_level_nodes listed
    refine finished.conveys_const found ?_ isConst
    exact Graph.file_eq_ok_iff.mpr
      ⟨node, [file], found, .up notFile (inFile ▸ finished.found) (.file finished.isFile)⟩
  · cases appended with
    | nothing _ => exact .nothing
    | pointers _ binds declares =>
        have bound := ((standing_frame finished.scene.located registry file).bind _ _).returns binds
          stands
        obtain ⟨body, rfl, holds⟩ := declare_any_pointer_casts finished.prepared built finished.found
          (fun id => finished.met_node) bound declares
        exact finished.follows holds

theorem aims (finished : Finished plan asked registry file marked declarations) {entry : Alias}
    (listed : entry ∈ fileAliases registry file.id) :
    Aims plan.graph registry.internal? file declarations entry := by
  obtain ⟨entries, requested, built⟩ := finished.scene.built
  have prepared := finished.prepared
  obtain ⟨inTable, ofFile⟩ := List.mem_filter.mp listed
  obtain ⟨wish, wished, ofEntry, wishFile, target⟩ :=
    prepared.coherent.origin entry (Registry.mem_table_iff.mp inTable)
  rw [(Registry.resolve_requests prepared.wished.resolved prepared.resolves).1] at wished
  obtain ⟨node, internal, order, wishes, nodeFound, identified, asks, inside, _⟩ :=
    prepared.wished.sourced wish wished
  have sameId := Graph.id_of_node? nodeFound
  obtain ⟨ofNode, ⟨declaring, inFile, sameFile⟩, _⟩ := node_requests_ok asks inside
  -- the alias is one of this file, so the file that declares the node is this one
  have same : declaring = file := by
    have declaringFound := Graph.node?_of_file inFile
    have ids : declaring.id = file.id := by
      rw [← sameFile, wishFile]
      simpa using ofFile
    rw [ids, finished.found] at declaringFound
    exact (Option.some.inj declaringFound).symm
  subst same
  obtain ⟨present, cases⟩ := node_requests_target asks inside target
  have hasClass := has_class_of_alias_targets present
    (Graph.build_groups built node (Graph.mem_of_node? nodeFound))
  obtain ⟨known, held, shaped⟩ :=
    finished.settled.shaped finished.scene (sameId ▸ nodeFound) hasClass inFile
  have same := identified.unique (finished.scene.identifies (sameId ▸ nodeFound) held)
  rw [← same] at held shaped
  obtain ⟨types, rest, some, within, spelled⟩ := alias_target_types cases
  refine ⟨node, types, rest, ?_, hasClass, inFile, some, within, ?_, internal, held, spelled,
    fun type isType => shaped type (within isType)⟩
  · rwa [← ofEntry]
  · simp [some]

theorem denoting (finished : Finished plan asked registry file marked declarations) :
    Denoting plan.graph registry file declarations where
  classes := by
    obtain ⟨owners, distinct, listed, classes⟩ :=
      finished.settled.classes finished.scene finished.found finished.isFile
    refine ⟨owners, distinct, listed, Lists.forall₂_imp (fun node owner statement made => ?_) classes⟩
    obtain ⟨found, hasClass, inFile⟩ := (listed node).mp owner
    exact ⟨made.classOf finished.scene, finished.holds found hasClass inFile
      (made.holds finished.scene (typing_conveys finished.prepared))⟩
  top := finished.top
  aliases _ := finished.aims

end Finished

end Finished

/-- A run gives nothing out while a node that it refers to is not declared. -/
theorem generate_declares {options : Options} {output : Output}
    (ran : (generate options graph).1 = .ok output) :
    ∃ drafts registry, (draftAll options graph).Returns {} drafts registry ∧
      registry.referenced ⊆ registry.declared := by
  obtain ⟨drafts, registry, returns, none, _⟩ := generate_returns ran
  refine ⟨drafts, registry, returns, fun id marked => ?_⟩
  by_contra missing
  have listed : id ∈ registry.undeclared := by
    unfold Registry.undeclared
    rw [Lists.mem_sort_by]
    exact List.mem_filter.mpr ⟨marked, by simpa using missing⟩
  rw [none] at listed
  cases listed

theorem Denoting.congr {one two : Registry} (denoting : Denoting graph one file declarations)
    (aliases : two.aliases = one.aliases) (internal : two.internal = one.internal) :
    Denoting graph two file declarations := by
  have same : two.internal? = one.internal? := by
    funext id
    unfold Registry.internal?
    rw [internal]
  refine ⟨?_, ?_, ?_⟩
  · rw [same]
    obtain ⟨owners, distinct, listed, classes⟩ := denoting.classes
    refine ⟨owners, distinct, listed,
      List.Forall₂.imp (fun node statement ⟨classOf, holds⟩ => ⟨?_, holds⟩) classes⟩
    exact { classOf with path := (congrFun same node.id).trans classOf.path }
  · rw [same]
    exact denoting.top
  · rw [same, file_aliases_congr aliases]
    exact denoting.aliases

/-- In a well-scoped schema whose names have no points, every stub of a run denotes. -/
theorem Completed.denoting {options : Options} {entries : List (Option Node)} {requested : List Id}
    {plan : Plan} {resolved registry : Registry} {drafts : List Drafted} {output : Output}
    (completed : Completed options graph output plan resolved drafts registry)
    (built : Graph.build entries requested = .ok graph) (wellScoped : graph.WellScoped)
    (undotted : graph.Undotted) (ran : (generate options graph).1 = .ok output) {drafted : Drafted}
    (member : drafted ∈ drafts) :
    ∃ declarations statements, Assembled plan registry drafted declarations statements ∧
      Denoting graph registry drafted.file declarations := by
  obtain ⟨walk, surveyed, surveys, rfl⟩ := completed.surveys
  obtain ⟨_, _, returned, declares⟩ := generate_declares ran
  obtain ⟨rfl, rfl⟩ := Step.Returns.unique completed.returns returned
  obtain ⟨_, _, asked, settling, again, prepared, aliases, internal, scene, orderly, each⟩ :=
    draft_all_settled built wellScoped undotted completed.returns
  obtain ⟨rfl, rfl⟩ := Step.Returns.unique surveys again
  obtain ⟨declarations, statements, assembled, settled⟩ := each drafted member
  obtain ⟨_, composed⟩ := completed.composed drafted member
  obtain ⟨_, _, fresh, stubbed⟩ := assembled.declares
  have found := Graph.node?_of_file composed.inFile
  have finished : Finished _ asked settling drafted.file registry.referenced declarations := {
    settled, scene, prepared, found
    toured := toured_of_survey options built surveys
    isFile := Graph.kind_of_file composed.inFile
    met := prepared.requested drafted.file.id composed.requested
    declared := fun id marked => orderly id (declares marked)
    drafts := ⟨_, _, fresh, stubbed⟩ }
  exact ⟨declarations, statements, assembled.congr aliases internal,
    finished.denoting.congr aliases internal⟩

/-- In every stub of a well-scoped schema whose names have no points, each struct, enum, interface and
named group of the file has one class statement, at the path that is its identifier, and all types of
the same file and all alias targets denote classes at such paths. -/
theorem classes_at_identifiers {options : Options} {entries : List (Option Node)}
    {requested : List Id} (built : Graph.build entries requested = .ok graph)
    (wellScoped : graph.WellScoped) (undotted : graph.Undotted) {output : Output}
    (ran : (generate options graph).1 = .ok output) :
    ∃ plan resolved drafts registry, Completed options graph output plan resolved drafts registry ∧
      ∀ drafted ∈ drafts, ∃ declarations statements,
        Assembled plan registry drafted declarations statements ∧
        Denoting graph registry drafted.file declarations := by
  obtain ⟨plan, resolved, drafts, registry, completed⟩ := completed_of_generate built ran
  exact ⟨plan, resolved, drafts, registry, completed, fun _ member =>
    completed.denoting built wellScoped undotted ran member⟩

def deskFile : Node :=
  { id := 1, kind := .file, name := "a", displayName := "a", nested := [2] }

/-- A struct with a nested enum and an anonymous group, in which a named group refers back to the
struct. -/
def desk : Graph where
  nodes := [
    deskFile,
    { id := 2, kind := .struct, name := "Desk", displayName := "Desk", scope := 1, nested := [3],
      fields := [{ name := "wood", kind := .slot, type := some { kind := .enum, target := 3 } },
        { kind := .group, group := 4 }] },
    { id := 3, kind := .enum, name := "Wood", displayName := "Wood", scope := 2,
      enumerants := ["oak"] },
    { id := 4, kind := .struct, isGroup := true, name := "parts", displayName := "parts", scope := 2,
      fields := [{ name := "drawer", kind := .group, group := 5 }] },
    { id := 5, kind := .struct, isGroup := true, name := "drawer", displayName := "drawer",
      scope := 4,
      fields := [{ name := "holder", kind := .slot, type := some { kind := .struct, target := 2 } }] }]
  requested := [1]

theorem classes_at_identifiers_desk :
    ∃ output plan resolved drafts registry, Completed {} desk output plan resolved drafts registry ∧
      ∃ drafted ∈ drafts, drafted.file = deskFile ∧ ∃ declarations statements,
        Assembled plan registry drafted declarations statements ∧
        Denoting desk registry drafted.file declarations := by
  have built : Graph.build (desk.nodes.map some) [1] = .ok desk := rfl
  have inFile : Graph.file desk 1 = .ok deskFile := rfl
  obtain ⟨output, ran⟩ : ∃ output, (generate {} desk).1 = .ok output :=
    generate_of_unobstructed rfl inFile (by decide +kernel)
  obtain ⟨plan, resolved, drafts, registry, completed, each⟩ :=
    classes_at_identifiers built (by decide +kernel) (by decide +kernel) ran
  obtain ⟨drafted, member, isFile⟩ := completed.drafted_of_mem List.mem_cons_self inFile
  exact ⟨output, plan, resolved, drafts, registry, completed, drafted, member, isFile,
    each drafted member⟩

/-- A struct that lists a group among its nested declarations; no field has the group as its body. -/
def stray : Graph where
  nodes := [
    aFile [2] [],
    { id := 2, kind := .struct, name := "S", displayName := "S", scope := 1, nested := [3] },
    { id := 3, kind := .struct, isGroup := true, name := "G", displayName := "G", scope := 2 }]
  requested := [1]

/-- A group that no field has as its body is given aliases, and it has no class. -/
theorem stray_group_without_class :
    Graph.build (stray.nodes.map some) [1] = .ok stray ∧
    -- every declaration occurs once, as a nested declaration or as the body of a group of its scope
    stray.Housed ∧ (∀ node ∈ stray.nodes, node.kind ≠ .file →
      (stray.nodes.flatMap Node.children).count node.id = 1) ∧
    (∀ node ∈ stray.nodes, node.kind ≠ .struct → node.fields = []) ∧
    (∀ node ∈ stray.nodes, node.isGroup = true → node.nested = []) ∧
    stray.ScopesEnd ∧ stray.Undotted ∧
    (∃ group, stray.node? 3 = some group ∧ stray.HasClass group) ∧
    ∃ output stub statements declarations aliases,
      (generate {} stray).1 = .ok output ∧ stub ∈ output.files ∧
      stub.content = renderLines (fileLines {} "a" statements (bodyLines declarations aliases)) ∧
      (∀ statement ∈ classesIn "" declarations, statement.name ≠ "_GGroupModule") ∧
      ∃ entry ∈ aliases, entry.target = "_SStructModule._GGroupModule.Reader" ∧
        ¬ Emits declarations entry.target := by
  have seen : (((rehearse {} stray (aFile [2] [])).outcome {}).1.toOption.any
      fun made : List Declaration × Draft => made.2.unobstructed &&
        decide ((∀ statement ∈ classesIn "" made.1, statement.name ≠ "_GGroupModule") ∧
          ∃ entry ∈ fileAliases made.2.registry 1,
            entry.target = "_SStructModule._GGroupModule.Reader" ∧ ¬ Emits made.1 entry.target)) =
      true := by
    decide +kernel
  obtain ⟨⟨declarations, draft⟩, _, rehearsed, shown⟩ := Step.Returns.of_any seen
  rw [Bool.and_eq_true, decide_eq_true_eq] at shown
  obtain ⟨free, classless, dangling⟩ := shown
  obtain ⟨output, stub, statements, ran, files, _, content, _⟩ :=
    generate_of_rehearsal rfl rfl rehearsed free
  refine ⟨rfl, by decide +kernel, by decide +kernel, by decide, by decide, by decide +kernel,
    by decide +kernel, ⟨stray.nodes[2], rfl, by decide +kernel⟩, output, stub, statements, declarations,
    _, ran, by simp [files], content, classless, dangling⟩

end SchemaStubs.Stub
