import Mathlib.Logic.Relation
import SchemaStubs.Proofs.Schema.Forest
import SchemaStubs.Proofs.Stub.Declared
import SchemaStubs.Proofs.Stub.Flattening
import SchemaStubs.Proofs.Stub.Shapes

/-!
The members of a struct in its views. While no group holds itself, the fields of a struct can be
flattened however deep its anonymous groups nest. The dictionary, the reader, the builder and the
function for new messages are written one after the other, and they show the same members in the same
order.
-/

namespace SchemaStubs

namespace Graph

/-- A node has a field whose members another node holds. -/
def HoldsGroup (graph : Graph) (outer inner : Id) : Prop :=
  ∃ node field, graph.node? outer = some node ∧ field ∈ node.fields ∧ field.isGroup = true ∧
    field.group = inner

/-- No group at or below a node holds itself, at whatever distance. -/
def GroupsEnd (graph : Graph) (id : Id) : Prop :=
  ∀ inner, Relation.ReflTransGen graph.HoldsGroup id inner →
    ¬Relation.TransGen graph.HoldsGroup inner inner

theorem GroupsEnd.step {graph : Graph} {outer inner : Id} (ends : graph.GroupsEnd outer)
    (holds : graph.HoldsGroup outer inner) : graph.GroupsEnd inner :=
  fun id below => ends id (.head holds below)

/-- In a well-scoped graph the holder of a group is one of the scopes around it. -/
theorem WellScoped.holder_mem {graph : Graph} (wellScoped : graph.WellScoped)
    {entries : List (Option Node)} {requested : List Id} (built : build entries requested = .ok graph)
    {outer inner : Id} (holds : Relation.TransGen graph.HoldsGroup outer inner) :
    ∃ node body scopes file, graph.node? outer = some node ∧ graph.node? inner = some body ∧
      graph.ScopeChain body scopes file ∧ node ∈ scopes := by
  have step : ∀ {outer inner}, graph.HoldsGroup outer inner →
      ∃ node body, graph.node? outer = some node ∧ graph.node? inner = some body ∧
        body.kind ≠ .file ∧ graph.node? body.scope = some node := by
    rintro outer inner ⟨node, field, found, listed, isGroup, rfl⟩
    have isBody : field.group ∈ node.children := by
      refine List.mem_append_right _ (List.mem_map_of_mem (List.mem_filter.mpr ⟨listed, isGroup⟩))
    obtain ⟨body, bodyFound, notFile, inNode⟩ := wellScoped.child built (mem_of_node? found) isBody
    exact ⟨node, body, found, bodyFound, notFile, inNode⟩
  induction holds with
  | single holds =>
      obtain ⟨node, body, found, bodyFound, notFile, inNode⟩ := step holds
      obtain ⟨scopes, file, chain⟩ := wellScoped.ends node (mem_of_node? found)
      exact ⟨node, body, _, file, found, bodyFound, .up notFile inNode chain, List.mem_cons_self⟩
  | tail _ holds induction =>
      obtain ⟨node, middle, scopes, file, found, middleFound, chain, isScope⟩ := induction
      obtain ⟨_, body, same, bodyFound, notFile, inMiddle⟩ := step holds
      rw [middleFound] at same
      cases same
      exact ⟨node, body, _, file, found, bodyFound, .up notFile inMiddle chain,
        List.mem_cons_of_mem _ isScope⟩

theorem WellScoped.groupsEnd {graph : Graph} (wellScoped : graph.WellScoped)
    {entries : List (Option Node)} {requested : List Id} (built : build entries requested = .ok graph)
    (id : Id) : graph.GroupsEnd id := by
  intro inner _ around
  obtain ⟨node, body, scopes, file, found, bodyFound, chain, isScope⟩ :=
    wellScoped.holder_mem built around
  rw [found] at bodyFound
  cases bodyFound
  -- a node among its own scopes would have a chain shorter than its chain
  obtain ⟨others, again, shorter⟩ := chain.of_mem isScope
  rw [(chain.unique again).1] at shorter
  exact Nat.lt_irrefl _ shorter

end Graph

namespace Stub

variable {graph : Graph}

namespace Flattens

structure Within (graph : Graph) (path : List Id) (owner : Node) : Prop where
  distinct : path.Nodup
  known : path ⊆ graph.nodes.map Node.id
  leads : ∀ id ∈ path, Relation.TransGen graph.HoldsGroup id owner.id
  found : graph.node? owner.id = some owner
  ends : graph.GroupsEnd owner.id

theorem Within.cons {path : List Id} {owner : Node} (within : Within graph path owner) :
    (owner.id :: path).Nodup ∧ owner.id :: path ⊆ graph.nodes.map Node.id := by
  refine ⟨List.nodup_cons.mpr ⟨fun again => ?_, within.distinct⟩, ?_⟩
  · exact within.ends _ .refl (within.leads _ again)
  · exact List.cons_subset.mpr
      ⟨List.mem_map_of_mem (Graph.mem_of_node? within.found), within.known⟩

/-- No node comes twice on the way to a group that does not hold itself. -/
theorem Within.length_lt {path : List Id} {owner : Node} (within : Within graph path owner) :
    path.length < graph.size := by
  obtain ⟨distinct, known⟩ := within.cons
  have bounded := (List.subperm_of_subset distinct known).length_le
  rw [List.length_map, List.length_cons] at bounded
  exact bounded

theorem Within.step {path : List Id} {owner body : Node} {field : Field}
    (within : Within graph path owner) (listed : field ∈ owner.fields) (isGroup : field.isGroup = true)
    (found : graph.node? field.group = some body) : Within graph (owner.id :: path) body := by
  have same := Graph.id_of_node? found
  have holds : graph.HoldsGroup owner.id body.id :=
    ⟨owner, field, within.found, listed, isGroup, same.symm⟩
  refine ⟨within.cons.1, within.cons.2, ?_, same ▸ found, within.ends.step holds⟩
  intro id member
  rcases List.mem_cons.mp member with rfl | earlier
  · exact .single holds
  · exact .tail (within.leads id earlier) holds

/-- While groups do not hold themselves, there is room to flatten all fields: each group on the way uses
up one node. -/
theorem exists_lists {owner : Node} {fields : List Field} {members : List Member}
    (flattens : Flattens graph owner fields members)
    (distinct : (members.map fun member => member.field.name).Nodup) (listed : fields ⊆ owner.fields)
    {path : List Id} (within : Within graph path owner) {bound : Nat}
    (room : graph.size ≤ bound + path.length + 1) :
    ∃ lists, List.Forall₂ (fun field list =>
        Member.ofField graph (Member.ofNodeFrom graph bound) owner field = .ok list) fields lists ∧
      members = lists.flatten := by
  induction flattens generalizing path bound with
  | nil => exact ⟨[], .nil, rfl⟩
  | @slot owner field rest members plain _ induction =>
      rw [List.map_cons, List.nodup_cons] at distinct
      obtain ⟨lists, related, rfl⟩ :=
        induction distinct.2 (List.subset_of_cons_subset listed) within room
      refine ⟨[_] :: lists, .cons ?_ related, rfl⟩
      simp [Member.ofField, plain]
  | @named owner body field rest members isGroup named found _ induction =>
      rw [List.map_cons, List.nodup_cons] at distinct
      obtain ⟨lists, related, rfl⟩ :=
        induction distinct.2 (List.subset_of_cons_subset listed) within room
      refine ⟨[_] :: lists, .cons ?_ related, rfl⟩
      simp [Member.ofField, Field.isAnonymous, isGroup, named, found]
  | @anonymous owner body field rest parts members isGroup unnamed found single outside _ _ inside others =>
      rw [List.map_append] at distinct
      have distinctParts := List.Nodup.of_append_left distinct
      obtain ⟨lists, related, rfl⟩ := others (List.Nodup.of_append_right distinct)
        (List.subset_of_cons_subset listed) within room
      have inBody := within.step (listed List.mem_cons_self) isGroup found
      -- the way to the body is longer by one node, and still shorter than the graph
      have shorter := inBody.length_lt
      rw [List.length_cons] at shorter
      obtain ⟨less, rfl⟩ : ∃ less, bound = less + 1 := ⟨bound - 1, by omega⟩
      have flattened : Member.ofNodeFrom graph (less + 1) body = .ok parts := by
        refine of_node_from_succ_ok_iff.mpr ⟨inside distinctParts (List.Subset.refl _) inBody ?_,
          distinctParts⟩
        rw [List.length_cons]
        omega
      refine ⟨parts :: lists, .cons ?_ related, rfl⟩
      simp [Member.ofField, Field.isAnonymous, isGroup, unnamed, found, single, outside, flattened]

end Flattens

/-- Where groups do not hold themselves, the members of a node are the flattening of its fields, and
there are none only if the fields cannot be flattened or two members share a name. -/
theorem of_node_ok_iff {node : Node} (found : graph.node? node.id = some node)
    (ends : graph.GroupsEnd node.id) {members : List Member} :
    Member.ofNode graph node = .ok members ↔ Flattens graph node node.fields members ∧
      (members.map fun member => member.field.name).Nodup := by
  constructor
  · intro flattened
    exact ⟨.of_of_node_from flattened, nodup_field_names flattened⟩
  · rintro ⟨flattens, distinct⟩
    have start : Flattens.Within graph [] node := ⟨.nil, List.nil_subset _, by simp, found, ends⟩
    refine of_node_from_succ_ok_iff.mpr ⟨flattens.exists_lists distinct (List.Subset.refl _) start ?_,
      distinct⟩
    rw [List.length_nil]
    omega

def Declaration.attribute? : Declaration → Option String
  | .annotated name _ => some name
  | _ => none

def Declaration.getter? : Declaration → Option String
  | .method signature => if signature.decorators = ["property"] then some signature.name else none
  | _ => none

def Declaration.setter? : Declaration → Option String
  | .method signature =>
      if signature.decorators = [signature.name ++ ".setter"] then some signature.name else none
  | _ => none

theorem setter_ne_property (name : String) : name ++ ".setter" ≠ "property" := by
  intro same
  have letters := congrArg String.toList same
  rw [String.toList_append] at letters
  have last := congrArg List.getLast? letters
  rw [List.getLast?_append_of_ne_nil _ (by decide)] at last
  revert last
  decide

section Properties

variable (name type : String) (params : List Param) (doc : List String)

@[simp] theorem getter?_property :
    (Declaration.method ⟨name, params, type, ["property"], doc⟩).getter? = some name := rfl

@[simp] theorem setter?_property :
    (Declaration.method ⟨name, params, type, ["property"], doc⟩).setter? = none := by
  simp [Declaration.setter?, (setter_ne_property name).symm]

@[simp] theorem getter?_setter :
    (Declaration.method ⟨name, params, type, [name ++ ".setter"], doc⟩).getter? = none := by
  simp [Declaration.getter?, setter_ne_property name]

@[simp] theorem setter?_setter :
    (Declaration.method ⟨name, params, type, [name ++ ".setter"], doc⟩).setter? = some name := by
  simp [Declaration.setter?]

end Properties

/-- The class of a node has its views in it, with something behind them. -/
def HoldsViews (declaration : Declaration) (dict reader builder back : List Declaration) : Prop :=
  ∃ name bases doc front, declaration = .class name bases doc (front ++ [
    .class "Dict" ["TypedDict", "total=False"] [] dict,
    .class "Reader" ["_DynamicStructReader"] [] reader,
    .class "Builder" ["_DynamicStructBuilder"] [] builder] ++ back)

/-- The views of a node show its members and nothing else, in one order, and only slots are assigned to;
unless the node is a group, a function for new messages follows that takes the members by keyword. -/
structure Aligned (node : Node) (members : List Member) (dict reader builder back : List Declaration) :
    Prop where
  attributes : dict.map Declaration.attribute? = members.map fun member => some member.name
  properties : reader.filterMap Declaration.getter? = members.map Member.name
  getters : builder.filterMap Declaration.getter? = members.map Member.name
  setters : builder.filterMap Declaration.setter? =
    (members.filter fun member => member.group.isNone).map Member.name
  messages : if node.isGroup then back = [] else ∃ message keywords rest,
    back = .method message :: rest ∧ message.name = "new_message" ∧
      message.params = (if members.isEmpty then [] else [{ name := "*" }]) ++ keywords ++
        [{ name := "**kwargs", type := "Any" }] ∧
      keywords.map Param.name = members.map Member.name

section Shown

variable {typed : Meaning → String → Prop} {node : Node} {internal : String} {members : List Member}

theorem getter?_accessors {blocks : List (List Declaration)}
    (accessed : List.Forall₂ (Struct.AccessedBy typed) members blocks) :
    blocks.flatten.filterMap Declaration.getter? = members.map Member.name := by
  induction accessed with
  | nil => rfl
  | @cons member block _ _ shape _ induction =>
      obtain ⟨type, assigned, _, _, rfl⟩ := shape
      rw [List.flatten_cons, List.filterMap_append, induction]
      cases member.group <;> simp

theorem setter?_accessors {blocks : List (List Declaration)}
    (accessed : List.Forall₂ (Struct.AccessedBy typed) members blocks) :
    blocks.flatten.filterMap Declaration.setter? =
      (members.filter fun member => member.group.isNone).map Member.name := by
  induction accessed with
  | nil => rfl
  | @cons member block _ _ shape _ induction =>
      obtain ⟨type, assigned, _, _, rfl⟩ := shape
      rw [List.flatten_cons, List.filterMap_append, induction]
      cases slot : member.group <;> simp [slot]

theorem Struct.AreInitializers.named {declarations : List Declaration}
    (shape : AreInitializers typed members declarations) :
    ∀ declaration ∈ declarations, ∃ signature, declaration = .method signature ∧
      signature.name = "init" ∧ (signature.decorators = [] ∨ signature.decorators = ["overload"]) := by
  obtain ⟨initial, rfl, made⟩ := shape
  have each : ∀ signature ∈ initial ++ [fallbackInitializer],
      signature.name = "init" ∧ signature.decorators = [] := by
    refine List.forall_mem_append.mpr ⟨fun signature listed => ?_, by decide⟩
    obtain ⟨_, _, _, _, _, _, rfl⟩ := made signature listed
    exact ⟨rfl, rfl⟩
  intro declaration listed
  obtain ⟨signature, inside, rfl⟩ := List.mem_map.mp listed
  refine ⟨signature, rfl, ?_⟩
  unfold Signature.overloads at inside
  split at inside
  · cases List.mem_singleton.mp inside
    exact ⟨rfl, .inl rfl⟩
  · obtain ⟨original, isOriginal, rfl⟩ := List.mem_map.mp inside
    obtain ⟨named, plain⟩ := each original isOriginal
    exact ⟨named, .inr (by simp [Signature.overloaded, plain])⟩

theorem Struct.IsDict.attributes {dict : List Declaration}
    (shape : IsDict typed members (.class "Dict" ["TypedDict", "total=False"] [] dict)) :
    dict.map Declaration.attribute? = members.map fun member => some member.name := by
  obtain ⟨_, ⟨⟩, shown⟩ := shape
  exact Written.map_eq _ _ shown fun _ _ _ => rfl

theorem Struct.IsReader.properties {reader : List Declaration}
    (shape : IsReader typed node internal members (.class "Reader" ["_DynamicStructReader"] [] reader)) :
    reader.filterMap Declaration.getter? = members.map Member.name := by
  obtain ⟨properties, ⟨⟩, shown⟩ := shape
  have own : properties.map Declaration.getter? = members.map fun member => some member.name :=
    Written.map_eq _ _ shown fun _ _ _ => rfl
  have union : (which node).filterMap Declaration.getter? = [] := by
    unfold which
    split <;> rfl
  have shownNames : properties.filterMap Declaration.getter? = members.map Member.name := by
    rw [← Function.id_comp Declaration.getter?, ← List.filterMap_map, own, List.filterMap_map]
    exact congrFun List.filterMap_eq_map members
  rw [List.filterMap_append, List.filterMap_append, shownNames, union]
  simp [Declaration.getter?]

theorem Struct.IsBuilder.accessors {builder : List Declaration}
    (shape : IsBuilder typed node internal members (.class "Builder" ["_DynamicStructBuilder"] [] builder)) :
    builder.filterMap Declaration.getter? = members.map Member.name ∧
      builder.filterMap Declaration.setter? =
        (members.filter fun member => member.group.isNone).map Member.name := by
  obtain ⟨blocks, initial, ⟨⟩, accessed, made⟩ := shape
  have unread : initial.filterMap Declaration.getter? = [] := by
    refine List.filterMap_eq_nil_iff.mpr fun declaration listed => ?_
    obtain ⟨signature, rfl, _, plain | overload⟩ := made.named declaration listed
    · simp [Declaration.getter?, plain]
    · simp [Declaration.getter?, overload]
  have unset : initial.filterMap Declaration.setter? = [] := by
    refine List.filterMap_eq_nil_iff.mpr fun declaration listed => ?_
    obtain ⟨signature, rfl, named, plain | overload⟩ := made.named declaration listed
    · simp [Declaration.setter?, plain]
    · simp [Declaration.setter?, named, overload]
  constructor
  · simp only [List.filterMap_append, getter?_accessors accessed, unread]
    unfold which
    cases node.hasUnion <;> cases node.isGroup <;> simp [Declaration.getter?]
  · simp only [List.filterMap_append, setter?_accessors accessed, unset]
    unfold which
    cases node.hasUnion <;> cases node.isGroup <;> simp [Declaration.setter?]

variable {plan : Plan} {nested body : Node → Step Draft (List Declaration)} {before after : Draft}
  {declaration : Declaration}

/-- The shapes of what stands in the class of a struct or group, whatever declares the nodes inside. -/
theorem declare_struct_views
    (returns : (Struct.declare plan nested body node).Returns before declaration after) :
    ∃ internal members dict reader builder back, Member.ofNode plan.graph node = .ok members ∧
      HoldsViews declaration dict reader builder back ∧
      Struct.IsDict (fun _ _ => True) members (.class "Dict" ["TypedDict", "total=False"] [] dict) ∧
      Struct.IsReader (fun _ _ => True) node internal members
        (.class "Reader" ["_DynamicStructReader"] [] reader) ∧
      Struct.IsBuilder (fun _ _ => True) node internal members
        (.class "Builder" ["_DynamicStructBuilder"] [] builder) ∧
      if node.isGroup then back = [] else ∃ message rest, back = message :: rest ∧
        Struct.IsNewMessage (fun _ _ => True) internal members message := by
  obtain ⟨internal, members, inner, groups, views, extra, parts, rfl⟩ := declare_struct_returns returns
  obtain ⟨_, _, groupsDone, viewed, _, _, _, viewing, last⟩ := parts.made
  obtain ⟨_, shapes⟩ := (Typing.trivial plan).views node internal members _ _ _ ⟨⟩ viewing
  obtain ⟨_, _, _, rfl, ⟨dict, rfl, shownDict⟩, ⟨properties, rfl, shownReader⟩,
    ⟨blocks, initial, rfl, shownBuilder⟩⟩ := shapes
  refine ⟨internal, members, _, _, _, extra, parts.flattened, ⟨_, _, _, inner ++ groups, rfl⟩,
    ⟨dict, rfl, shownDict⟩, ⟨properties, rfl, shownReader⟩, ⟨blocks, initial, rfl, shownBuilder⟩, ?_⟩
  by_cases isGroup : node.isGroup = true
  · rw [if_pos isGroup] at last ⊢
    exact last.1
  · rw [if_neg isGroup] at last ⊢
    obtain ⟨message, messages, rfl⟩ := last
    obtain ⟨_, isMessage⟩ := (Typing.trivial plan).newMessage internal members _ _ _ ⟨⟩ messages
    exact ⟨message, _, rfl, isMessage⟩

theorem Aligned.of_shapes {dict reader builder back : List Declaration}
    (isDict : Struct.IsDict typed members (.class "Dict" ["TypedDict", "total=False"] [] dict))
    (isReader : Struct.IsReader typed node internal members
      (.class "Reader" ["_DynamicStructReader"] [] reader))
    (isBuilder : Struct.IsBuilder typed node internal members
      (.class "Builder" ["_DynamicStructBuilder"] [] builder))
    (messages : if node.isGroup then back = [] else ∃ message rest, back = message :: rest ∧
      Struct.IsNewMessage typed internal members message) :
    Aligned node members dict reader builder back := by
  refine ⟨isDict.attributes, isReader.properties, isBuilder.accessors.1, isBuilder.accessors.2, ?_⟩
  by_cases isGroup : node.isGroup = true
  · rw [if_pos isGroup] at messages ⊢
    exact messages
  · rw [if_neg isGroup] at messages ⊢
    obtain ⟨_, rest, rfl, keywords, rfl, shown⟩ := messages
    exact ⟨_, keywords, rest, rfl, rfl, rfl, Written.map_eq _ _ shown fun _ _ _ => rfl⟩

end Shown

/-- A struct or group whose groups do not hold themselves has the flattening of its fields for members,
each in the node that declares it and each with a name of its own; when its class can be written, all
views in it show these members. -/
theorem declare_shows_members {entries : List (Option Node)} {requested : List Id}
    (built : Graph.build entries requested = .ok graph) {node : Node} (inGraph : node ∈ graph.nodes)
    (ends : graph.GroupsEnd node.id) :
    (∀ members, Member.ofNode graph node = .ok members ↔
      Flattens graph node node.fields members ∧
        (members.map fun member => member.field.name).Nodup) ∧
    ∀ (plan : Plan) (nested body : Node → Step Draft (List Declaration)) (before after : Draft)
      (declaration : Declaration), plan.graph = graph →
      (Struct.declare plan nested body node).Returns before declaration after →
      ∃ members dict reader builder back, Flattens graph node node.fields members ∧
        (members.map fun member => member.field.name).Nodup ∧
        (∀ member ∈ members, member.owner ∈ graph.nodes ∧ member.field ∈ member.owner.fields) ∧
        HoldsViews declaration dict reader builder back ∧
        Aligned node members dict reader builder back := by
  have found := Graph.node?_of_mem (Graph.build_distinct built) inGraph
  refine ⟨fun members => of_node_ok_iff found ends, ?_⟩
  rintro plan nested body before after declaration rfl returns
  obtain ⟨internal, members, dict, reader, builder, back, flattened, holds, isDict, isReader, isBuilder,
    messages⟩ := declare_struct_views returns
  obtain ⟨flattens, distinct⟩ := (of_node_ok_iff found ends).mp flattened
  refine ⟨members, dict, reader, builder, back, flattens, distinct, fun member listed => ?_, holds,
    .of_shapes isDict isReader isBuilder messages⟩
  obtain ⟨inNodes, declared, _⟩ := mem_of_node_from flattened inGraph listed
  exact ⟨inNodes, declared⟩

/-- A struct with an anonymous group inside an anonymous group, and a named group whose slot has the name
of one of theirs. -/
def parcel : Graph where
  nodes := [
    { id := 1, kind := .file, name := "post", displayName := "post", nested := [2] },
    { id := 2, kind := .struct, name := "Parcel", displayName := "Parcel", scope := 1,
      fields := [
        { name := "weight", type := some { kind := .text } },
        { kind := .group, group := 3 },
        { name := "from", kind := .group, group := 5 },
        { name := "note", type := some { kind := .text } }] },
    { id := 3, kind := .struct, isGroup := true, name := "to", displayName := "to", scope := 2,
      fields := [{ kind := .group, group := 4 }, { name := "town", type := some { kind := .text } }] },
    { id := 4, kind := .struct, isGroup := true, name := "line", displayName := "line", scope := 3,
      fields := [{ name := "street", type := some { kind := .text } }] },
    { id := 5, kind := .struct, isGroup := true, name := "from", displayName := "from", scope := 2,
      fields := [{ name := "street", type := some { kind := .text } }] }]
  requested := [1]

theorem declare_shows_members_parcel :
    ∃ plan before declaration after dict reader builder back, plan.graph = parcel ∧
      (Struct.declare plan (fun _ => pure []) (declareFrom plan 1) parcel.nodes[1]).Returns before
        declaration after ∧
      HoldsViews declaration dict reader builder back ∧
      builder.filterMap Declaration.getter? = ["weight", "street", "town", "from_", "note"] ∧
      builder.filterMap Declaration.setter? = ["weight", "street", "town", "note"] := by
  have built : Graph.build (parcel.nodes.map some) [1] = .ok parcel := rfl
  have inGraph : parcel.nodes[1] ∈ parcel.nodes := List.getElem_mem _
  have wellScoped : parcel.WellScoped := by decide +kernel
  obtain ⟨members_iff, shows⟩ := declare_shows_members built inGraph (wellScoped.groupsEnd built _)
  let plan : Plan := ⟨parcel, {}, [], {}⟩
  let before : Draft := {
    registry := ((Generation.survey parcel [1]).outcome {}).2
    file := parcel.nodes[0] }
  have seen : (((Struct.declare plan (fun _ => pure []) (declareFrom plan 1) parcel.nodes[1]).outcome
      before).1.toOption.any fun _ => true) = true := by decide +kernel
  obtain ⟨declaration, after, returns, _⟩ := Step.Returns.of_any seen
  obtain ⟨members, dict, reader, builder, back, flattens, distinct, _, holds, aligned⟩ :=
    shows plan _ _ before after declaration rfl returns
  have flattened := (members_iff members).mpr ⟨flattens, distinct⟩
  have shown : (Member.ofNode parcel parcel.nodes[1]).toOption.map (fun members =>
      (members.map Member.name, (members.filter fun member => member.group.isNone).map Member.name)) =
      some (["weight", "street", "town", "from_", "note"], ["weight", "street", "town", "note"]) := by
    decide +kernel
  rw [flattened] at shown
  obtain ⟨names, slots⟩ := Prod.mk.inj (Option.some.inj shown)
  exact ⟨plan, before, declaration, after, dict, reader, builder, back, rfl, returns, holds,
    aligned.getters.trans names, aligned.setters.trans slots⟩

end Stub

end SchemaStubs
