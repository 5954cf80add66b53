import Mathlib.Data.List.Range
import SchemaStubs.Proofs.Stub.Views

/-!
The union of a struct. An accepted struct has one field at each place of its union: the places that
fields claim are in range, none is claimed twice, and there are as many as the union has. The accessor
of the union names these fields in the order of their places, and all of them are members.
-/

namespace SchemaStubs

namespace Node

variable {nodes : List Node} {node : Node}

def placed (node : Node) : List Field :=
  node.fields.filter fun field => decide (field.ordinal ≠ 0)

theorem check_fields_from_ordinals {seen ordinals : List Int} {fields : List Field}
    (passed : node.checkFieldsFrom nodes seen fields = .ok ordinals) :
    ordinals = ((fields.map Field.ordinal).filter fun ordinal => decide (ordinal ≠ 0)).reverse ++ seen ∧
      (seen.Nodup → ordinals.Nodup) ∧
      ∀ field ∈ fields, 0 ≤ field.ordinal ∧ field.ordinal ≤ node.unionSize := by
  induction fields generalizing seen with
  | nil =>
      cases passed
      simp
  | cons first rest induction =>
      unfold checkFieldsFrom at passed
      rw [except_bind_ok] at passed
      obtain ⟨_, _, later⟩ := passed
      split at later
      · cases later
      · rename_i inRange
        have bounds : 0 ≤ first.ordinal ∧ first.ordinal ≤ node.unionSize := by omega
        split at later
        · rename_i apart
          obtain ⟨same, distinct, others⟩ := induction later
          refine ⟨?_, distinct, List.forall_mem_cons.mpr ⟨bounds, others⟩⟩
          simpa [apart] using same
        · rename_i claims
          split at later
          · cases later
          · rename_i new
            obtain ⟨same, distinct, others⟩ := induction later
            refine ⟨?_, fun old => distinct (List.nodup_cons.mpr ⟨new, old⟩),
              List.forall_mem_cons.mpr ⟨bounds, others⟩⟩
            simpa [claims] using same

/-- The places that the fields of an accepted struct with a union claim. -/
structure Placing (node : Node) : Prop where
  bounds : ∀ field ∈ node.fields, 0 ≤ field.ordinal ∧ field.ordinal ≤ node.unionSize
  distinct : (node.placed.map Field.ordinal).Nodup
  count : (node.placed.length : Int) = node.unionSize

theorem check_members_placing (passed : node.checkMembers nodes = .ok ()) (isStruct : node.kind = .struct)
    (hasUnion : 0 < node.unionSize) : node.Placing := by
  unfold checkMembers at passed
  rw [isStruct] at passed
  simp only [checkFields] at passed
  rw [except_bind_ok] at passed
  obtain ⟨ordinals, each, counted⟩ := passed
  obtain ⟨same, distinct, bounds⟩ := check_fields_from_ordinals each
  have claimed : ordinals = (node.placed.map Field.ordinal).reverse := by
    rw [same, List.append_nil, List.filter_map]
    rfl
  refine ⟨bounds, ?_, ?_⟩
  · rw [← List.nodup_reverse, ← claimed]
    exact distinct .nil
  · split at counted
    · cases counted
    · rename_i complete
      push Not at complete
      have length := complete hasUnion
      rwa [claimed, List.length_reverse, List.length_map] at length

theorem length_union_fields (node : Node) : node.unionFields.length = node.unionSize.toNat := by
  simp [unionFields]

namespace Placing

/-- Each place is claimed, because as many are claimed as there are. -/
theorem ordinals_perm (placing : node.Placing) : (node.placed.map Field.ordinal).Perm
    ((List.range node.unionSize.toNat).map fun place : Nat => (place : Int) + 1) := by
  have within : node.placed.map Field.ordinal ⊆
      (List.range node.unionSize.toNat).map fun place : Nat => (place : Int) + 1 := by
    intro ordinal claimed
    obtain ⟨field, isPlaced, rfl⟩ := List.mem_map.mp claimed
    obtain ⟨listed, claims⟩ := List.mem_filter.mp isPlaced
    obtain ⟨lower, upper⟩ := placing.bounds field listed
    have nonzero : field.ordinal ≠ 0 := by simpa using claims
    refine List.mem_map.mpr ⟨(field.ordinal - 1).toNat, List.mem_range.mpr ?_, ?_⟩ <;> omega
  refine (List.subperm_of_subset placing.distinct within).perm_of_length_le ?_
  have count := placing.count
  simp only [List.length_map, List.length_range]
  omega

theorem field_at (placing : node.Placing) {place : Nat} (inside : place < node.unionSize.toNat) :
    ∃ field, node.unionField? (place + 1) = some field ∧ field ∈ node.placed ∧
      node.fields.filter (fun other => other.ordinal == (place : Int) + 1) = [field] := by
  have claimed : (place : Int) + 1 ∈ node.placed.map Field.ordinal :=
    placing.ordinals_perm.mem_iff.mpr (List.mem_map.mpr ⟨place, List.mem_range.mpr inside, rfl⟩)
  obtain ⟨field, isPlaced, here⟩ := List.mem_map.mp claimed
  have alone : node.fields.filter (fun other => other.ordinal == (place : Int) + 1) = [field] := by
    rw [← Lists.filter_key_eq_singleton Field.ordinal placing.distinct isPlaced, placed,
      List.filter_filter, here]
    refine List.filter_congr fun other _ => ?_
    by_cases same : other.ordinal = (place : Int) + 1
    · simp [same]
      omega
    · simp [same]
  refine ⟨field, ?_, isPlaced, alone⟩
  unfold unionField?
  rw [← List.head?_filter, List.filter_reverse]
  push_cast
  rw [alone]
  rfl

theorem union_fields_eq_some (placing : node.Placing) {place : Nat} {field : Field}
    (found : node.unionFields[place]? = some field) : field ∈ node.placed ∧
      node.fields.filter (fun other => other.ordinal == (place : Int) + 1) = [field] := by
  unfold unionFields at found
  rw [List.getElem?_map, Option.map_eq_some_iff] at found
  obtain ⟨index, inRange, rfl⟩ := found
  obtain ⟨inside, rfl⟩ := List.getElem?_eq_some_iff.mp inRange
  rw [List.length_range] at inside
  obtain ⟨field, here, isPlaced, alone⟩ := placing.field_at inside
  rw [List.getElem_range, here]
  exact ⟨isPlaced, alone⟩

/-- The fields of the union by place are the fields that claim a place, each once. -/
theorem union_fields_perm (placing : node.Placing) : node.unionFields.Perm node.placed := by
  have ordinals : node.unionFields.map Field.ordinal =
      (List.range node.unionSize.toNat).map fun place : Nat => (place : Int) + 1 := by
    unfold unionFields
    rw [List.map_map]
    refine List.map_congr_left fun place inRange => ?_
    obtain ⟨field, here, _, alone⟩ := placing.field_at (List.mem_range.mp inRange)
    have isAlone : field ∈ node.fields.filter (fun other => other.ordinal == (place : Int) + 1) := by
      rw [alone]
      exact List.mem_singleton_self field
    simpa [here] using (List.mem_filter.mp isAlone).2
  have once : (node.unionFields.map Field.ordinal).Nodup := by
    rw [ordinals]
    exact (placing.ordinals_perm.nodup_iff).mp placing.distinct
  have isPlaced : node.unionFields ⊆ node.placed := by
    intro field listed
    obtain ⟨place, found⟩ := List.mem_iff_getElem?.mp listed
    exact (placing.union_fields_eq_some found).1
  refine (List.subperm_of_subset (List.Nodup.of_map _ once) isPlaced).perm_of_length_le ?_
  have count := placing.count
  rw [length_union_fields]
  omega

end Placing

theorem check_members_named (passed : node.checkMembers nodes = .ok ()) (isStruct : node.kind = .struct)
    {field : Field} (member : field ∈ node.fields) (plain : field.isGroup = false) : field.name ≠ "" := by
  have checked := check_members_field passed isStruct member
  have unnamed : ¬(field.name == "") = true := by
    intro unnamed
    unfold checkField at checked
    split at checked
    · rw [if_pos unnamed] at checked
      cases checked
    · rw [if_pos unnamed] at checked
      cases checked
    · rename_i isGroup
      simp [Field.isGroup, isGroup] at plain
    · cases checked
  simpa using unnamed

end Node

namespace Stub

def Declaration.which? : Declaration → Option String
  | .method signature =>
      if signature.name = "which" ∧ signature.decorators = [] then some signature.returns else none
  | _ => none

namespace Flattens

variable {graph : Graph} {owner : Node} {fields : List Field} {members : List Member}

theorem placed_sublist (flattens : Flattens graph owner fields members) :
    ((fields.filter fun field => decide (0 < field.ordinal)).map fun field => (field, owner)).Sublist
      (members.map fun member => (member.field, member.owner)) := by
  induction flattens with
  | nil => exact .slnil
  | @slot owner field rest members _ _ induction =>
      rw [List.filter_cons, List.map_cons]
      split
      · exact induction.cons_cons _
      · exact induction.cons _
  | @named owner body field rest members _ _ _ _ induction =>
      rw [List.filter_cons, List.map_cons]
      split
      · exact induction.cons_cons _
      · exact induction.cons _
  | @anonymous owner body field rest parts members _ _ _ _ outside _ _ _ others =>
      rw [List.filter_cons_of_neg (by simpa using outside), List.map_append]
      exact others.trans (List.sublist_append_right _ _)

theorem group_named (flattens : Flattens graph owner fields members) {field : Field}
    (listed : field ∈ fields) (isGroup : field.isGroup = true) (inUnion : 0 < field.ordinal) :
    field.name ≠ "" := by
  obtain ⟨parts, shown, _⟩ := flattens.part listed
  cases shown with
  | slot plain _ =>
      rw [plain] at isGroup
      cases isGroup
  | named _ named _ _ => exact named
  | anonymous _ _ _ _ outside _ _ => omega

end Flattens

section Shown

variable {typed : Meaning → String → Prop} {node : Node} {internal : String} {members : List Member}

theorem which?_which (hasUnion : node.hasUnion = true) : (Struct.which node).filterMap Declaration.which? =
    [literal (node.unionFields.map Field.name)] := by
  unfold Struct.which
  rw [if_pos hasUnion]
  rfl

theorem Struct.IsReader.which (hasUnion : node.hasUnion = true) {reader : List Declaration}
    (shape : IsReader typed node internal members (.class "Reader" ["_DynamicStructReader"] [] reader)) :
    reader.filterMap Declaration.which? = [literal (node.unionFields.map Field.name)] := by
  obtain ⟨properties, ⟨⟩, shown⟩ := shape
  have unread : properties.filterMap Declaration.which? = [] := by
    refine List.filterMap_eq_nil_iff.mpr (Written.forall shown fun _ _ _ _ => ?_)
    simp [Declaration.which?]
  rw [List.filterMap_append, List.filterMap_append, unread, which?_which hasUnion]
  simp [Declaration.which?]

theorem Struct.IsBuilder.which (hasUnion : node.hasUnion = true) {builder : List Declaration}
    (shape : IsBuilder typed node internal members (.class "Builder" ["_DynamicStructBuilder"] [] builder)) :
    builder.filterMap Declaration.which? = [literal (node.unionFields.map Field.name)] := by
  obtain ⟨blocks, initial, ⟨⟩, accessed, made⟩ := shape
  have unread : blocks.flatten.filterMap Declaration.which? = [] := by
    refine List.filterMap_eq_nil_iff.mpr fun declaration listed => ?_
    obtain ⟨block, inBlocks, inBlock⟩ := List.mem_flatten.mp listed
    obtain ⟨member, _, type, assigned, _, _, rfl⟩ := Lists.exists_of_mem_left accessed.flip inBlocks
    rcases List.mem_cons.mp inBlock with rfl | setter
    · simp [Declaration.which?]
    · split at setter
      · cases setter
      · cases List.mem_singleton.mp setter
        simp [Declaration.which?]
  have uninitial : initial.filterMap Declaration.which? = [] := by
    refine List.filterMap_eq_nil_iff.mpr fun declaration listed => ?_
    obtain ⟨signature, rfl, named, _⟩ := made.named declaration listed
    simp [Declaration.which?, named]
  simp only [List.filterMap_append, unread, uninitial, which?_which hasUnion]
  cases node.isGroup <;> simp [Declaration.which?]

end Shown

/-- The fields of the union of an accepted struct have names of their own, and each is a member. -/
theorem Flattens.labels {graph : Graph} {node : Node} {members : List Member}
    (flattens : Flattens graph node node.fields members)
    (distinct : (members.map fun member => member.field.name).Nodup) (placing : node.Placing)
    (named : ∀ field ∈ node.fields, field.isGroup = false → field.name ≠ "") :
    (node.unionFields.map Field.name).Nodup ∧ ∀ field ∈ node.unionFields, field.name ≠ "" ∧
      ∃ member ∈ members, member.field = field ∧ member.owner = node := by
  have positive : node.placed = node.fields.filter fun field => decide (0 < field.ordinal) := by
    refine List.filter_congr fun field listed => ?_
    have lower := (placing.bounds field listed).1
    simp only [decide_eq_decide]
    omega
  have placed := flattens.placed_sublist
  rw [← positive] at placed
  constructor
  · have names := (placed.map fun pair => pair.1.name).nodup (by simpa [Function.comp_def] using distinct)
    rw [List.map_map] at names
    exact (placing.union_fields_perm.map Field.name).nodup_iff.mpr names
  · intro field listed
    have isPlaced : field ∈ node.placed := placing.union_fields_perm.mem_iff.mp listed
    have inFields := List.mem_filter.mp (positive ▸ isPlaced)
    refine ⟨?_, ?_⟩
    · cases isGroup : field.isGroup with
      | false => exact named field inFields.1 isGroup
      | true => exact flattens.group_named inFields.1 isGroup (of_decide_eq_true inFields.2)
    · obtain ⟨member, isMember, same⟩ :=
        List.mem_map.mp (placed.subset (List.mem_map_of_mem isPlaced))
      exact ⟨member, isMember, congrArg Prod.fst same, congrArg Prod.snd same⟩

/-- In an accepted struct with a union each place belongs to one field, and every field that claims a
place has it; once the class of the struct is written, the accessors of the union name these fields by
place, and each of them is a member that the views show under a name of its own. -/
theorem declare_labels_union {entries : List (Option Node)} {requested : List Id} {graph : Graph}
    (built : Graph.build entries requested = .ok graph) {node : Node} (inGraph : node ∈ graph.nodes)
    (isStruct : node.kind = .struct) (hasUnion : 0 < node.unionSize) :
    (node.unionFields.length : Int) = node.unionSize ∧
    (∀ (place : Nat) (field : Field), node.unionFields[place]? = some field →
      node.fields.filter (fun other => other.ordinal == (place : Int) + 1) = [field]) ∧
    node.unionFields.Perm (node.fields.filter fun field => decide (field.ordinal ≠ 0)) ∧
    ∀ (plan : Plan) (nested body : Node → Step Draft (List Declaration)) (before after : Draft)
      (declaration : Declaration), plan.graph = graph →
      (Struct.declare plan nested body node).Returns before declaration after →
      ∃ labels members dict reader builder back, labels = node.unionFields.map Field.name ∧
        Member.ofNode graph node = .ok members ∧ HoldsViews declaration dict reader builder back ∧
        reader.filterMap Declaration.which? = [literal labels] ∧
        builder.filterMap Declaration.which? = [literal labels] ∧
        (∀ label ∈ labels, label ≠ "") ∧ labels.Nodup ∧
        (∀ label ∈ labels, ∃ member ∈ members, member.field.name = label ∧ member.owner = node) ∧
        Aligned node members dict reader builder back := by
  have checked := (Node.check_ok ((Graph.build_ok built).2.2.2.2 node inGraph)).2.2.2
  have placing := Node.check_members_placing checked isStruct hasUnion
  refine ⟨?_, fun place field found => (placing.union_fields_eq_some found).2, placing.union_fields_perm, ?_⟩
  · rw [Node.length_union_fields]
    omega
  rintro plan nested body before after declaration rfl returns
  have hasWhich : node.hasUnion = true := decide_eq_true hasUnion
  obtain ⟨internal, members, dict, reader, builder, back, flattened, holds, isDict, isReader, isBuilder,
    messages⟩ := declare_struct_views returns
  obtain ⟨distinct, each⟩ := (Flattens.of_of_node_from flattened).labels (nodup_field_names flattened)
    placing fun field listed => Node.check_members_named checked isStruct listed
  refine ⟨_, members, dict, reader, builder, back, rfl, flattened, holds, isReader.which hasWhich,
    isBuilder.which hasWhich, ?_, distinct, ?_, .of_shapes isDict isReader isBuilder messages⟩
  · intro label listed
    obtain ⟨field, inUnion, rfl⟩ := List.mem_map.mp listed
    exact (each field inUnion).1
  · intro label listed
    obtain ⟨field, inUnion, rfl⟩ := List.mem_map.mp listed
    obtain ⟨member, isMember, rfl, owned⟩ := (each field inUnion).2
    exact ⟨member, isMember, rfl, owned⟩

/-- A struct whose union is declared from the last place to the first, around a slot outside of it. -/
def outline : Graph where
  nodes := [
    { id := 1, kind := .file, name := "art", displayName := "art", nested := [2] },
    { id := 2, kind := .struct, name := "Outline", displayName := "Outline", scope := 1, unionSize := 3
      fields := [
        { name := "none", type := some { kind := .text }, ordinal := 3 },
        { name := "box", kind := .group, group := 3, ordinal := 2 },
        { name := "color", type := some { kind := .text } },
        { name := "circle", type := some { kind := .text }, ordinal := 1 }] },
    { id := 3, kind := .struct, isGroup := true, name := "box", displayName := "box", scope := 2
      fields := [{ name := "color", type := some { kind := .text } }] }]
  requested := [1]

theorem declare_labels_union_outline :
    outline.nodes[1].unionFields.map Field.name = ["circle", "box", "none"] ∧
    ∃ plan before declaration after dict reader builder back, plan.graph = outline ∧
      (Struct.declare plan (fun _ => pure []) (declareFrom plan 1) outline.nodes[1]).Returns before
        declaration after ∧
      HoldsViews declaration dict reader builder back ∧
      reader.filterMap Declaration.which? = ["Literal[\"circle\", \"box\", \"none\"]"] ∧
      builder.filterMap Declaration.which? = ["Literal[\"circle\", \"box\", \"none\"]"] := by
  have built : Graph.build (outline.nodes.map some) [1] = .ok outline := rfl
  have inGraph : outline.nodes[1] ∈ outline.nodes := List.getElem_mem _
  obtain ⟨_, _, _, declares⟩ := declare_labels_union built inGraph rfl (by decide)
  have names : outline.nodes[1].unionFields.map Field.name = ["circle", "box", "none"] := by
    decide +kernel
  have text : literal ["circle", "box", "none"] = "Literal[\"circle\", \"box\", \"none\"]" := by
    decide +kernel
  let plan : Plan := ⟨outline, {}, [], {}⟩
  let before : Draft := {
    registry := ((Generation.survey outline [1]).outcome {}).2
    file := outline.nodes[0] }
  have seen : (((Struct.declare plan (fun _ => pure []) (declareFrom plan 1) outline.nodes[1]).outcome
      before).1.toOption.any fun _ => true) = true := by decide +kernel
  obtain ⟨declaration, after, returns, _⟩ := Step.Returns.of_any seen
  obtain ⟨labels, members, dict, reader, builder, back, rfl, _, holds, inReader, inBuilder, _⟩ :=
    declares plan _ _ before after declaration rfl returns
  rw [names, text] at inReader inBuilder
  exact ⟨names, plan, before, declaration, after, dict, reader, builder, back, rfl, returns, holds, inReader,
    inBuilder⟩

end Stub

end SchemaStubs
