import SchemaStubs.Proofs.Stub.Drafts
import SchemaStubs.Proofs.Walk.Renaming
import SchemaStubs.Stub.File

/-!
The draft of a stub in a schema whose nodes have other names. A draft looks nodes up by their identifiers
and compares them with one another, so each of its steps goes on as before; and what it writes down is made
of the names of declarations, not of identifiers.
-/

namespace SchemaStubs.Stub

open Step

structure Plan.Renamed (anew : Relabeling) (one two : Plan) : Prop where
  graph : one.graph.Renamed anew two.graph
  options : two.options = one.options
  order : two.order = one.order.map anew
  references : ∀ target, two.references.get? (anew target) =
    (one.references.get? target).map (Reference.rename anew)

section Drafts

variable (anew : Relabeling)

def Import.rename (entry : Import) : Import :=
  { entry with owner := anew entry.owner }

namespace Draft

def rename (draft : Draft) : Draft where
  registry := draft.registry.rename anew
  file := draft.file.rename anew
  imports := draft.imports.map (Import.rename anew)
  locals := draft.locals.translate (Subject.rename anew) id
  usesAnyPointer := draft.usesAnyPointer
  bindings := draft.bindings.translate id anew

def Follows (one two : Draft) : Prop :=
  ∃ journal, two = { one.rename anew with registry := { one.registry.rename anew with journal } }

section Answers

variable {anew} {one two : Draft} (follows : Follows anew one two)

include follows

theorem Follows.registry : Registry.Follows anew one.registry two.registry := by
  obtain ⟨journal, rfl⟩ := follows
  exact ⟨journal, rfl⟩

theorem Follows.file : two.file = one.file.rename anew := by
  obtain ⟨journal, rfl⟩ := follows
  rfl

theorem Follows.usesAnyPointer : two.usesAnyPointer = one.usesAnyPointer := by
  obtain ⟨journal, rfl⟩ := follows
  rfl

theorem Follows.takenNames (subject : Subject) :
    two.takenNames (subject.rename anew) = one.takenNames subject := by
  have locals : two.localNames (subject.rename anew) = one.localNames subject := by
    obtain ⟨journal, rfl⟩ := follows
    have others : (one.locals.entries.map (Prod.map (Subject.rename anew) id)).filter (fun entry =>
        entry.1 != subject.rename anew) =
          (one.locals.entries.filter fun entry => entry.1 != subject).map
            (Prod.map (Subject.rename anew) id) :=
      Lists.filter_image (fun entry => by simp [bne]) one.locals.entries
    unfold localNames
    change (((one.locals.entries.map (Prod.map (Subject.rename anew) id)).filter _).flatMap
      Prod.snd).map Prod.snd = _
    rw [others, List.flatMap_map]
    rfl
  unfold Draft.takenNames
  rw [locals, follows.file, Node.rename_id, follows.registry.namesIn]

end Answers

section Steps

variable {anew}

theorem lockstep_modify {change change' : Draft → Draft}
    (each : ∀ draft registry, change' { draft.rename anew with registry } =
      { (change draft).rename anew with registry })
    (same : ∀ draft, (change draft).registry = draft.registry) :
    Lockstep (Follows anew) id (modify change : Step Draft Unit) (modify change') := by
  refine .of_modify fun one two follows => ?_
  obtain ⟨journal, rfl⟩ := follows
  exact ⟨journal, by rw [each, same]⟩

theorem lockstep_in_registry {α : Type} {image : α → α} {step step' : Step Registry α}
    (steps : Lockstep (Registry.Follows anew) image step step') :
    Lockstep (Follows anew) image (inRegistry step) (inRegistry step') := by
  refine .of_on_part steps (fun _ _ follows => follows.registry) ?_
  rintro one _ reached _ ⟨journal, rfl⟩ ⟨later, rfl⟩
  exact ⟨later, rfl⟩

theorem lockstep_note (event event' : Journal.Event) :
    Lockstep (Follows anew) id (note event) (note event') :=
  lockstep_in_registry (Registry.lockstep_note event event')

theorem bind_rename (name : String) (owner : Id) (bindings : Import.Bindings) :
    Alike (Table.translate id anew) (Import.bind name owner bindings)
      (Import.bind name (anew owner) (bindings.translate id anew)) := by
  have held : (bindings.translate id anew).get? name = (bindings.get? name).map anew :=
    Table.get?_translate Function.injective_id bindings name
  unfold Import.bind
  rw [held]
  cases bindings.get? name with
  | some other => exact .of_ite anew.eq_iff (fun _ => .ok bindings) fun _ => .error _ _
  | none => exact .of_ok (Table.set_translate Function.injective_id bindings name owner)

theorem lockstep_bind (name : String) (owner : Id) :
    Lockstep (Follows anew) id (bind name owner) (bind name (anew owner)) := by
  refine .of_get_bind fun one two follows => ?_
  obtain ⟨journal, rfl⟩ := follows
  exact .of_bind (.of_of_except (bind_rename name owner one.bindings)) fun bindings =>
    .of_set ⟨journal, rfl⟩

theorem lockstep_internal_of (node : Node) :
    Lockstep (Follows anew) id (internalOf node) (internalOf (node.rename anew)) := by
  refine .of_get_bind fun one two follows => ?_
  rw [Node.rename_id, follows.registry.internal? node.id]
  split
  · exact .of_ite Iff.rfl (fun _ => .of_fail _ _) fun _ => .of_pure rfl
  · exact .of_fail _ _

theorem lockstep_locals_of (subject : Subject) (file : String) (aliases : List (Role × String)) :
    Lockstep (Follows anew) id (localsOf subject file aliases)
      (localsOf (subject.rename anew) file aliases) := by
  refine .of_get_bind fun one two follows => ?_
  have taken := follows.takenNames subject
  obtain ⟨journal, rfl⟩ := follows
  have known : (one.rename anew).locals.get? (subject.rename anew) = one.locals.get? subject :=
    (Table.get?_translate (Subject.rename_injective anew) one.locals subject).trans
      (congrFun Option.map_id _)
  dsimp only
  rw [known, taken]
  split
  · exact .of_pure rfl
  · rename_i unknown
    refine .of_bind (.of_set ⟨journal, ?_⟩) fun _ => .of_pure rfl
    exact congrArg (fun locals => ({ one.rename anew with
      locals, registry := { one.registry.rename anew with journal } } : Draft))
        (Table.set_translate (Subject.rename_injective anew) one.locals subject _)

theorem add_rename (entry : Import) (imports : List Import) :
    Import.add (entry.rename anew) (imports.map (Import.rename anew)) =
      (Import.add entry imports).map (Import.rename anew) := by
  induction imports with
  | nil => rfl
  | cons other rest induction =>
      rw [List.map_cons, Import.add, Import.add, induction]
      by_cases same : other.fromModule = entry.fromModule ∧ other.localName = entry.localName
      · rw [if_pos same]
        exact if_pos same
      · rw [if_neg same]
        exact if_neg same

theorem lockstep_add_import (entry : Import) :
    Lockstep (Follows anew) id (addImport entry) (addImport (entry.rename anew)) :=
  lockstep_modify (fun draft registry =>
    congrArg (fun imports => ({ draft.rename anew with imports, registry } : Draft))
      (add_rename entry draft.imports)) fun _ => rfl

end Steps

end Draft

end Drafts

theorem Plan.Renamed.nodes {anew : Relabeling} {plan plan' : Plan} (renamed : plan.Renamed anew plan') :
    plan'.nodes = plan.nodes.map (Node.rename anew) := by
  unfold Plan.nodes
  rw [renamed.order, List.filterMap_map, List.map_filterMap]
  exact List.filterMap_congr fun target _ => renamed.graph.node? target

section Types

variable {anew : Relabeling} {plan plan' : Plan} (renamed : plan.Renamed anew plan')

include renamed

namespace Draft

theorem lockstep_import_alias (file : Node) (subject : Subject) (aliases names : List (Role × String))
    (role : Role) :
    Lockstep (Follows anew) id (importAlias plan file subject aliases names role)
      (importAlias plan' (file.rename anew) (subject.rename anew) aliases names role) := by
  unfold importAlias
  split
  · exact .of_fail _ _
  · refine .of_get_bind fun one two follows => ?_
    dsimp only
    rw [follows.file, renamed.options]
    exact .of_bind (lockstep_add_import _) fun _ => .of_pure rfl

theorem lockstep_import_aliases (target : Id) (file : Node) (roles : List Role) :
    Lockstep (Follows anew) id (importAliases plan target file roles)
      (importAliases plan' (anew target) (file.rename anew) roles) := by
  refine .of_bind (lockstep_in_registry (Registry.lockstep_get_aliases { node := target })) fun aliases => ?_
  refine .of_bind (lockstep_locals_of { node := target } file.name aliases) fun names => ?_
  have steps := Lockstep.of_mapM_id fun role (_ : role ∈ roles) =>
    lockstep_import_alias renamed file { node := target } aliases names role
  rwa [List.map_id'] at steps

theorem lockstep_declaring_file (source source' : Id) (reference : Reference) :
    Lockstep (Follows anew) (Node.rename anew) (declaringFile plan source reference)
      (declaringFile plan' source' (reference.rename anew)) := by
  unfold declaringFile
  rw [show (reference.rename anew).file = anew reference.file from rfl,
    renamed.graph.node? reference.file]
  cases plan.graph.node? reference.file with
  | none => exact .of_fail _ _
  | some file => exact .of_pure rfl

theorem lockstep_foreign_type (reference : Reference) (kind : TypeKind) (view : View) :
    Lockstep (Follows anew) id (foreignType plan reference kind view)
      (foreignType plan' (reference.rename anew) kind view) := by
  refine .of_get_bind fun one two follows => ?_
  refine .of_bind (lockstep_declaring_file renamed _ _ reference) fun file => ?_
  refine .of_ite Iff.rfl (fun _ => .of_pure rfl) fun _ => ?_
  exact .of_bind (lockstep_import_aliases renamed reference.target file _) fun names => .of_pure rfl

theorem lockstep_reference_to (source source' target : Id) (via : String) :
    Lockstep (Follows anew) (Reference.rename anew) (referenceTo plan source target via)
      (referenceTo plan' source' (anew target) via) := by
  unfold referenceTo
  rw [renamed.references target]
  cases plan.references.get? target with
  | none => exact .of_fail _ _
  | some reference => exact .of_ite Iff.rfl (fun _ => .of_fail _ _) fun _ => .of_pure rfl

theorem lockstep_node_type (view : View) (kind : TypeKind) (target : Id) :
    Lockstep (Follows anew) id (nodeType plan view kind target)
      (nodeType plan' view kind (anew target)) := by
  refine .of_get_bind fun one two follows => ?_
  refine .of_bind (lockstep_reference_to renamed _ _ target "type") fun reference => ?_
  refine .of_ite ?_ (fun _ => ?_) fun _ => lockstep_foreign_type renamed reference kind view
  · rw [follows.file]
    exact anew.eq_iff
  · exact .of_bind (lockstep_in_registry (Registry.lockstep_mark_referenced target)) fun _ => .of_pure rfl

theorem lockstep_write (view : View) (type : SchemaType) :
    Lockstep (Follows anew) id ((spelling plan view).write type)
      ((spelling plan' view).write (type.rename anew)) := by
  obtain ⟨kind, element, target, brand, scope, index⟩ := type
  have leaf := lockstep_node_type renamed view kind target
  have held : ∀ inside, element = some inside →
      Lockstep (Follows anew) id ((spelling plan view).write inside)
        ((spelling plan' view).write (inside.rename anew)) := by
    intro inside _
    exact lockstep_write view inside
  cases kind <;> cases element <;> rw [SchemaType.rename] <;> unfold Spelling.write <;>
    first
      | exact .of_pure rfl
      | exact .of_fail _ _
      | exact leaf
      | exact .of_bind (held _ rfl) fun _ => .of_pure rfl

theorem lockstep_type_text (view : View) (type : Option SchemaType) :
    Lockstep (Follows anew) id (typeText plan view type)
      (typeText plan' view (type.map (SchemaType.rename anew))) := by
  cases type with
  | none => exact .of_get_bind fun _ _ _ => .of_fail _ _
  | some type =>
      refine .of_bind (lockstep_write renamed view type) fun text => ?_
      refine .of_ite Iff.rfl (fun _ => ?_) fun _ => .of_pure rfl
      exact .of_bind (lockstep_modify (fun _ _ => rfl) fun _ => rfl) fun _ => .of_pure rfl

end Draft

end Types

/-! Members -/

namespace Member

def rename (anew : Relabeling) (member : Member) : Member where
  field := member.field.rename anew
  owner := member.owner.rename anew
  group := member.group.map (Node.rename anew)

section Members

variable {anew : Relabeling}

@[simp] theorem rename_name (member : Member) : (member.rename anew).name = member.name :=
  rfl

theorem check_names_rename (seen : List (String × Id)) (members : List Member) :
    Alike id (checkNames seen members)
      (checkNames (seen.map (Prod.map id anew)) (members.map (rename anew))) := by
  induction members generalizing seen with
  | nil => exact .ok ()
  | cons member rest induction =>
      have known : (seen.map (Prod.map id anew)).lookup member.field.name =
          (seen.lookup member.field.name).map anew :=
        Table.get?_translate Function.injective_id ⟨seen⟩ member.field.name
      rw [List.map_cons, checkNames, checkNames]
      dsimp only [rename, Field.rename_name]
      rw [known]
      cases seen.lookup member.field.name with
      | some owner => exact .error _ _
      | none => exact induction ((member.field.name, member.owner.id) :: seen)

variable {graph graph' : Graph} (renamed : graph.Renamed anew graph')

include renamed

theorem of_node_from_rename (bound : Nat) (node : Node) :
    Alike (List.map (rename anew)) (ofNodeFrom graph bound node)
      (ofNodeFrom graph' bound (node.rename anew)) := by
  induction bound generalizing node with
  | zero => exact .error _ _
  | succ bound induction =>
      have each : ∀ field ∈ node.fields, Alike (List.map (rename anew))
          (ofField graph (ofNodeFrom graph bound) node field)
          (ofField graph' (ofNodeFrom graph' bound) (node.rename anew) (field.rename anew)) := by
        intro field _
        refine .of_ite Iff.rfl (fun _ => .ok ([{ field, owner := node }] : List Member)) fun _ => ?_
        rw [Field.rename_group, renamed.node? field.group]
        cases graph.node? field.group with
        | none => exact .error _ _
        | some body =>
            refine .of_ite Iff.rfl
              (fun _ => .ok ([{ field, owner := node, group := some body }] : List Member)) fun _ => ?_
            exact .of_ite Iff.rfl (fun _ => .error _ _) fun _ => induction body
      refine .of_bind (.of_mapM each) fun members _ => ?_
      have flat : (members.map (List.map (rename anew))).flatten =
          members.flatten.map (rename anew) := List.map_flatten.symm
      rw [flat]
      exact .of_bind (check_names_rename [] members.flatten) fun _ _ => .ok members.flatten

theorem of_node_rename (node : Node) :
    Alike (List.map (rename anew)) (ofNode graph node) (ofNode graph' (node.rename anew)) := by
  unfold ofNode
  rw [renamed.size]
  exact of_node_from_rename renamed _ node

omit renamed in
theorem lockstep_type {plan plan' : Plan} (renamed : plan.Renamed anew plan') (view : View)
    (member : Member) :
    Lockstep (Draft.Follows anew) id (member.type plan view) ((member.rename anew).type plan' view) := by
  unfold Member.type
  dsimp only [rename]
  cases member.group with
  | none => exact Draft.lockstep_type_text renamed view member.field.type
  | some body => exact .of_bind (Draft.lockstep_internal_of body) fun _ => .of_pure rfl

end Members

end Member

/-! Declarations -/

section Declarations

variable {anew : Relabeling} {plan plan' : Plan}

theorem union_fields_rename (node : Node) :
    (node.rename anew).unionFields.map Field.name = node.unionFields.map Field.name := by
  have field : ∀ ordinal, (node.rename anew).unionField? ordinal =
      (node.unionField? ordinal).map (Field.rename anew) := by
    intro ordinal
    unfold Node.unionField?
    rw [Node.rename_fields, ← List.map_reverse, List.find?_map]
    rfl
  unfold Node.unionFields
  rw [List.map_map, List.map_map, Node.rename_union_size]
  refine List.map_congr_left fun index _ => ?_
  rw [Function.comp_apply, Function.comp_apply, field]
  cases node.unionField? (index + 1) <;> rfl

theorem which_rename (node : Node) : Struct.which (node.rename anew) = Struct.which node := by
  unfold Struct.which
  rw [union_fields_rename, Node.rename_has_union]

variable (renamed : plan.Renamed anew plan')

include renamed

namespace Struct

theorem lockstep_dict_view (members : List Member) :
    Lockstep (Draft.Follows anew) id (dictView plan members)
      (dictView plan' (members.map (Member.rename anew))) := by
  refine .of_bind (.of_mapM_id fun member _ => ?_) fun _ => .of_pure rfl
  exact .of_bind (Member.lockstep_type renamed .dict member) fun _ => .of_pure rfl

theorem lockstep_reader_view (node : Node) (internal : String) (members : List Member) :
    Lockstep (Draft.Follows anew) id (readerView plan node internal members)
      (readerView plan' (node.rename anew) internal (members.map (Member.rename anew))) := by
  unfold readerView
  rw [which_rename]
  refine .of_bind (.of_mapM_id fun member _ => ?_) fun _ => .of_pure rfl
  exact .of_bind (Member.lockstep_type renamed .reader member) fun _ => .of_pure rfl

theorem lockstep_accessors (member : Member) :
    Lockstep (Draft.Follows anew) id (accessors plan member)
      (accessors plan' (member.rename anew)) := by
  refine .of_bind (Member.lockstep_type renamed .builder member) fun type => ?_
  have assigned := Member.lockstep_type renamed .setter member
  obtain ⟨field, owner, _ | body⟩ := member
  · exact .of_bind assigned fun _ => .of_pure rfl
  · exact .of_pure rfl

theorem lockstep_initializer (member : Member) :
    Lockstep (Draft.Follows anew) id (initializer plan member)
      (initializer plan' (member.rename anew)) := by
  have struct : initializesStruct (member.rename anew) = initializesStruct member := by
    unfold initializesStruct
    dsimp only [Member.rename]
    rw [Option.isSome_map, Field.rename_type, Option.any_map]
    simp
  have list : initializesList (member.rename anew) = initializesList member := by
    unfold initializesList
    dsimp only [Member.rename]
    rw [Option.isNone_map, Field.rename_type, Option.any_map]
    simp
  unfold initializer
  dsimp only
  rw [struct, list]
  have built := Member.lockstep_type renamed .builder member
  refine .of_ite Iff.rfl (fun _ => .of_bind built fun _ => .of_pure rfl) fun _ => ?_
  exact .of_ite Iff.rfl (fun _ => .of_bind built fun _ => .of_pure rfl) fun _ => .of_pure rfl

theorem lockstep_builder_view (node : Node) (internal : String) (members : List Member) :
    Lockstep (Draft.Follows anew) id (builderView plan node internal members)
      (builderView plan' (node.rename anew) internal (members.map (Member.rename anew))) := by
  have initialized : Lockstep (Draft.Follows anew) id (initializers plan members)
      (initializers plan' (members.map (Member.rename anew))) :=
    .of_bind (.of_mapM_id fun member _ => lockstep_initializer renamed member) fun _ => .of_pure rfl
  unfold builderView
  rw [which_rename]
  refine .of_bind (.of_mapM_id fun member _ => lockstep_accessors renamed member) fun _ => ?_
  exact .of_bind initialized fun _ => .of_pure rfl

theorem lockstep_new_message (internal : String) (members : List Member) :
    Lockstep (Draft.Follows anew) id (newMessage plan internal members)
      (newMessage plan' internal (members.map (Member.rename anew))) := by
  unfold newMessage
  rw [List.isEmpty_map]
  refine .of_bind (.of_mapM_id fun member _ => ?_) fun _ => .of_pure rfl
  exact .of_bind (Member.lockstep_type renamed .setter member) fun _ => .of_pure rfl

theorem lockstep_views (node : Node) (internal : String) (members : List Member) :
    Lockstep (Draft.Follows anew) id (views plan node internal members)
      (views plan' (node.rename anew) internal (members.map (Member.rename anew))) :=
  .of_bind (lockstep_dict_view renamed members) fun _ =>
    .of_bind (lockstep_reader_view renamed node internal members) fun _ =>
      .of_bind (lockstep_builder_view renamed node internal members) fun _ => .of_pure rfl

theorem lockstep_declare {nested nested' body body' : Node → Step Draft (List Declaration)}
    (nests : ∀ node, Lockstep (Draft.Follows anew) id (nested node) (nested' (node.rename anew)))
    (bodies : ∀ node, Lockstep (Draft.Follows anew) id (body node) (body' (node.rename anew)))
    (node : Node) :
    Lockstep (Draft.Follows anew) id (declare plan nested body node)
      (declare plan' nested' body' (node.rename anew)) := by
  refine .of_bind (Draft.lockstep_internal_of node) fun internal => ?_
  refine .of_bind (Draft.lockstep_in_registry (Registry.lockstep_mark_declared node.id)) fun _ => ?_
  refine .of_bind (.of_of_except (Member.of_node_rename renamed.graph node)) fun members => ?_
  have groups : (members.map (Member.rename anew)).filterMap Member.group =
      (members.filterMap Member.group).map (Node.rename anew) := by
    rw [List.filterMap_map, List.map_filterMap]
    rfl
  dsimp only
  rw [groups]
  refine .of_ite_bind Iff.rfl (fun _ => .of_pure rfl) (fun _ => nests node) fun inner => ?_
  refine .of_bind (.of_mapM_id fun group _ => bodies group) fun groups => ?_
  refine .of_bind (lockstep_views renamed node internal members) fun views => ?_
  refine .of_ite Iff.rfl (fun _ => .of_pure rfl) fun _ => ?_
  exact .of_bind (lockstep_new_message renamed internal members) fun _ => .of_pure rfl

end Struct

omit renamed in
theorem Enum.lockstep_declare (node : Node) :
    Lockstep (Draft.Follows anew) id (Enum.declare node) (Enum.declare (node.rename anew)) := by
  refine .of_ite Iff.rfl (fun _ => .of_fail _ _) fun _ => ?_
  refine .of_bind (Draft.lockstep_internal_of node) fun internal => ?_
  exact .of_bind (Draft.lockstep_in_registry (Registry.lockstep_mark_declared node.id)) fun _ =>
    .of_pure rfl

namespace Interface

theorem lockstep_superclass (node : Node) (target : Id) :
    Lockstep (Draft.Follows anew) id (superclass plan node target)
      (superclass plan' (node.rename anew) (anew target)) := by
  refine .of_get_bind fun one two follows => ?_
  refine .of_bind (Draft.lockstep_reference_to renamed _ _ target "superclass") fun reference => ?_
  refine .of_ite ?_ (fun _ => ?_) fun _ => ?_
  · rw [follows.file]
    exact anew.eq_iff
  · exact .of_bind (Draft.lockstep_in_registry (Registry.lockstep_mark_referenced target)) fun _ =>
      .of_pure rfl
  · refine .of_bind (Draft.lockstep_declaring_file renamed _ _ reference) fun file => ?_
    exact .of_bind (Draft.lockstep_import_aliases renamed target file _) fun names => .of_pure rfl

theorem lockstep_bases (node : Node) :
    Lockstep (Draft.Follows anew) id (bases plan node) (bases plan' (node.rename anew)) := by
  unfold bases
  rw [Node.rename_superclasses, List.isEmpty_map]
  refine .of_ite Iff.rfl (fun _ => .of_pure rfl) fun _ => ?_
  exact .of_bind (.of_mapM_id fun target _ => lockstep_superclass renamed node target) fun pairs =>
    .of_pure rfl

theorem lockstep_fields {α : Type} (view : View) (fields : List Field) (place : Field → String → α)
    (same : ∀ field type, place (field.rename anew) type = place field type) :
    Lockstep (Draft.Follows anew) id
      (fields.mapM fun field => do
        let type ← Draft.typeText plan view field.type
        pure (place field type))
      ((fields.map (Field.rename anew)).mapM fun field => do
        let type ← Draft.typeText plan' view field.type
        pure (place field type)) := by
  refine .of_mapM_id fun field _ => ?_
  exact .of_bind (Draft.lockstep_type_text renamed view field.type) fun type => .of_pure (same field type)

theorem lockstep_protocol (name : String) (fields : List Field) :
    Lockstep (Draft.Follows anew) id (protocol plan name fields)
      (protocol plan' name (fields.map (Field.rename anew))) :=
  .of_bind (lockstep_fields renamed .reader fields _ fun _ _ => rfl) fun _ => .of_pure rfl

theorem lockstep_protocols (internal stem : String) (method : Method) :
    Lockstep (Draft.Follows anew) id (protocols plan internal stem method)
      (protocols plan' internal stem (method.rename anew)) :=
  .of_bind (lockstep_protocol renamed _ method.params) fun _ =>
    .of_bind (lockstep_protocol renamed _ method.results) fun _ => .of_pure rfl

theorem lockstep_client_method (internal stem : String) (method : Method) :
    Lockstep (Draft.Follows anew) id (clientMethod plan internal stem method)
      (clientMethod plan' internal stem (method.rename anew)) :=
  .of_bind (lockstep_fields renamed .setter method.params _ fun _ _ => rfl) fun _ => .of_pure rfl

theorem lockstep_server_methods (internal stem : String) (method : Method) :
    Lockstep (Draft.Follows anew) id (serverMethods plan internal stem method)
      (serverMethods plan' internal stem (method.rename anew)) := by
  refine .of_bind (lockstep_fields renamed .reader method.params _ fun _ _ => rfl) fun params => ?_
  refine .of_bind (.of_mapM_id fun field _ => ?_) fun results => .of_pure rfl
  exact Draft.lockstep_type_text renamed .setter field.type

theorem lockstep_surface (internal : String) (method : Method) :
    Lockstep (Draft.Follows anew) id (surface plan internal method)
      (surface plan' internal (method.rename anew)) :=
  .of_bind (lockstep_protocols renamed internal _ method) fun _ =>
    .of_bind (lockstep_client_method renamed internal _ method) fun _ =>
      .of_bind (lockstep_server_methods renamed internal _ method) fun _ => .of_pure rfl

theorem lockstep_surfaces (node : Node) (internal : String) (stems : List String)
    (methods : List Method) :
    Lockstep (Draft.Follows anew) id (surfaces plan node internal stems methods)
      (surfaces plan' (node.rename anew) internal stems (methods.map (Method.rename anew))) := by
  induction methods generalizing stems with
  | nil => exact .of_pure rfl
  | cons method rest induction =>
      refine .of_ite Iff.rfl (fun _ => .of_fail _ _) fun _ => ?_
      refine .of_bind (lockstep_surface renamed internal method) fun first => ?_
      exact .of_bind (induction _) fun others => .of_pure rfl

theorem lockstep_declare {nested nested' : Node → Step Draft (List Declaration)}
    (nests : ∀ node, Lockstep (Draft.Follows anew) id (nested node) (nested' (node.rename anew)))
    (node : Node) :
    Lockstep (Draft.Follows anew) id (declare plan nested node)
      (declare plan' nested' (node.rename anew)) := by
  refine .of_bind (Draft.lockstep_internal_of node) fun internal => ?_
  refine .of_bind (Draft.lockstep_in_registry (Registry.lockstep_mark_declared node.id)) fun _ => ?_
  refine .of_bind (nests node) fun inner => .of_bind (lockstep_bases renamed node) fun bases => ?_
  exact .of_bind (lockstep_surfaces renamed node internal [] node.methods) fun _ => .of_pure rfl

end Interface

namespace AnyPointer

omit renamed in
theorem is_declared_in_rename {graph graph' : Graph} (renamed : graph.Renamed anew graph')
    (target file : Id) : isDeclaredIn graph' (anew target) (anew file) = isDeclaredIn graph target file := by
  have declared := renamed.file target
  unfold isDeclaredIn
  revert declared
  generalize graph.file target = here
  generalize graph'.file (anew target) = there
  rintro (declaring | ⟨fault, fault'⟩)
  · exact decide_eq_decide.mpr anew.eq_iff
  · rfl

theorem lockstep_target (node : Node) :
    Lockstep (Draft.Follows anew) id (target plan node) (target plan' (node.rename anew)) := by
  have sameRole : castRole? (node.rename anew) = castRole? node := rfl
  refine .of_get_bind fun one two follows => ?_
  rw [follows.file, Node.rename_id, Node.rename_id, is_declared_in_rename renamed.graph, sameRole]
  cases castRole? node with
  | none => exact .of_pure rfl
  | some role =>
      refine .of_ite Iff.rfl (fun _ => .of_pure rfl) fun _ => ?_
      refine .of_bind (Draft.lockstep_internal_of node) fun internal => ?_
      exact .of_bind (Draft.lockstep_in_registry (Registry.lockstep_get_alias { node := node.id } role))
        fun _ => .of_pure rfl

theorem lockstep_declare :
    Lockstep (Draft.Follows anew) id (declare plan) (declare plan') := by
  have steps : Lockstep (Draft.Follows anew) id (targets plan) (targets plan') := by
    unfold targets
    rw [renamed.nodes]
    exact .of_bind (.of_mapM_id fun node _ => lockstep_target renamed node) fun _ => .of_pure rfl
  exact .of_bind steps fun _ => .of_pure rfl

end AnyPointer

theorem lockstep_nested_declarations {declare declare' : Node → Step Draft (List Declaration)}
    (declares : ∀ node, Lockstep (Draft.Follows anew) id (declare node) (declare' (node.rename anew)))
    (node : Node) :
    Lockstep (Draft.Follows anew) id (nestedDeclarations plan declare node)
      (nestedDeclarations plan' declare' (node.rename anew)) := by
  refine .of_bind (.of_mapM_id fun target _ => ?_) fun inner => .of_pure rfl
  rw [renamed.graph.node? target]
  cases plan.graph.node? target with
  | none => exact .of_fail _ _
  | some nested => exact .of_ite Iff.rfl (fun _ => .of_pure rfl) fun _ => declares nested

theorem lockstep_declare_kind {nested nested' body body' : Node → Step Draft (List Declaration)}
    (nests : ∀ node, Lockstep (Draft.Follows anew) id (nested node) (nested' (node.rename anew)))
    (bodies : ∀ node, Lockstep (Draft.Follows anew) id (body node) (body' (node.rename anew)))
    (node : Node) :
    Lockstep (Draft.Follows anew) id (declareKind plan nested body node)
      (declareKind plan' nested' body' (node.rename anew)) := by
  refine .of_bind (Draft.lockstep_note _ _) fun _ => ?_
  rw [Node.rename_kind]
  split
  · exact .of_bind (Struct.lockstep_declare renamed nests bodies node) fun _ => .of_pure rfl
  · exact .of_bind (Enum.lockstep_declare node) fun _ => .of_pure rfl
  · exact .of_bind (Interface.lockstep_declare renamed nests node) fun _ => .of_pure rfl
  · have written := Draft.lockstep_type_text renamed .reader node.constType
    exact .of_bind (.of_bind written fun _ => .of_pure rfl) fun _ => .of_pure rfl
  · exact .of_pure rfl
  · exact .of_fail _ _
  · exact .of_fail _ _

theorem lockstep_declare_from (bound : Nat) (node : Node) :
    Lockstep (Draft.Follows anew) id (declareFrom plan bound node)
      (declareFrom plan' bound (node.rename anew)) := by
  induction bound generalizing node with
  | zero => exact .of_fail _ _
  | succ bound induction =>
      have nests := lockstep_nested_declarations renamed induction
      refine .of_ite Iff.rfl (fun _ => ?_) fun _ => lockstep_declare_kind renamed nests induction node
      exact .of_bind (Struct.lockstep_declare renamed nests induction node) fun _ => .of_pure rfl

omit renamed in
theorem lockstep_bind_top_level (node : Node) (declaration : Declaration) :
    Lockstep (Draft.Follows anew) id (bindTopLevel node declaration)
      (bindTopLevel (node.rename anew) declaration) := by
  unfold bindTopLevel
  split
  · exact .of_bind (Draft.lockstep_bind _ node.id) fun _ => .of_pure rfl
  · exact .of_bind (Draft.lockstep_bind _ node.id) fun _ =>
      .of_bind (Draft.lockstep_bind _ node.id) fun _ => .of_pure rfl
  · exact .of_pure rfl

theorem lockstep_declare_top_level (node : Node) :
    Lockstep (Draft.Follows anew) id (declareTopLevel plan node)
      (declareTopLevel plan' (node.rename anew)) := by
  have declared : Lockstep (Draft.Follows anew) id (declareNode plan node)
      (declareNode plan' (node.rename anew)) := by
    unfold declareNode
    rw [renamed.graph.size]
    refine .of_ite Iff.rfl (fun _ => ?_) fun _ => lockstep_declare_from renamed _ node
    exact .of_bind (Draft.lockstep_note _ _) fun _ => .of_fail _ _
  refine .of_bind declared fun declarations => ?_
  have binds : Lockstep (Draft.Follows anew) id (declarations.mapM (bindTopLevel node))
      ((declarations.map fun declaration => declaration).mapM (bindTopLevel (node.rename anew))) :=
    .of_mapM_id fun declaration _ => lockstep_bind_top_level node declaration
  rw [List.map_id'] at binds
  exact .of_bind binds fun _ => .of_pure rfl

theorem top_level_nodes_rename (file : Id) :
    topLevelNodes plan' (anew file) = (topLevelNodes plan file).map (Node.rename anew) := by
  unfold topLevelNodes
  rw [renamed.nodes]
  exact Lists.filter_image (fun node => by simp) plan.nodes

theorem lockstep_declare_file :
    Lockstep (Draft.Follows anew) id (declareFile plan) (declareFile plan') := by
  refine .of_get_bind fun draft draft' follows => ?_
  rw [follows.file, Node.rename_id, top_level_nodes_rename renamed]
  refine .of_bind (.of_mapM_id fun node _ => lockstep_declare_top_level renamed node) fun blocks => ?_
  refine .of_get_bind fun reached reached' follows => ?_
  rw [follows.usesAnyPointer]
  refine .of_ite Iff.rfl (fun _ => ?_) fun _ => .of_pure rfl
  refine .of_bind (Draft.lockstep_bind _ _) fun _ => ?_
  exact .of_bind (AnyPointer.lockstep_declare renamed) fun _ => .of_pure rfl

end Declarations

/-! The text of a stub -/

section Text

variable {anew : Relabeling}

theorem file_aliases_rename {one two : Registry} (follows : Registry.Follows anew one two) (file : Id) :
    fileAliases two (anew file) = (fileAliases one file).map (Alias.rename anew) := by
  rw [file_aliases_eq, file_aliases_eq, ← Lists.sort_by_map]
  · congr 1
    unfold Registry.aliasesIn
    rw [follows.aliases]
    exact Lists.filter_image (fun entry => by simp [Alias.rename]) one.aliases
  · intro first inFirst second inSecond
    have same : first.file = second.file := by
      simp only [Registry.aliasesIn, List.mem_filter, beq_iff_eq] at inFirst inSecond
      rw [inFirst.2, inSecond.2]
    have reflexive : ∀ file : Id, (file ≤ file) = True := fun file => eq_true (UInt64.le_refl file.value)
    simp only [Alias.listedBefore, Alias.rename, same, reflexive]

theorem body_lines_rename (declarations : List Declaration) (aliases : List Alias) :
    bodyLines declarations (aliases.map (Alias.rename anew)) = bodyLines declarations aliases := by
  unfold bodyLines
  rw [List.flatMap_map]
  rfl

theorem check_local_rename (bindings : Import.Bindings) (before : List Import) (entry : Import) :
    Alike id (Import.checkLocal bindings before entry)
      (Import.checkLocal (bindings.translate id anew) (before.map (Import.rename anew))
        (entry.rename anew)) := by
  have held : (bindings.translate id anew).get? entry.localName =
      (bindings.get? entry.localName).map anew :=
    Table.get?_translate Function.injective_id bindings entry.localName
  have clash : (before.map (Import.rename anew)).find? (fun other =>
      other.localName == entry.localName && other.owner != anew entry.owner) =
        (before.find? fun other =>
          other.localName == entry.localName && other.owner != entry.owner).map
            (Import.rename anew) :=
    Lists.find?_image (fun other => by simp [Import.rename, bne]) before
  unfold Import.checkLocal
  dsimp only [Import.rename] at clash ⊢
  rw [held, clash]
  cases bindings.get? entry.localName with
  | some owner => exact .error _ _
  | none =>
      cases before.find? fun other =>
          other.localName == entry.localName && other.owner != entry.owner with
      | some other => exact .error _ _
      | none =>
          dsimp only [Option.map_none]
          split
          · exact .error _ _
          · exact .ok ()

theorem check_locals_rename (bindings : Import.Bindings) (before imports : List Import) :
    Alike id (Import.checkLocals bindings before imports)
      (Import.checkLocals (bindings.translate id anew) (before.map (Import.rename anew))
        (imports.map (Import.rename anew))) := by
  induction imports generalizing before with
  | nil => exact .ok ()
  | cons entry rest induction =>
      exact .of_bind (check_local_rename bindings before entry) fun _ _ => induction (entry :: before)

/-- The import section does not tell for which nodes names are imported. -/
theorem collect_rename (bindings : Import.Bindings) (imports : List Import) (body : String) :
    Alike id (ImportSection.collect bindings imports body)
      (ImportSection.collect (bindings.translate id anew) (imports.map (Import.rename anew)) body) := by
  have used : ∀ name, Alike id (Import.checkUsed bindings name)
      (Import.checkUsed (bindings.translate id anew) name) := by
    intro name
    have held : (bindings.translate id anew).get? name = (bindings.get? name).map anew :=
      Table.get?_translate Function.injective_id bindings name
    unfold Import.checkUsed
    rw [held]
    cases Import.knownModule? name <;> cases bindings.get? name <;>
      first
        | exact .ok ()
        | exact .error _ _
  have sorted : sortBy Import.listedBefore (imports.map (Import.rename anew)) =
      (sortBy Import.listedBefore imports).map (Import.rename anew) :=
    Lists.sort_by_map fun _ _ _ _ => rfl
  unfold ImportSection.collect
  dsimp only
  rw [sorted]
  refine .of_bind (.of_forM_same fun name _ => used name) fun _ _ => ?_
  refine .of_bind (check_locals_rename bindings [] _) fun _ _ => .of_ok ?_
  rw [List.map_map]
  rfl

variable {plan plan' : Plan} (renamed : plan.Renamed anew plan')

include renamed

theorem lockstep_lay_out (declarations : List Declaration) :
    Lockstep (Draft.Follows anew) id (layOut plan declarations) (layOut plan' declarations) := by
  refine .of_get_bind fun draft draft' follows => ?_
  dsimp only
  rw [follows.file, Node.rename_id, file_aliases_rename follows.registry, body_lines_rename]
  refine .of_bind (.of_forM fun entry _ => Draft.lockstep_bind entry.name entry.subject.node) fun _ => ?_
  refine .of_get_bind fun reached reached' follows => ?_
  have content : reached'.bindings = reached.bindings.translate id anew ∧
      reached'.imports = reached.imports.map (Import.rename anew) := by
    obtain ⟨journal, rfl⟩ := follows
    exact ⟨rfl, rfl⟩
  rw [content.1, content.2, renamed.options]
  refine .of_bind (.of_of_except (collect_rename reached.bindings reached.imports _)) fun statements => ?_
  exact .of_bind (Draft.lockstep_note _ _) fun _ => .of_pure rfl

theorem lockstep_compose (file : Node) :
    Lockstep (Draft.Follows anew) id (Generation.compose plan file)
      (Generation.compose plan' (file.rename anew)) :=
  .of_bind ((lockstep_declare_file renamed).of_in_context _ _) fun declarations =>
    (lockstep_lay_out renamed declarations).of_in_context _ _

end Text

end SchemaStubs.Stub
