import SchemaStubs.Proofs.Alongside
import SchemaStubs.Proofs.Naming.Identifier
import SchemaStubs.Proofs.Stub.ImportNames
import SchemaStubs.Proofs.Stub.Preparation

/-!
One stub in two runs. The registries of the runs may differ in most of what they hold. A draft looks only
at identifiers, at the aliases of nodes it refers to and at the names of its own file; where the runs
agree on these, what is drafted is the same, as far as both runs succeed.
-/

namespace SchemaStubs.Stub

theorem Member.of_node_from_congr {one two : Graph} (same : one.nodes = two.nodes) (bound : Nat)
    (node : Node) : Member.ofNodeFrom one bound node = Member.ofNodeFrom two bound node := by
  induction bound generalizing node with
  | zero => rfl
  | succ bound induction =>
      have inner : Member.ofNodeFrom one bound = Member.ofNodeFrom two bound := funext induction
      have fields : Member.ofField one (Member.ofNodeFrom two bound) node =
          Member.ofField two (Member.ofNodeFrom two bound) node := by
        funext field
        simp only [Member.ofField, Graph.node?_congr same]
      rw [Member.ofNodeFrom, Member.ofNodeFrom, inner, fields]

/-- The names of a file that are taken are the names of its aliases and those it keeps. -/
theorem mem_names_in {registry : Registry} {file : Id} {name : String} :
    name ∈ registry.namesIn file ↔
      name ∈ (registry.aliasesIn file).map Alias.name ∨
        registry.reserved.contains (file, name) = true := by
  unfold Registry.namesIn
  rw [List.mem_append]
  refine or_congr Iff.rfl ?_
  simp [Table.contains_iff]

structure Common (onePlan twoPlan : Plan) (one two : Registry) (file : Node) : Prop where
  nodes : onePlan.graph.nodes = twoPlan.graph.nodes
  options : onePlan.options = twoPlan.options
  oneOrder : onePlan.order.Nodup
  twoOrder : twoPlan.order.Nodup
  found : onePlan.graph.node? file.id = some file
  internal : ∀ id first second, one.internal? id = some first → two.internal? id = some second →
    first = second
  /-- Nodes that both have met are known by the same identifiers. -/
  known : ∀ id ∈ onePlan.order, id ∈ twoPlan.order → one.internal? id = two.internal? id
  /-- A node that both may refer to is the same and has the same aliases. -/
  references : ∀ target first second, onePlan.references.get? target = some first →
    twoPlan.references.get? target = some second → first = second ∧ first.target = target ∧
      one.aliasesOf { node := target } = two.aliasesOf { node := target }
  own : Registry.Agree file.id one two
  coherent : one.Coherent
  /-- The aliases of the nodes of the file are aliases of the file. -/
  placed : ∀ id, onePlan.graph.file id = .ok file →
    (∀ entry ∈ one.aliases, entry.subject = { node := id } → entry.file = file.id) ∧
      ∀ entry ∈ two.aliases, entry.subject = { node := id } → entry.file = file.id

/-- Two drafts of the stub of a file that have come equally far. -/
structure Abreast (one two : Registry) (file : Node) (draft draft' : Draft) : Prop where
  first : Standing one file draft
  second : Standing two file draft'
  oneReserved : draft.registry.reserved = one.reserved
  twoReserved : draft'.registry.reserved = two.reserved
  imports : draft.imports = draft'.imports
  locals : draft.locals = draft'.locals
  usesAnyPointer : draft.usesAnyPointer = draft'.usesAnyPointer
  bindings : draft.bindings = draft'.bindings

/-- A step of the registry that leaves alone what drafts look at. -/
def Unseen (step : Step Registry Unit) : Prop :=
  ∀ before after, step.Returns before () after → after.resolved = before.resolved ∧
    after.aliases = before.aliases ∧ after.internal = before.internal ∧
      after.reserved = before.reserved

theorem unseen_note (event : Journal.Event) : Unseen (Registry.note event) := by
  intro before after returns
  cases Step.Returns.modify_iff.mp returns
  exact ⟨rfl, rfl, rfl, rfl⟩

theorem unseen_mark_referenced (id : Id) : Unseen (Registry.markReferenced id) := by
  intro before after returns
  cases Step.Returns.modify_iff.mp returns
  exact ⟨rfl, rfl, rfl, rfl⟩

theorem unseen_mark_declared (id : Id) : Unseen (Registry.markDeclared id) := by
  intro before after returns
  cases Step.Returns.modify_iff.mp returns
  exact ⟨rfl, rfl, rfl, rfl⟩

section Drafting

variable {onePlan twoPlan : Plan} {one two : Registry} {file : Node}

theorem Standing.inRegistry {draft : Draft} {after : Registry} (standing : Standing one file draft)
    (same : after.resolved = draft.registry.resolved ∧ after.aliases = draft.registry.aliases ∧
      after.internal = draft.registry.internal ∧ after.reserved = draft.registry.reserved) :
    Standing one file { draft with registry := after } :=
  ⟨standing.ofFile, same.1.trans standing.resolved, same.2.1.trans standing.aliases,
    same.2.2.1.trans standing.internal⟩

theorem in_registry_abreast {step step' : Step Registry Unit} (unseen : Unseen step)
    (unseen' : Unseen step') :
    (Draft.inRegistry step).Alongside (Abreast one two file) (Draft.inRegistry step') := by
  intro before _ after before' _ after' start here there
  obtain ⟨registry, steps, rfl⟩ := Step.Returns.on_part_iff.mp here
  obtain ⟨registry', steps', rfl⟩ := Step.Returns.on_part_iff.mp there
  have same := unseen _ _ steps
  have same' := unseen' _ _ steps'
  exact ⟨rfl, { start with
    first := start.first.inRegistry same
    second := start.second.inRegistry same'
    oneReserved := same.2.2.2.trans start.oneReserved
    twoReserved := same'.2.2.2.trans start.twoReserved }⟩

theorem bind_abreast (name : String) (owner : Id) :
    (Draft.bind name owner).Alongside (Abreast one two file) (Draft.bind name owner) := by
  unfold Draft.bind
  refine .of_get_bind fun draft draft' abreast => ?_
  rw [abreast.bindings]
  refine .of_bind (.of_of_except _) fun bindings => .of_set ?_
  exact { abreast with
    first := { abreast.first with }
    second := { abreast.second with }
    bindings := rfl }

/-- A question for aliases is answered alike where the aliases are the same. -/
theorem get_aliases_abreast {subject : Subject} (same : one.aliasesOf subject = two.aliasesOf subject) :
    (Draft.inRegistry (Registry.getAliases subject)).Alongside (Abreast one two file)
      (Draft.inRegistry (Registry.getAliases subject)) := by
  intro before _ after before' _ after' start here there
  obtain ⟨registry, steps, rfl⟩ := Step.Returns.on_part_iff.mp here
  obtain ⟨registry', steps', rfl⟩ := Step.Returns.on_part_iff.mp there
  obtain ⟨rfl, rfl⟩ := get_aliases_returns start.first.resolved steps
  obtain ⟨rfl, rfl⟩ := get_aliases_returns start.second.resolved steps'
  refine ⟨?_, start⟩
  unfold Registry.aliasesOf at same ⊢
  rw [start.first.aliases, start.second.aliases, same]

theorem Abreast.takenNames {draft draft' : Draft} (abreast : Abreast one two file draft draft')
    (own : Registry.Agree file.id one two) (subject : Subject) (name : String) :
    name ∈ draft.takenNames subject ↔ name ∈ draft'.takenNames subject := by
  have names : name ∈ draft.registry.namesIn draft.file.id ↔
      name ∈ draft'.registry.namesIn draft'.file.id := by
    rw [abreast.first.ofFile, abreast.second.ofFile, mem_names_in, mem_names_in, abreast.oneReserved,
      abreast.twoReserved, own.reserved name]
    unfold Registry.aliasesIn
    rw [abreast.first.aliases, abreast.second.aliases]
    have same := own.aliases
    unfold Registry.aliasesIn at same
    rw [same]
  unfold Draft.takenNames Draft.localNames
  simp only [List.mem_append, names, abreast.locals]

namespace Common

variable (common : Common onePlan twoPlan one two file)
include common

theorem internalOf (node : Node) :
    (Draft.internalOf node).Alongside (Abreast one two file) (Draft.internalOf node) := by
  unfold Draft.internalOf
  refine .of_get_bind fun draft draft' abreast => ?_
  rw [abreast.first.internal?, abreast.second.internal?]
  rcases known : one.internal? node.id with _ | first
  · exact .of_fail _ _
  · rcases known' : two.internal? node.id with _ | second
    · exact .of_fail_right _ _
    · cases common.internal node.id first second known known'
      exact .of_ite (.of_fail _ _) (.of_pure _)

theorem referenceTo (source target : Id) (via : String) :
    (Draft.referenceTo onePlan source target via).Alongside (Abreast one two file)
      (Draft.referenceTo twoPlan source target via) := by
  unfold Draft.referenceTo
  rcases known : onePlan.references.get? target with _ | first
  · exact .of_fail _ _
  · rcases known' : twoPlan.references.get? target with _ | second
    · exact .of_fail_right _ _
    · cases (common.references target first second known known').1
      exact .of_ite (.of_fail _ _) (.of_pure _)

theorem declaringFile (source : Id) (reference : Reference) :
    (Draft.declaringFile onePlan source reference).Alongside (Abreast one two file)
      (Draft.declaringFile twoPlan source reference) := by
  unfold Draft.declaringFile
  rw [Graph.node?_congr common.nodes]
  rcases twoPlan.graph.node? reference.file with _ | declaring
  · exact .of_fail _ _
  · exact .of_pure _

theorem localsOf (subject : Subject) (declaring : String) (aliases : List (Role × String)) :
    (Draft.localsOf subject declaring aliases).Alongside (Abreast one two file)
      (Draft.localsOf subject declaring aliases) := by
  unfold Draft.localsOf
  refine .of_get_bind fun draft draft' abreast => ?_
  rw [abreast.locals]
  cases draft'.locals.get? subject with
  | some names => exact .of_pure _
  | none =>
      dsimp only
      rw [Draft.free_qualifier_congr (abreast.takenNames common.own subject)]
      refine .of_bind (.of_set ?_) fun _ => .of_pure _
      exact { abreast with
        first := { abreast.first with }
        second := { abreast.second with }
        locals := rfl }

theorem importAlias (declaring : Node) (subject : Subject) (aliases names : List (Role × String))
    (role : Role) :
    (Draft.importAlias onePlan declaring subject aliases names role).Alongside (Abreast one two file)
      (Draft.importAlias twoPlan declaring subject aliases names role) := by
  unfold Draft.importAlias
  cases aliases.lookup role with
  | none => exact .of_fail _ _
  | some name =>
      refine .of_get_bind fun draft draft' abreast => ?_
      dsimp only
      rw [abreast.first.ofFile, abreast.second.ofFile, common.options]
      refine .of_bind (.of_modify fun _ _ abreast => ?_) fun _ => .of_pure _
      exact { abreast with
        first := { abreast.first with }
        second := { abreast.second with }
        imports := by rw [abreast.imports] }

theorem importAliases {target : Id}
    (same : one.aliasesOf { node := target } = two.aliasesOf { node := target }) (declaring : Node)
    (roles : List Role) :
    (Draft.importAliases onePlan target declaring roles).Alongside (Abreast one two file)
      (Draft.importAliases twoPlan target declaring roles) := by
  refine .of_bind (get_aliases_abreast same) fun aliases => ?_
  refine .of_bind (common.localsOf _ _ aliases) fun names => ?_
  exact .of_mapM fun role _ => common.importAlias declaring _ aliases names role

theorem foreignType {target : Id} {reference : Reference}
    (known : onePlan.references.get? target = some reference)
    (known' : twoPlan.references.get? target = some reference) (kind : TypeKind) (view : View) :
    (Draft.foreignType onePlan reference kind view).Alongside (Abreast one two file)
      (Draft.foreignType twoPlan reference kind view) := by
  obtain ⟨_, aimed, same⟩ := common.references target reference reference known known'
  unfold Draft.foreignType
  refine .of_get_bind fun draft draft' abreast => ?_
  rw [abreast.first.ofFile, abreast.second.ofFile]
  refine .of_bind (common.declaringFile _ _) fun declaring => ?_
  refine .of_ite (.of_pure _) (.of_bind ?_ fun names => .of_pure _)
  exact common.importAliases (aimed ▸ same) declaring _

theorem nodeType (view : View) (kind : TypeKind) (target : Id) :
    (Draft.nodeType onePlan view kind target).Alongside (Abreast one two file)
      (Draft.nodeType twoPlan view kind target) := by
  unfold Draft.nodeType
  refine .of_get_bind fun draft draft' abreast => ?_
  rw [abreast.first.ofFile, abreast.second.ofFile]
  refine .of_bind_returns (common.referenceTo _ _ _) fun reference _ _ _ _ here there => ?_
  refine .of_ite (.of_bind ?_ fun _ => .of_pure _) ?_
  · exact in_registry_abreast (unseen_mark_referenced target) (unseen_mark_referenced target)
  · exact common.foreignType (reference_to_returns here) (reference_to_returns there) kind view

theorem write (view : View) (type : SchemaType) :
    ((Draft.spelling onePlan view).write type).Alongside (Abreast one two file)
      ((Draft.spelling twoPlan view).write type) := by
  obtain ⟨kind, element, target, brand, scope, index⟩ := type
  unfold Spelling.write
  refine .of_ite ?_ ?_
  · dsimp only [Draft.spelling]
    cases primitiveType kind with
    | none => exact .of_fail _ _
    | some text => exact .of_pure _
  · cases kind with
    | list =>
        cases element with
        | none => exact .of_fail _ _
        | some element => exact .of_bind (write view element) fun text => .of_pure _
    | enum => exact common.nodeType view _ target
    | struct => exact common.nodeType view _ target
    | interface => exact common.nodeType view _ target
    | anyPointer => exact .of_pure _
    | parameter => exact .of_pure _
    | _ => exact .of_fail _ _

theorem typeText (view : View) (type : Option SchemaType) :
    (Draft.typeText onePlan view type).Alongside (Abreast one two file)
      (Draft.typeText twoPlan view type) := by
  cases type with
  | none => exact .of_get_bind fun _ _ _ => .of_fail _ _
  | some type =>
      refine .of_bind (common.write view type) fun text => ?_
      refine .of_ite (.of_bind (.of_modify fun _ _ abreast => ?_) fun _ => .of_pure _) (.of_pure _)
      exact { abreast with
        first := { abreast.first with }
        second := { abreast.second with }
        usesAnyPointer := rfl }

theorem memberType (view : View) (member : Member) :
    (member.type onePlan view).Alongside (Abreast one two file) (member.type twoPlan view) := by
  unfold Member.type
  cases member.group with
  | none => exact common.typeText view _
  | some body => exact .of_bind (common.internalOf body) fun _ => .of_pure _

theorem dictView (members : List Member) :
    (Struct.dictView onePlan members).Alongside (Abreast one two file)
      (Struct.dictView twoPlan members) := by
  refine .of_bind (.of_mapM fun member _ => ?_) fun body => .of_pure _
  exact .of_bind (common.memberType .dict member) fun type => .of_pure _

theorem readerView (node : Node) (internal : String) (members : List Member) :
    (Struct.readerView onePlan node internal members).Alongside (Abreast one two file)
      (Struct.readerView twoPlan node internal members) := by
  refine .of_bind (.of_mapM fun member _ => ?_) fun properties => .of_pure _
  exact .of_bind (common.memberType .reader member) fun type => .of_pure _

theorem accessors (member : Member) :
    (Struct.accessors onePlan member).Alongside (Abreast one two file)
      (Struct.accessors twoPlan member) := by
  refine .of_bind (common.memberType .builder member) fun type => ?_
  cases member.group with
  | none => exact .of_bind (common.memberType .setter member) fun assigned => .of_pure _
  | some body => exact .of_pure _

theorem initializer (member : Member) :
    (Struct.initializer onePlan member).Alongside (Abreast one two file)
      (Struct.initializer twoPlan member) := by
  unfold Struct.initializer
  dsimp only
  refine .of_ite ?_ (.of_ite ?_ (.of_pure _))
  all_goals exact .of_bind (common.memberType .builder member) fun type => .of_pure _

theorem builderView (node : Node) (internal : String) (members : List Member) :
    (Struct.builderView onePlan node internal members).Alongside (Abreast one two file)
      (Struct.builderView twoPlan node internal members) := by
  have initializers : (Struct.initializers onePlan members).Alongside (Abreast one two file)
      (Struct.initializers twoPlan members) :=
    .of_bind (.of_mapM fun member _ => common.initializer member) fun typed => .of_pure _
  refine .of_bind (.of_mapM fun member _ => common.accessors member) fun properties => ?_
  exact .of_bind initializers fun _ => .of_pure _

theorem newMessage (internal : String) (members : List Member) :
    (Struct.newMessage onePlan internal members).Alongside (Abreast one two file)
      (Struct.newMessage twoPlan internal members) := by
  refine .of_bind (.of_mapM fun member _ => ?_) fun keywords => .of_pure _
  exact .of_bind (common.memberType .setter member) fun type => .of_pure _

theorem views (node : Node) (internal : String) (members : List Member) :
    (Struct.views onePlan node internal members).Alongside (Abreast one two file)
      (Struct.views twoPlan node internal members) := by
  refine .of_bind (common.dictView members) fun dict => ?_
  refine .of_bind (common.readerView node internal members) fun reader => ?_
  exact .of_bind (common.builderView node internal members) fun builder => .of_pure _

theorem declareStruct {nested body nested' body' : Node → Step Draft (List Declaration)}
    (alikeNested : ∀ node, (nested node).Alongside (Abreast one two file) (nested' node))
    (alikeBody : ∀ node, (body node).Alongside (Abreast one two file) (body' node)) (node : Node) :
    (Struct.declare onePlan nested body node).Alongside (Abreast one two file)
      (Struct.declare twoPlan nested' body' node) := by
  unfold Struct.declare
  refine .of_bind (common.internalOf node) fun internal => ?_
  refine .of_bind (in_registry_abreast (unseen_mark_declared _) (unseen_mark_declared _)) fun _ => ?_
  have members : Member.ofNode onePlan.graph node = Member.ofNode twoPlan.graph node := by
    rw [Member.ofNode, Member.ofNode, Graph.size, Graph.size, common.nodes,
      Member.of_node_from_congr common.nodes]
  rw [members]
  refine .of_bind (.of_of_except _) fun members => ?_
  refine .of_ite_bind (.of_pure _) (alikeNested node) fun inner => ?_
  refine .of_bind (.of_mapM fun group _ => alikeBody group) fun groups => ?_
  refine .of_bind (common.views node internal members) fun views => ?_
  refine .of_ite (.of_pure _) ?_
  exact .of_bind (common.newMessage internal members) fun _ => .of_pure _

theorem declareEnum (node : Node) :
    (Enum.declare node).Alongside (Abreast one two file) (Enum.declare node) := by
  refine .of_ite (.of_fail _ _) (.of_bind (common.internalOf node) fun internal => ?_)
  refine .of_bind (in_registry_abreast (unseen_mark_declared _) (unseen_mark_declared _)) fun _ => ?_
  exact .of_pure _

theorem superclass (node : Node) (id : Id) :
    (Interface.superclass onePlan node id).Alongside (Abreast one two file)
      (Interface.superclass twoPlan node id) := by
  unfold Interface.superclass
  refine .of_get_bind fun draft draft' abreast => ?_
  rw [abreast.first.ofFile, abreast.second.ofFile]
  refine .of_bind_returns (common.referenceTo _ _ _) fun reference _ _ _ _ here there => ?_
  refine .of_ite (.of_bind ?_ fun _ => .of_pure _) ?_
  · exact in_registry_abreast (unseen_mark_referenced id) (unseen_mark_referenced id)
  · refine .of_bind (common.declaringFile _ _) fun declaring => ?_
    obtain ⟨_, _, same⟩ := common.references id reference reference (reference_to_returns here)
      (reference_to_returns there)
    exact .of_bind (common.importAliases same declaring _) fun names => .of_pure _

theorem bases (node : Node) :
    (Interface.bases onePlan node).Alongside (Abreast one two file)
      (Interface.bases twoPlan node) := by
  refine .of_ite (.of_pure _) ?_
  exact .of_bind (.of_mapM fun id _ => common.superclass node id) fun pairs => .of_pure _

theorem protocol (name : String) (fields : List Field) :
    (Interface.protocol onePlan name fields).Alongside (Abreast one two file)
      (Interface.protocol twoPlan name fields) := by
  refine .of_bind (.of_mapM fun field _ => ?_) fun body => .of_pure _
  exact .of_bind (common.typeText .reader field.type) fun type => .of_pure _

theorem clientMethod (internal stem : String) (method : Method) :
    (Interface.clientMethod onePlan internal stem method).Alongside (Abreast one two file)
      (Interface.clientMethod twoPlan internal stem method) := by
  refine .of_bind (.of_mapM fun field _ => ?_) fun params => .of_pure _
  exact .of_bind (common.typeText .setter field.type) fun type => .of_pure _

theorem serverMethods (internal stem : String) (method : Method) :
    (Interface.serverMethods onePlan internal stem method).Alongside (Abreast one two file)
      (Interface.serverMethods twoPlan internal stem method) := by
  refine .of_bind (.of_mapM fun field _ => ?_) fun params => ?_
  · exact .of_bind (common.typeText .reader field.type) fun type => .of_pure _
  · exact .of_bind (.of_mapM fun field _ => common.typeText .setter field.type) fun _ => .of_pure _

theorem surface (internal : String) (method : Method) :
    (Interface.surface onePlan internal method).Alongside (Abreast one two file)
      (Interface.surface twoPlan internal method) := by
  have protocols : ∀ stem, (Interface.protocols onePlan internal stem method).Alongside
      (Abreast one two file) (Interface.protocols twoPlan internal stem method) :=
    fun stem => .of_bind (common.protocol _ _) fun _ =>
      .of_bind (common.protocol _ _) fun _ => .of_pure _
  refine .of_bind (protocols _) fun _ => ?_
  refine .of_bind (common.clientMethod internal _ method) fun client => ?_
  exact .of_bind (common.serverMethods internal _ method) fun server => .of_pure _

theorem surfaces (node : Node) (internal : String) (stems : List String) (methods : List Method) :
    (Interface.surfaces onePlan node internal stems methods).Alongside (Abreast one two file)
      (Interface.surfaces twoPlan node internal stems methods) := by
  induction methods generalizing stems with
  | nil => exact .of_pure _
  | cons method rest induction =>
      refine .of_ite (.of_fail _ _) ?_
      refine .of_bind (common.surface internal method) fun first => ?_
      exact .of_bind (induction _) fun others => .of_pure _

theorem declareInterface {nested nested' : Node → Step Draft (List Declaration)}
    (alikeNested : ∀ node, (nested node).Alongside (Abreast one two file) (nested' node))
    (node : Node) :
    (Interface.declare onePlan nested node).Alongside (Abreast one two file)
      (Interface.declare twoPlan nested' node) := by
  refine .of_bind (common.internalOf node) fun internal => ?_
  refine .of_bind (in_registry_abreast (unseen_mark_declared _) (unseen_mark_declared _)) fun _ => ?_
  refine .of_bind (alikeNested node) fun inner => ?_
  refine .of_bind (common.bases node) fun bases => ?_
  exact .of_bind (common.surfaces node internal [] node.methods) fun surfaces => .of_pure _

theorem nestedDeclarations {declare declare' : Node → Step Draft (List Declaration)}
    (alike : ∀ node, (declare node).Alongside (Abreast one two file) (declare' node)) (node : Node) :
    (Stub.nestedDeclarations onePlan declare node).Alongside (Abreast one two file)
      (Stub.nestedDeclarations twoPlan declare' node) := by
  refine .of_bind (.of_mapM fun id _ => ?_) fun inner => .of_pure _
  rw [Graph.node?_congr common.nodes]
  cases twoPlan.graph.node? id with
  | none => exact .of_fail _ _
  | some nested => exact .of_ite (.of_pure _) (alike nested)

theorem declareKind {nested body nested' body' : Node → Step Draft (List Declaration)}
    (alikeNested : ∀ node, (nested node).Alongside (Abreast one two file) (nested' node))
    (alikeBody : ∀ node, (body node).Alongside (Abreast one two file) (body' node)) (node : Node) :
    (Stub.declareKind onePlan nested body node).Alongside (Abreast one two file)
      (Stub.declareKind twoPlan nested' body' node) := by
  unfold Stub.declareKind
  refine .of_bind (in_registry_abreast (unseen_note _) (unseen_note _)) fun _ => ?_
  rcases node.kind
  · exact .of_fail _ _
  · exact .of_bind (common.declareStruct alikeNested alikeBody node) fun _ => .of_pure _
  · exact .of_bind (common.declareEnum node) fun _ => .of_pure _
  · exact .of_bind (common.declareInterface alikeNested node) fun _ => .of_pure _
  · have constant : (Stub.constant onePlan node).Alongside (Abreast one two file)
        (Stub.constant twoPlan node) :=
      .of_bind (common.typeText .reader node.constType) fun type => .of_pure _
    exact .of_bind constant fun _ => .of_pure _
  · exact .of_pure _
  · exact .of_fail _ _

theorem declareFrom (bound : Nat) (node : Node) :
    (Stub.declareFrom onePlan bound node).Alongside (Abreast one two file)
      (Stub.declareFrom twoPlan bound node) := by
  induction bound generalizing node with
  | zero => exact .of_fail _ _
  | succ bound induction =>
      have nested := common.nestedDeclarations induction
      refine .of_ite ?_ (common.declareKind nested induction node)
      exact .of_bind (common.declareStruct nested induction node) fun _ => .of_pure _

theorem declareTopLevel (node : Node) :
    (Stub.declareTopLevel onePlan node).Alongside (Abreast one two file)
      (Stub.declareTopLevel twoPlan node) := by
  have declared : (Stub.declareNode onePlan node).Alongside (Abreast one two file)
      (Stub.declareNode twoPlan node) := by
    unfold Stub.declareNode
    rw [Graph.size, Graph.size, common.nodes]
    refine .of_ite ?_ (common.declareFrom _ node)
    exact .of_bind (in_registry_abreast (unseen_note _) (unseen_note _)) fun _ => .of_fail _ _
  refine .of_bind declared fun declarations => ?_
  refine .of_bind (.of_mapM fun declaration _ => ?_) fun bound => .of_pure _
  cases declaration with
  | annotated => exact .of_bind (bind_abreast _ _) fun _ => .of_pure _
  | «class» =>
      exact .of_bind (bind_abreast _ _) fun _ => .of_bind (bind_abreast _ _) fun _ => .of_pure _
  | method => exact .of_pure _
  | typeAlias => exact .of_pure _

end Common

end Drafting

end SchemaStubs.Stub
