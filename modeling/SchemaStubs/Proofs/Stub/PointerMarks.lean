import Mathlib.Data.Set.Basic
import Mathlib.Logic.Relation
import SchemaStubs.Proofs.Stub.Declared
import SchemaStubs.Proofs.Stub.Flattening
import SchemaStubs.Proofs.Stub.Frame
import SchemaStubs.Proofs.Text.Joined

/-!
When a draft asks for the class of pointers to anything. It does so for a text that mentions the class:
the text of an erased type through the reader or the builder view, and also the text of a reference
whose written name happens to mention it. Each step of a draft is followed with the types that it
shows through these two views, and those that it writes at all.
-/

namespace SchemaStubs

/-- The type of the elements inside a type, through any depth of lists; a type that is no list is its
own. -/
def SchemaType.innermost : SchemaType → SchemaType
  | ⟨.list, some element, _, _, _, _⟩ => element.innermost
  | type => type

/-- A pointer to anything or a generic parameter, under any depth of lists. -/
def SchemaType.IsErased (type : SchemaType) : Prop :=
  type.innermost.kind = .anyPointer ∨ type.innermost.kind = .parameter

namespace Graph

/-- The class of a node stands directly inside the class of another one: as one of its declarations, or
as the body of a named group among its members. -/
inductive Encloses (graph : Graph) (outer : Node) : Node → Prop where
  | nested {id : Id} {inner : Node} (single : outer.isGroup = false)
      (opens : outer.kind = .struct ∨ outer.kind = .interface) (listed : id ∈ outer.nested)
      (found : graph.node? id = some inner) (plain : inner.isGroup = false) : Encloses graph outer inner
  | body {members : List Stub.Member} {member : Stub.Member} {inner : Node}
      (isStruct : outer.kind = .struct) (flattened : Stub.Member.ofNode graph outer = .ok members)
      (listed : member ∈ members) (group : member.group = some inner) : Encloses graph outer inner

/-- The types that a node shows to readers: those of the members of a struct or group, of the
parameters and the results of methods, and of a constant. -/
inductive Shows (graph : Graph) (node : Node) : SchemaType → Prop where
  | member {members : List Stub.Member} {member : Stub.Member} {type : SchemaType}
      (isStruct : node.kind = .struct) (flattened : Stub.Member.ofNode graph node = .ok members)
      (listed : member ∈ members) (slot : member.group = none) (typed : member.field.type = some type) :
      Shows graph node type
  | argument {method : Method} {field : Field} {type : SchemaType} (isInterface : node.kind = .interface)
      (declared : method ∈ node.methods) (listed : field ∈ method.params ++ method.results)
      (typed : field.type = some type) : Shows graph node type
  | const {type : SchemaType} (isConst : node.kind = .const) (typed : node.constType = some type) :
      Shows graph node type

/-- The types that the declaration of a node shows, with all that stands inside it. -/
def shownUnder (graph : Graph) (node : Node) : Set SchemaType :=
  { type | ∃ inner, Relation.ReflTransGen graph.Encloses node inner ∧ graph.Shows inner type }

theorem mem_shown_under_iff {graph : Graph} {node : Node} {type : SchemaType} :
    type ∈ graph.shownUnder node ↔
      graph.Shows node type ∨ ∃ inner, graph.Encloses node inner ∧ type ∈ graph.shownUnder inner := by
  constructor
  · rintro ⟨last, path, shows⟩
    rcases Relation.ReflTransGen.cases_head path with rfl | ⟨inner, encloses, further⟩
    · exact .inl shows
    · exact .inr ⟨inner, encloses, last, further, shows⟩
  · rintro (shows | ⟨inner, encloses, last, path, shows⟩)
    · exact ⟨node, .refl, shows⟩
    · exact ⟨last, .head encloses path, shows⟩

end Graph

namespace Stub

def View.showsPointers : View → Bool
  | .reader | .builder => true
  | .setter | .dict => false

/-- A name that a reference to the node at the end of a type is written by mentions the class: the
identifier of a node of the same file, or the name of an import. -/
def NamedAfter (plan : Plan) (draft : Draft) (type : SchemaType) : Prop :=
  ∃ reference, plan.references.get? type.innermost.target = some reference ∧
    if reference.file = draft.file.id then Text.contains anyPointerClass reference.internal = true
    else ∃ entry ∈ draft.imports, Text.contains anyPointerClass entry.localName = true

structure Carries (before after : Draft) : Prop where
  file : after.file = before.file
  imports : ∀ entry ∈ before.imports, ∃ later ∈ after.imports, later.localName = entry.localName

/-- What became of a draft while the types of `plain` were shown through the reader or the builder view,
and no types but those of `seen` were written. -/
structure Marks (plan : Plan) (plain seen : Set SchemaType) (before after : Draft) : Prop
    extends Carries before after where
  kept : before.usesAnyPointer = true → after.usesAnyPointer = true
  raised : ∀ type ∈ plain, type.IsErased → after.usesAnyPointer = true
  caused : after.usesAnyPointer = true → before.usesAnyPointer = true ∨
    ∃ type ∈ seen, type.IsErased ∨ NamedAfter plan after type

variable {plan : Plan} {plain other seen : Set SchemaType} {before middle after : Draft}

theorem Carries.of_same (file : after.file = before.file) (imports : after.imports = before.imports) :
    Carries before after :=
  ⟨file, fun entry member => ⟨entry, imports ▸ member, rfl⟩⟩

theorem Carries.refl (draft : Draft) : Carries draft draft := .of_same rfl rfl

theorem Carries.trans (first : Carries before middle) (second : Carries middle after) :
    Carries before after := by
  refine ⟨second.file.trans first.file, fun entry member => ?_⟩
  obtain ⟨one, inMiddle, same⟩ := first.imports entry member
  obtain ⟨two, inAfter, alike⟩ := second.imports one inMiddle
  exact ⟨two, inAfter, alike.trans same⟩

theorem NamedAfter.carried {type : SchemaType} (named : NamedAfter plan before type)
    (carries : Carries before after) : NamedAfter plan after type := by
  obtain ⟨reference, known, mentions⟩ := named
  refine ⟨reference, known, ?_⟩
  rw [carries.file]
  split at mentions
  · rename_i own
    rwa [if_pos own]
  · rename_i foreign
    rw [if_neg foreign]
    obtain ⟨entry, member, held⟩ := mentions
    obtain ⟨later, there, same⟩ := carries.imports entry member
    exact ⟨later, there, same ▸ held⟩

namespace Marks

theorem of_carries (carries : Carries before after)
    (same : after.usesAnyPointer = before.usesAnyPointer) : Marks plan ∅ seen before after :=
  ⟨carries, fun up => same.trans up, nofun, fun up => .inl (same ▸ up)⟩

theorem trans (first : Marks plan plain seen before middle) (second : Marks plan other seen middle after) :
    Marks plan (plain ∪ other) seen before after where
  toCarries := first.toCarries.trans second.toCarries
  kept := fun up => second.kept (first.kept up)
  raised := by
    rintro type (early | late) erased
    · exact second.kept (first.raised type early erased)
    · exact second.raised type late erased
  caused := by
    intro up
    rcases second.caused up with earlier | cause
    · rcases first.caused earlier with start | ⟨type, member, reason⟩
      · exact .inl start
      · exact .inr ⟨type, member, reason.imp_right fun named => named.carried second.toCarries⟩
    · exact .inr cause

theorem after_quiet (first : Marks plan ∅ seen before middle) (second : Marks plan plain seen middle after) :
    Marks plan plain seen before after := by
  rw [← Set.empty_union plain]
  exact first.trans second

theorem weaken {fewer more : Set SchemaType} (marks : Marks plan plain seen before after)
    (within : fewer ⊆ plain) (grows : seen ⊆ more) : Marks plan fewer more before after where
  toCarries := marks.toCarries
  kept := marks.kept
  raised := fun type member => marks.raised type (within member)
  caused := fun up => (marks.caused up).imp_right fun ⟨type, member, reason⟩ =>
    ⟨type, grows member, reason⟩

end Marks

/-- A step that shows the types of `plain` through the reader or the builder view, if it succeeds, and
writes no types but those of `seen`. -/
def Raising {α : Type} (plan : Plan) (plain seen : Set SchemaType) (step : Step Draft α) : Prop :=
  ∀ before value after, step.Returns before value after → Marks plan plain seen before after

namespace Raising

variable {α β : Type}

theorem weaken {step : Step Draft α} {fewer more : Set SchemaType} (marking : Raising plan plain seen step)
    (within : fewer ⊆ plain) (grows : seen ⊆ more) : Raising plan fewer more step :=
  fun before value after returns => (marking before value after returns).weaken within grows

theorem quiet {step : Step Draft α} (marking : Raising plan plain seen step) : Raising plan ∅ seen step :=
  marking.weaken (Set.empty_subset _) subset_rfl

theorem of_pure (value : α) : Raising plan ∅ seen (pure value : Step Draft α) := by
  intro before result after returns
  obtain ⟨_, rfl⟩ := Step.Returns.pure_iff.mp returns
  exact .of_carries (.refl _) rfl

theorem of_get : Raising plan ∅ seen (get : Step Draft Draft) := by
  intro before result after returns
  obtain ⟨_, rfl⟩ := Step.Returns.get_iff.mp returns
  exact .of_carries (.refl _) rfl

theorem of_fail (fault : Fault) : Raising plan plain seen (Step.fail fault : Step Draft α) :=
  fun _ _ _ returns => (Step.Returns.fail_iff.mp returns).elim

theorem of_in_registry (step : Step Registry α) : Raising plan ∅ seen (Draft.inRegistry step) := by
  intro before value after returns
  obtain ⟨_, _, rfl⟩ := Step.Returns.on_part_iff.mp returns
  exact .of_carries (.of_same rfl rfl) rfl

theorem of_bind {step : Step Draft α} {next : α → Step Draft β} (first : Raising plan plain seen step)
    (second : ∀ value, Raising plan other seen (next value)) :
    Raising plan (plain ∪ other) seen (step >>= next) := by
  intro before result after returns
  obtain ⟨value, middle, starts, ends⟩ := Step.Returns.bind_iff.mp returns
  exact (first before value middle starts).trans (second value middle result after ends)

theorem of_first {step : Step Draft α} {next : α → Step Draft β} (first : Raising plan plain seen step)
    (second : ∀ value, Raising plan ∅ seen (next value)) : Raising plan plain seen (step >>= next) := by
  rw [← Set.union_empty plain]
  exact of_bind first second

theorem of_second {step : Step Draft α} {next : α → Step Draft β} (first : Raising plan ∅ seen step)
    (second : ∀ value, Raising plan plain seen (next value)) : Raising plan plain seen (step >>= next) := by
  rw [← Set.empty_union plain]
  exact of_bind first second

theorem of_mapM {items : List α} {body : α → Step Draft β} {shown : α → Set SchemaType}
    (each : ∀ item ∈ items, Raising plan (shown item) seen (body item)) :
    Raising plan { type | ∃ item ∈ items, type ∈ shown item } seen (items.mapM body) := by
  intro before results after returns
  refine Step.Returns.mapM_stages
    (fun done _ draft => Marks plan { type | ∃ item ∈ done, type ∈ shown item } seen before draft)
    ?_ returns ?_
  · intro done item rest place _ value start reached step earlier
    have here := each item (by simp [← place]) start value reached step
    refine (earlier.trans here).weaken ?_ subset_rfl
    rintro type ⟨found, listed, shows⟩
    rcases List.mem_append.mp listed with inDone | last
    · exact .inl ⟨found, inDone, shows⟩
    · rw [List.mem_singleton.mp last] at shows
      exact .inr shows
  · refine (Marks.of_carries (.refl before) rfl).weaken ?_ subset_rfl
    rintro type ⟨_, listed, _⟩
    cases listed

theorem of_mapM_quiet {items : List α} {body : α → Step Draft β}
    (each : ∀ item ∈ items, Raising plan ∅ seen (body item)) : Raising plan ∅ seen (items.mapM body) :=
  (of_mapM each).quiet

end Raising

/-! ### Types -/

theorem mem_add_local_name {entry other : Import} {imports : List Import}
    (member : other ∈ imports) :
    ∃ later ∈ Import.add entry imports, later.localName = other.localName := by
  induction imports with
  | nil => cases member
  | cons first rest induction =>
      unfold Import.add
      split
      · rename_i same
        rcases List.mem_cons.mp member with rfl | later
        · exact ⟨entry, List.mem_cons_self, same.2.symm⟩
        · exact ⟨other, List.mem_cons_of_mem _ later, rfl⟩
      · rcases List.mem_cons.mp member with rfl | later
        · exact ⟨other, List.mem_cons_self, rfl⟩
        · obtain ⟨found, listed, same⟩ := induction later
          exact ⟨found, List.mem_cons_of_mem _ listed, same⟩

theorem mem_add_self (entry : Import) (imports : List Import) : entry ∈ Import.add entry imports := by
  induction imports with
  | nil => exact List.mem_singleton_self _
  | cons first rest induction =>
      unfold Import.add
      split
      · exact List.mem_cons_self
      · exact List.mem_cons_of_mem _ induction

theorem import_alias_carries {file : Node} {subject : Subject} {aliases names : List (Role × String)}
    {role : Role} {name : String}
    (returns : (Draft.importAlias plan file subject aliases names role).Returns before name after) :
    Carries before after ∧ after.usesAnyPointer = before.usesAnyPointer ∧
      ∃ entry ∈ after.imports, entry.localName = name := by
  unfold Draft.importAlias at returns
  split at returns
  · exact (Step.Returns.fail_iff.mp returns).elim
  · simp only [Draft.addImport, Step.Returns.bind_iff, Step.Returns.get_iff, Step.Returns.modify_iff,
      Step.Returns.pure_iff] at returns
    obtain ⟨_, _, ⟨rfl, rfl⟩, _, _, rfl, rfl, rfl⟩ := returns
    exact ⟨⟨rfl, fun entry member => mem_add_local_name member⟩, rfl, _, mem_add_self _ _, rfl⟩

theorem import_aliases_carries {target : Id} {file : Node} {roles : List Role} {names : List String}
    (returns : (Draft.importAliases plan target file roles).Returns before names after) :
    Carries before after ∧ after.usesAnyPointer = before.usesAnyPointer ∧
      ∀ name ∈ names, ∃ entry ∈ after.imports, entry.localName = name := by
  unfold Draft.importAliases at returns
  simp only [Step.Returns.bind_iff] at returns
  obtain ⟨aliases, asked, asks, locals, named, naming, records⟩ := returns
  have start : Carries before named ∧ named.usesAnyPointer = before.usesAnyPointer := by
    obtain ⟨_, _, rfl⟩ := Step.Returns.on_part_iff.mp asks
    unfold Draft.localsOf at naming
    simp only [Step.Returns.bind_iff, Step.Returns.get_iff] at naming
    obtain ⟨_, _, ⟨rfl, rfl⟩, naming⟩ := naming
    split at naming
    · obtain ⟨_, rfl⟩ := Step.Returns.pure_iff.mp naming
      exact ⟨.of_same rfl rfl, rfl⟩
    · simp only [Step.Returns.bind_iff, Step.Returns.set_iff, Step.Returns.pure_iff] at naming
      obtain ⟨_, _, rfl, _, rfl⟩ := naming
      exact ⟨.of_same rfl rfl, rfl⟩
  refine Step.Returns.mapM_stages (fun _ values draft => Carries before draft ∧
    draft.usesAnyPointer = before.usesAnyPointer ∧
    ∀ name ∈ values, ∃ entry ∈ draft.imports, entry.localName = name) ?_ records ?_
  · rintro done role rest _ values name start reached step ⟨carries, same, each⟩
    obtain ⟨further, alike, entry, recorded, named⟩ := import_alias_carries step
    refine ⟨carries.trans further, alike.trans same, fun found listed => ?_⟩
    rcases List.mem_append.mp listed with earlier | last
    · obtain ⟨entry, member, rfl⟩ := each found earlier
      exact further.imports entry member
    · rw [List.mem_singleton.mp last]
      exact ⟨entry, recorded, named⟩
  · exact ⟨start.1, start.2, by simp⟩

theorem contains_joined {texts : List String}
    (inside : Text.contains anyPointerClass (Text.joinWith " | " texts) = true) :
    ∃ text ∈ texts, Text.contains anyPointerClass text = true :=
  @Text.contains_join_with anyPointerClass " | " ' ' ' ' (by decide) (by decide) (by decide) (by decide)
    (by decide) texts inside

/-- The classes behind an identifier that references name. -/
def referredParts : List String :=
  [".Value", ".Client", ".Server", ".Reader", ".Builder", ".Dict"]

/-- A class of the same file is written as some of these, and then what is admitted beside them. -/
theorem local_type_joined (internal : String) (kind : TypeKind) (view : View) :
    ∃ parts rest, view.localType internal kind =
        Text.joinWith " | " (parts.map (internal ++ ·) ++ rest) ∧
      parts ⊆ referredParts ∧ rest ⊆ ["int", "Any"] := by
  unfold View.localType
  split
  · refine ⟨[".Value"], ["int"], ?_, by decide, by decide⟩
    simp [Text.joinWith, String.append_assoc]
  · exact ⟨[".Value"], [], rfl, by decide, by decide⟩
  · refine ⟨[".Client", ".Server"], [], ?_, by decide, by decide⟩
    simp [Text.joinWith, String.append_assoc]
  · exact ⟨[], ["Any"], rfl, by decide, by decide⟩
  · exact ⟨[".Client"], [], rfl, by decide, by decide⟩
  · exact ⟨[".Reader"], [], rfl, by decide, by decide⟩
  · exact ⟨[".Builder"], [], rfl, by decide, by decide⟩
  · refine ⟨[".Reader", ".Builder", ".Dict"], [], ?_, by decide, by decide⟩
    simp [Text.joinWith, String.append_assoc]
  · exact ⟨[".Dict"], [], rfl, by decide, by decide⟩

/-- What is behind the identifier of a class of the same file mentions nothing. -/
theorem contains_local_type {internal : String} {kind : TypeKind} {view : View}
    (inside : Text.contains anyPointerClass (view.localType internal kind) = true) :
    Text.contains anyPointerClass internal = true := by
  have behind : ∀ part ∈ referredParts, part.toList.head? = some '.' ∧
      Text.contains anyPointerClass part = false := by decide
  have beside : ∀ text ∈ ["int", "Any"], Text.contains anyPointerClass text = false := by decide
  obtain ⟨parts, rest, joined, isPart, fixed⟩ := local_type_joined internal kind view
  rw [joined] at inside
  obtain ⟨text, listed, held⟩ := contains_joined inside
  rcases List.mem_append.mp listed with own | admitted
  · obtain ⟨part, member, rfl⟩ := List.mem_map.mp own
    obtain ⟨opens, silent⟩ := behind part (isPart member)
    rcases Text.contains_append_of_head opens (by decide) held with here | there
    · exact here
    · rw [silent] at there
      cases there
  · rw [beside text (fixed admitted)] at held
    cases held

theorem contains_foreign_rest {kind : TypeKind} {view : View} {text : String}
    (listed : text ∈ view.foreignRest kind) : Text.contains anyPointerClass text = false := by
  have none : ∀ text ∈ ["Any", "dict[str, Any]"], Text.contains anyPointerClass text = false := by decide
  apply none
  cases kind <;> cases view <;> simp_all [View.foreignRest]

/-- A reference to a node mentions the class only by a name of the node. -/
theorem node_type_mentions {view : View} {kind : TypeKind} {target : Id} {text : String}
    (returns : (Draft.nodeType plan view kind target).Returns before text after) :
    Carries before after ∧ after.usesAnyPointer = before.usesAnyPointer ∧
      (Text.contains anyPointerClass text = true →
        ∃ reference, plan.references.get? target = some reference ∧
          if reference.file = after.file.id then
            Text.contains anyPointerClass reference.internal = true
          else ∃ entry ∈ after.imports, Text.contains anyPointerClass entry.localName = true) := by
  unfold Draft.nodeType at returns
  simp only [Step.Returns.bind_iff, Step.Returns.get_iff] at returns
  obtain ⟨_, _, ⟨rfl, rfl⟩, reference, _, refers, returns⟩ := returns
  obtain rfl := Writing.reference_to_same refers
  have known := reference_to_returns refers
  split at returns
  · rename_i own
    simp only [Step.Returns.bind_iff] at returns
    obtain ⟨_, _, marks, last⟩ := returns
    obtain ⟨rfl, rfl⟩ := Step.Returns.pure_iff.mp last
    obtain ⟨_, _, rfl⟩ := Step.Returns.on_part_iff.mp marks
    refine ⟨.of_same rfl rfl, rfl, fun held => ⟨reference, known, ?_⟩⟩
    rw [if_pos own]
    exact contains_local_type held
  · rename_i foreign
    unfold Draft.foreignType at returns
    simp only [Step.Returns.bind_iff, Step.Returns.get_iff] at returns
    obtain ⟨_, _, ⟨rfl, rfl⟩, file, _, declares, returns⟩ := returns
    obtain rfl := Writing.declaring_file_same declares
    split at returns
    · obtain ⟨rfl, rfl⟩ := Step.Returns.pure_iff.mp returns
      refine ⟨.refl _, rfl, fun held => ?_⟩
      obtain ⟨found, listed, mentions⟩ := contains_joined held
      rw [contains_foreign_rest listed] at mentions
      cases mentions
    · rw [Step.Returns.bind_iff] at returns
      obtain ⟨names, _, imports, last⟩ := returns
      obtain ⟨rfl, rfl⟩ := Step.Returns.pure_iff.mp last
      obtain ⟨carries, same, recorded⟩ := import_aliases_carries imports
      refine ⟨carries, same, fun held => ⟨reference, known, ?_⟩⟩
      rw [carries.file, if_neg foreign]
      obtain ⟨found, listed, mentions⟩ := contains_joined held
      rcases List.mem_append.mp listed with isName | rest
      · obtain ⟨entry, member, rfl⟩ := recorded found isName
        exact ⟨entry, member, mentions⟩
      · rw [contains_foreign_rest rest] at mentions
        cases mentions

theorem contains_primitive {kind : TypeKind} {text : String} (known : primitiveType kind = some text) :
    Text.contains anyPointerClass text = false := by
  have none : ∀ text ∈ ["None", "bool", "int", "float", "str", "bytes"],
      Text.contains anyPointerClass text = false := by decide
  apply none
  cases kind <;> simp_all [primitiveType]

theorem contains_sequence (element : String) :
    Text.contains anyPointerClass ("Sequence[" ++ element ++ "]") = true ↔
      Text.contains anyPointerClass element = true := by
  constructor
  · intro inside
    rcases @Text.contains_append_of_head _ _ "]" ']' rfl (by decide) inside with front | back
    · rcases @Text.contains_append_of_last _ "Sequence[" _ '[' rfl (by decide) front with opening | here
      · exact absurd opening (by decide)
      · exact here
    · exact absurd back (by decide)
  · exact fun inside => Text.contains_of_append_left (Text.contains_of_append_right inside)

/-- A text of a type. It mentions the class if the type is erased and the view shows pointers, and
otherwise only by a name. -/
structure Worded (plan : Plan) (view : View) (type : SchemaType) (before after : Draft)
    (text : String) : Prop extends Carries before after where
  same : after.usesAnyPointer = before.usesAnyPointer
  shows : view.showsPointers = true → type.IsErased → Text.contains anyPointerClass text = true
  mentions : Text.contains anyPointerClass text = true → type.IsErased ∨ NamedAfter plan after type

namespace Worded

variable {view : View} {type : SchemaType} {text : String}

theorem of_list {element : SchemaType} (isList : type.innermost = element.innermost)
    (written : Worded plan view element before after text) :
    Worded plan view type before after ("Sequence[" ++ text ++ "]") := by
  have same : (type.IsErased ↔ element.IsErased) ∧
      (NamedAfter plan after type ↔ NamedAfter plan after element) := by
    unfold SchemaType.IsErased NamedAfter
    rw [isList]
    exact ⟨.rfl, .rfl⟩
  refine ⟨written.toCarries, written.same, ?_, ?_⟩
  · rw [same.1, contains_sequence]
    exact written.shows
  · rw [same.1, same.2, contains_sequence]
    exact written.mentions

theorem of_reference (own : type.innermost = type)
    (refers : type.kind = .enum ∨ type.kind = .struct ∨ type.kind = .interface)
    (returns : (Draft.nodeType plan view type.kind type.target).Returns before text after) :
    Worded plan view type before after text := by
  obtain ⟨carries, same, mentions⟩ := node_type_mentions returns
  refine ⟨carries, same, fun _ erased => ?_, fun held => .inr ?_⟩
  · unfold SchemaType.IsErased at erased
    rw [own] at erased
    rcases refers with isEnum | isStruct | isInterface <;> simp_all
  · unfold NamedAfter
    rw [own]
    exact mentions held

theorem of_erased (erased : type.IsErased) : Worded plan view type before before view.anyPointer := by
  refine ⟨.refl _, rfl, fun shows _ => ?_, fun _ => .inl erased⟩
  cases view with
  | reader => rfl
  | builder => rfl
  | setter => cases shows
  | dict => cases shows

theorem of_primitive (own : type.innermost = type) (isPrimitive : type.kind.isPrimitive = true)
    (known : primitiveType type.kind = some text) : Worded plan view type before before text := by
  have silent := contains_primitive known
  refine ⟨.refl _, rfl, fun _ erased => ?_, fun held => ?_⟩
  · unfold SchemaType.IsErased at erased
    rw [own] at erased
    rcases erased with isPointer | isParameter
    · rw [isPointer] at isPrimitive
      cases isPrimitive
    · rw [isParameter] at isPrimitive
      cases isPrimitive
  · rw [silent] at held
    cases held

end Worded

theorem innermost_of_ne_list {type : SchemaType} (other : type.kind ≠ .list) : type.innermost = type := by
  unfold SchemaType.innermost
  split
  · exact absurd rfl other
  · rfl

theorem write_returns (view : View) (type : SchemaType) {before after : Draft} {text : String}
    (returns : ((Draft.spelling plan view).write type).Returns before text after) :
    Worded plan view type before after text := by
  obtain ⟨kind, element, target, brand, scope, index⟩ := type
  unfold Spelling.write at returns
  split at returns
  · rename_i isPrimitive
    have other : kind ≠ .list := by
      intro isList
      rw [isList] at isPrimitive
      cases isPrimitive
    split at returns
    · rename_i known
      obtain ⟨rfl, rfl⟩ := Step.Returns.pure_iff.mp returns
      exact .of_primitive (innermost_of_ne_list other) isPrimitive known
    · exact (Step.Returns.fail_iff.mp returns).elim
  · split at returns
    · cases element with
      | none => exact (Step.Returns.fail_iff.mp returns).elim
      | some element =>
        obtain ⟨inner, _, writes, last⟩ := Step.Returns.bind_iff.mp returns
        obtain ⟨rfl, rfl⟩ := Step.Returns.pure_iff.mp last
        exact .of_list (by rw [SchemaType.innermost]) (write_returns view element writes)
    · exact .of_reference (innermost_of_ne_list TypeKind.noConfusion) (.inl rfl) returns
    · exact .of_reference (innermost_of_ne_list TypeKind.noConfusion) (.inr (.inl rfl)) returns
    · exact .of_reference (innermost_of_ne_list TypeKind.noConfusion) (.inr (.inr rfl)) returns
    · obtain ⟨rfl, rfl⟩ := Step.Returns.pure_iff.mp returns
      exact .of_erased (.inl rfl)
    · obtain ⟨rfl, rfl⟩ := Step.Returns.pure_iff.mp returns
      exact .of_erased (.inr rfl)
    · exact (Step.Returns.fail_iff.mp returns).elim

namespace Raising

def shownBy (view : View) (type : Option SchemaType) : Set SchemaType :=
  { shown | view.showsPointers = true ∧ type = some shown }

theorem typeText {view : View} {type : Option SchemaType}
    (inSeen : ∀ shown, type = some shown → shown ∈ seen) :
    Raising plan (shownBy view type) seen (Draft.typeText plan view type) := by
  intro before text after returns
  unfold Draft.typeText at returns
  split at returns
  · simp only [Step.Returns.bind_iff] at returns
    obtain ⟨_, _, _, failed⟩ := returns
    exact (Step.Returns.fail_iff.mp failed).elim
  · rename_i type
    rw [Step.Returns.bind_iff] at returns
    obtain ⟨_, middle, writes, returns⟩ := returns
    have written := write_returns view type writes
    split at returns
    · rename_i held
      simp only [Step.Returns.bind_iff, Step.Returns.modify_iff, Step.Returns.pure_iff] at returns
      obtain ⟨_, _, rfl, _, rfl⟩ := returns
      have raises : Carries middle { middle with usesAnyPointer := true } := .of_same rfl rfl
      refine ⟨written.toCarries.trans raises, fun _ => rfl, fun _ _ _ => rfl, fun _ => .inr ?_⟩
      exact ⟨type, inSeen type rfl, (written.mentions held).imp_right fun named => named.carried raises⟩
    · rename_i silent
      obtain ⟨_, rfl⟩ := Step.Returns.pure_iff.mp returns
      refine ⟨written.toCarries, fun up => written.same.trans up, ?_, fun up => .inl (written.same ▸ up)⟩
      rintro shown ⟨shows, same⟩ erased
      cases same
      exact absurd (written.shows shows erased) silent

theorem internalOf (node : Node) : Raising plan ∅ seen (Draft.internalOf node) := by
  intro before internal after returns
  obtain ⟨rfl, _⟩ := internal_of_returns returns
  exact .of_carries (.refl _) rfl

/-! ### Structs and groups -/

section Structs

def slotType (member : Member) : Set SchemaType :=
  { type | member.group = none ∧ member.field.type = some type }

variable {members : List Member}

theorem memberType {view : View} {member : Member} (inSeen : slotType member ⊆ seen) :
    Raising plan { type | view.showsPointers = true ∧ type ∈ slotType member } seen
      (member.type plan view) := by
  unfold Member.type
  split
  · rename_i slot
    refine (typeText fun type typed => inSeen ⟨slot, typed⟩).weaken ?_ subset_rfl
    rintro type ⟨shows, _, typed⟩
    exact ⟨shows, typed⟩
  · rename_i body group
    refine weaken (.of_second (internalOf body) fun _ => of_pure _) ?_ subset_rfl
    rintro type ⟨_, slot, _⟩
    rw [group] at slot
    cases slot

theorem member_type_quiet {view : View} {member : Member} (inSeen : slotType member ⊆ seen) :
    Raising plan ∅ seen (member.type plan view) :=
  (memberType inSeen).quiet

theorem views (node : Node) (internal : String) (inSeen : ∀ member ∈ members, slotType member ⊆ seen) :
    Raising plan { type | ∃ member ∈ members, type ∈ slotType member } seen
      (Struct.views plan node internal members) := by
  have dict : Raising plan ∅ seen (Struct.dictView plan members) := by
    refine .of_second (of_mapM_quiet fun member listed => ?_) fun _ => of_pure _
    exact .of_second (member_type_quiet (inSeen member listed)) fun _ => of_pure _
  have reader : Raising plan { type | ∃ member ∈ members, type ∈ slotType member } seen
      (Struct.readerView plan node internal members) := by
    refine .of_first ((of_mapM fun member listed => .of_first (memberType (inSeen member listed))
      fun _ => of_pure _).weaken ?_ subset_rfl) fun _ => of_pure _
    rintro type ⟨member, listed, typed⟩
    exact ⟨member, listed, rfl, typed⟩
  have accessors : ∀ member ∈ members, Raising plan ∅ seen (Struct.accessors plan member) := by
    intro member listed
    refine .of_second (member_type_quiet (inSeen member listed)) fun _ => ?_
    dsimp only
    split
    · exact of_pure _
    · exact .of_second (member_type_quiet (inSeen member listed)) fun _ => of_pure _
  have initializer : ∀ member ∈ members, Raising plan ∅ seen (Struct.initializer plan member) := by
    intro member listed
    have typed : Raising plan ∅ seen (member.type plan .builder) := member_type_quiet (inSeen member listed)
    unfold Struct.initializer
    dsimp only
    split
    · exact .of_second typed fun _ => of_pure _
    · split
      · exact .of_second typed fun _ => of_pure _
      · exact of_pure _
  have builder : Raising plan ∅ seen (Struct.builderView plan node internal members) := by
    refine .of_second (of_mapM_quiet accessors) fun _ => ?_
    refine .of_second (.of_second (of_mapM_quiet initializer) fun _ => of_pure _) fun _ => ?_
    exact of_pure _
  refine .of_second dict fun _ => .of_first reader fun _ => .of_second builder fun _ => of_pure _

theorem newMessage (internal : String) (inSeen : ∀ member ∈ members, slotType member ⊆ seen) :
    Raising plan ∅ seen (Struct.newMessage plan internal members) := by
  refine .of_second (of_mapM_quiet fun member listed => ?_) fun _ => of_pure _
  exact .of_second (member_type_quiet (inSeen member listed)) fun _ => of_pure _

end Structs

/-! ### Interfaces -/

section Interfaces

variable {fields : List Field} {method : Method}

def fieldTypes (fields : List Field) : Set SchemaType :=
  { type | ∃ field ∈ fields, field.type = some type }

theorem bases (node : Node) : Raising plan ∅ seen (Interface.bases plan node) := by
  have superclass : ∀ id ∈ node.superclasses,
      Raising plan ∅ seen (Interface.superclass plan node id) := by
    intro id _ before names after returns
    unfold Interface.superclass at returns
    simp only [Step.Returns.bind_iff, Step.Returns.get_iff] at returns
    obtain ⟨_, _, ⟨rfl, rfl⟩, reference, _, refers, returns⟩ := returns
    obtain rfl := Writing.reference_to_same refers
    split at returns
    · exact of_second (of_in_registry _) (fun _ => of_pure _) _ _ _ returns
    · simp only [Step.Returns.bind_iff] at returns
      obtain ⟨_, _, declares, _, _, imports, last⟩ := returns
      obtain rfl := Writing.declaring_file_same declares
      obtain ⟨_, rfl⟩ := Step.Returns.pure_iff.mp last
      obtain ⟨carries, same, _⟩ := import_aliases_carries imports
      exact .of_carries carries same
  unfold Interface.bases
  split
  · exact of_pure _
  · exact .of_second (of_mapM_quiet superclass) fun _ => of_pure _

theorem protocol (name : String) (inSeen : fieldTypes fields ⊆ seen) :
    Raising plan (fieldTypes fields) seen (Interface.protocol plan name fields) := by
  refine .of_first ((of_mapM fun field listed => .of_first (typeText fun type typed =>
    inSeen ⟨field, listed, typed⟩) fun _ => of_pure _).weaken ?_ subset_rfl) fun _ => of_pure _
  rintro type ⟨field, listed, typed⟩
  exact ⟨field, listed, rfl, typed⟩

def methodTypes (method : Method) : Set SchemaType :=
  fieldTypes (method.params ++ method.results)

theorem surface (internal : String) (inSeen : methodTypes method ⊆ seen) :
    Raising plan (methodTypes method) seen (Interface.surface plan internal method) := by
  have params : fieldTypes method.params ⊆ seen := fun type ⟨field, listed, typed⟩ =>
    inSeen ⟨field, List.mem_append_left _ listed, typed⟩
  have results : fieldTypes method.results ⊆ seen := fun type ⟨field, listed, typed⟩ =>
    inSeen ⟨field, List.mem_append_right _ listed, typed⟩
  have protocols : ∀ stem, Raising plan (methodTypes method) seen
      (Interface.protocols plan internal stem method) := by
    intro stem
    refine weaken (.of_bind (protocol _ params) fun _ => .of_first (protocol _ results)
      fun _ => of_pure _) ?_ subset_rfl
    rintro type ⟨field, listed, typed⟩
    exact (List.mem_append.mp listed).imp (⟨field, ·, typed⟩) (⟨field, ·, typed⟩)
  have written : ∀ (view : View) (field : Field), field ∈ method.params ++ method.results →
      Raising plan ∅ seen (Draft.typeText plan view field.type) := fun view field listed =>
    (typeText fun type typed => inSeen ⟨field, listed, typed⟩).quiet
  have client : ∀ stem, Raising plan ∅ seen (Interface.clientMethod plan internal stem method) := by
    intro stem
    refine .of_second (of_mapM_quiet fun field listed => ?_) fun _ => of_pure _
    exact .of_second (written .setter field (List.mem_append_left _ listed)) fun _ => of_pure _
  have server : ∀ stem, Raising plan ∅ seen (Interface.serverMethods plan internal stem method) := by
    intro stem
    refine .of_second (of_mapM_quiet fun field listed => ?_) fun _ => ?_
    · exact .of_second (written .reader field (List.mem_append_left _ listed)) fun _ => of_pure _
    · refine .of_second (of_mapM_quiet fun field listed => ?_) fun _ => of_pure _
      exact written .setter field (List.mem_append_right _ listed)
  unfold Interface.surface
  exact .of_first (protocols _) fun _ => .of_second (client _) fun _ => .of_second (server _)
    fun _ => of_pure _

theorem surfaces (node : Node) (internal : String) {methods : List Method} (stems : List String)
    (inSeen : ∀ method ∈ methods, methodTypes method ⊆ seen) :
    Raising plan { type | ∃ method ∈ methods, type ∈ methodTypes method } seen
      (Interface.surfaces plan node internal stems methods) := by
  induction methods generalizing stems with
  | nil =>
      refine weaken (of_pure _) ?_ subset_rfl
      rintro type ⟨_, listed, _⟩
      cases listed
  | cons first rest induction =>
      unfold Interface.surfaces
      dsimp only
      split
      · exact of_fail _
      · have later := induction (Text.pascal first.name :: stems)
          fun method listed => inSeen method (List.mem_cons_of_mem _ listed)
        refine weaken (.of_bind (surface internal (inSeen first List.mem_cons_self)) fun _ =>
          .of_first later fun _ => of_pure _) ?_ subset_rfl
        rintro type ⟨method, listed, typed⟩
        rcases List.mem_cons.mp listed with rfl | inRest
        · exact .inl typed
        · exact .inr ⟨method, inRest, typed⟩

end Interfaces

/-! ### Declarations -/

section Declarations

variable {node : Node} {bound : Nat}

theorem shown_under_inner {inner : Node} (encloses : plan.graph.Encloses node inner) :
    plan.graph.shownUnder inner ⊆ plan.graph.shownUnder node :=
  fun _ shown => Graph.mem_shown_under_iff.mpr (.inr ⟨inner, encloses, shown⟩)

theorem nestedDeclarations (single : node.isGroup = false)
    (opens : node.kind = .struct ∨ node.kind = .interface)
    (inner : ∀ inner ∈ plan.graph.nodes, plan.graph.shownUnder inner ⊆ seen →
      Raising plan (plan.graph.shownUnder inner) seen (declareFrom plan bound inner))
    (inSeen : plan.graph.shownUnder node ⊆ seen) :
    Raising plan { type | ∃ id ∈ node.nested, ∃ inner, plan.graph.node? id = some inner ∧
        inner.isGroup = false ∧ type ∈ plan.graph.shownUnder inner } seen
      (nestedDeclarations plan (declareFrom plan bound) node) := by
  rw [nested_declarations_eq]
  refine .of_first (of_mapM fun id listed => ?_) fun _ => of_pure _
  unfold nestedDeclaration
  split
  · exact of_fail _
  · rename_i found
    split
    · rename_i isGroup
      refine weaken (of_pure _) ?_ subset_rfl
      rintro type ⟨other, same, plain, _⟩
      rw [found] at same
      cases same
      rw [isGroup] at plain
      cases plain
    · rename_i other plain
      have encloses : plan.graph.Encloses node other :=
        .nested single opens listed found (by simpa using plain)
      refine (inner other (Graph.mem_of_node? found)
        ((shown_under_inner encloses).trans inSeen)).weaken ?_ subset_rfl
      rintro type ⟨_, same, _, shown⟩
      rw [found] at same
      cases same
      exact shown

/-- Nothing stands inside a node that is neither a struct nor an interface. -/
theorem shown_under_leaf {type : SchemaType} (noStruct : node.kind ≠ .struct)
    (noInterface : node.kind ≠ .interface) (shown : type ∈ plan.graph.shownUnder node) :
    plan.graph.Shows node type := by
  rcases Graph.mem_shown_under_iff.mp shown with shows | ⟨inner, encloses, _⟩
  · exact shows
  · cases encloses with
    | nested _ opens _ _ _ => exact (opens.elim noStruct noInterface).elim
    | body isStruct _ _ _ => exact absurd isStruct noStruct

theorem not_shown_under {type : SchemaType} (noStruct : node.kind ≠ .struct)
    (noInterface : node.kind ≠ .interface) (noConst : node.kind ≠ .const) :
    type ∉ plan.graph.shownUnder node := by
  intro shown
  cases shown_under_leaf noStruct noInterface shown with
  | member isStruct => exact noStruct isStruct
  | argument isInterface => exact noInterface isInterface
  | const isConst => exact noConst isConst

theorem declareStruct (inGraph : node ∈ plan.graph.nodes) (isStruct : node.kind = .struct)
    (inner : ∀ {inner}, inner ∈ plan.graph.nodes → plan.graph.shownUnder inner ⊆ seen →
      Raising plan (plan.graph.shownUnder inner) seen (declareFrom plan bound inner))
    (inSeen : plan.graph.shownUnder node ⊆ seen) :
    Raising plan (plan.graph.shownUnder node) seen
      (Struct.declare plan (Stub.nestedDeclarations plan (declareFrom plan bound))
        (declareFrom plan bound) node) := by
  intro before declaration after returns
  obtain ⟨internal, members, _, _, _, _, parts, _⟩ := declare_struct_returns returns
  obtain ⟨marked, nestedDone, groupsDone, viewed, marks, nests, ⟨blocks, bodies, _⟩, viewing, messages⟩ :=
    parts.made
  have slots : ∀ member ∈ members, slotType member ⊆ seen := by
    rintro member listed type ⟨slot, typed⟩
    exact inSeen (Graph.mem_shown_under_iff.mpr
      (.inl (.member isStruct parts.flattened listed slot typed)))
  have nesting : Marks plan { type | node.isGroup = false ∧ ∃ id ∈ node.nested, ∃ inner,
      plan.graph.node? id = some inner ∧ inner.isGroup = false ∧
        type ∈ plan.graph.shownUnder inner } seen marked nestedDone := by
    split at nests
    · rename_i isGroup
      obtain ⟨_, rfl⟩ := nests
      refine (Marks.of_carries (.refl _) rfl).weaken ?_ subset_rfl
      rintro type ⟨single, _⟩
      rw [isGroup] at single
      cases single
    · rename_i single
      refine (nestedDeclarations (by simpa using single) (.inl isStruct) (fun _ => inner) inSeen _ _ _
        nests).weaken ?_ subset_rfl
      exact fun type shown => shown.2
  have encloses : ∀ body ∈ members.filterMap Member.group, body ∈ plan.graph.nodes ∧
      plan.graph.Encloses node body := by
    intro body listed
    obtain ⟨member, inMembers, isBody⟩ := List.mem_filterMap.mp listed
    obtain ⟨_, _, found⟩ := mem_of_node_from parts.flattened inGraph inMembers
    exact ⟨Graph.mem_of_node? (found body isBody).2, .body isStruct parts.flattened inMembers isBody⟩
  have grouping := of_mapM (fun body listed => inner (encloses body listed).1
    ((shown_under_inner (encloses body listed).2).trans inSeen)) _ _ _ bodies
  have ending : Marks plan ∅ seen viewed after := by
    split at messages
    · obtain ⟨_, rfl⟩ := messages
      exact .of_carries (.refl _) rfl
    · obtain ⟨_, writes, _⟩ := messages
      exact newMessage internal slots _ _ _ writes
  refine (((((of_in_registry _ _ _ _ marks).trans nesting).trans grouping).trans
    (views node internal slots _ _ _ viewing)).trans ending).weaken ?_ subset_rfl
  intro type shown
  rcases Graph.mem_shown_under_iff.mp shown with shows | ⟨found, stands, under⟩
  · cases shows with
    | member _ flattened listed slot typed =>
        rw [parts.flattened] at flattened
        cases flattened
        exact .inl (.inr ⟨_, listed, slot, typed⟩)
    | argument isInterface => simp [isStruct] at isInterface
    | const isConst => simp [isStruct] at isConst
  · cases stands with
    | nested single _ listed isFound plain =>
        exact .inl (.inl (.inl (.inr ⟨single, _, listed, found, isFound, plain, under⟩)))
    | body _ flattened listed group =>
        rw [parts.flattened] at flattened
        cases flattened
        exact .inl (.inl (.inr ⟨found, List.mem_filterMap.mpr ⟨_, listed, group⟩, under⟩))

theorem declareInterface (single : node.isGroup = false) (isInterface : node.kind = .interface)
    (inner : ∀ {inner}, inner ∈ plan.graph.nodes → plan.graph.shownUnder inner ⊆ seen →
      Raising plan (plan.graph.shownUnder inner) seen (declareFrom plan bound inner))
    (inSeen : plan.graph.shownUnder node ⊆ seen) :
    Raising plan (plan.graph.shownUnder node) seen
      (Interface.declare plan (Stub.nestedDeclarations plan (declareFrom plan bound)) node) := by
  intro before declaration after returns
  obtain ⟨internal, _, _, _, _, parts, _⟩ := declare_interface_returns returns
  obtain ⟨marked, nestedDone, based, marks, nests, basing, surfacing⟩ := parts.made
  have arguments : ∀ method ∈ node.methods, methodTypes method ⊆ seen := by
    rintro method declared type ⟨field, listed, typed⟩
    exact inSeen (Graph.mem_shown_under_iff.mpr (.inl (.argument isInterface declared listed typed)))
  have nesting := nestedDeclarations single (.inr isInterface) (fun _ => inner) inSeen _ _ _ nests
  refine ((((of_in_registry _ _ _ _ marks).trans nesting).trans (bases node _ _ _ basing)).trans
    (surfaces node internal [] arguments _ _ _ surfacing)).weaken ?_ subset_rfl
  intro type shown
  rcases Graph.mem_shown_under_iff.mp shown with shows | ⟨found, stands, under⟩
  · cases shows with
    | member isStruct => simp [isInterface] at isStruct
    | argument _ declared listed typed => exact .inr ⟨_, declared, _, listed, typed⟩
    | const isConst => simp [isInterface] at isConst
  · cases stands with
    | nested _ _ listed isFound plain =>
        exact .inl (.inl (.inr ⟨_, listed, found, isFound, plain, under⟩))
    | body isStruct _ _ _ => simp [isInterface] at isStruct

/-- A declaration shows the types under its node, and writes no others. -/
theorem declareFrom (groups : ∀ node ∈ plan.graph.nodes, node.isGroup = true → node.kind = .struct)
    (inGraph : node ∈ plan.graph.nodes) (inSeen : plan.graph.shownUnder node ⊆ seen) :
    Raising plan (plan.graph.shownUnder node) seen (Stub.declareFrom plan bound node) := by
  induction bound generalizing node with
  | zero => exact of_fail _
  | succ bound induction =>
      intro before declarations after returns
      obtain ⟨_, same, declared⟩ := declare_from_returns returns
      cases same
      have shown : ∀ {type}, plan.graph.Shows node type → type ∈ seen :=
        fun shows => inSeen (Graph.mem_shown_under_iff.mpr (.inl shows))
      have begun : ∀ {start}, Begins node before start → Marks plan ∅ seen before start := by
        rintro start (⟨_, rfl⟩ | ⟨_, notes⟩)
        · exact .of_carries (.refl _) rfl
        · exact of_in_registry _ _ _ _ notes
      cases declared with
      | struct isStruct begins declares =>
          have isStruct := isStruct.elim (groups node inGraph) id
          exact (begun begins).after_quiet (declareStruct inGraph isStruct induction inSeen _ _ _ declares)
      | enum single isEnum begins declares =>
          obtain ⟨_, _, _, marks, _⟩ := declare_enum_returns declares
          refine ((begun begins).trans (of_in_registry _ _ _ _ marks)).weaken (fun type shown => ?_) subset_rfl
          exact absurd shown (not_shown_under (by simp [isEnum]) (by simp [isEnum]) (by simp [isEnum]))
      | interface single isInterface begins declares =>
          exact (begun begins).after_quiet
            (declareInterface single isInterface induction inSeen _ _ _ declares)
      | const single isConst begins typed =>
          refine (begun begins).after_quiet ((typeText fun type same => shown (.const isConst same)) _ _ _ typed
            |>.weaken ?_ subset_rfl)
          rintro type shown
          cases shown_under_leaf (by simp [isConst]) (by simp [isConst]) shown with
          | member isStruct => simp [isConst] at isStruct
          | argument isInterface => simp [isConst] at isInterface
          | const _ same => exact ⟨rfl, same⟩
      | nothing single unseen begins =>
          refine (begun begins).weaken (fun type shown => ?_) subset_rfl
          exact absurd shown (not_shown_under (by simp [unseen]) (by simp [unseen]) (by simp [unseen]))

end Declarations

end Raising

end Stub

end SchemaStubs
