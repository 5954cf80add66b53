import Mathlib.Data.List.Forall2
import Mathlib.Data.Set.Basic
import SchemaStubs.Proofs.Lists
import SchemaStubs.Proofs.Stub.ClassParts
import SchemaStubs.Proofs.Stub.Flattening
import SchemaStubs.Proofs.Stub.ModuleNames
import SchemaStubs.Proofs.Text.ByteOrder
import SchemaStubs.Stub.Declaration

/-!
Sets of overloads, and those that initialize the members of builders. A set of methods of one name
holds one typed form for each of some items, in the order of their keys, and then a form that takes
anything. All of them are marked as overloads, unless the last one stands alone, which is then a plain
method. A builder has one typed initializer for each of its members that is a struct, a list or a named
group, by the names of their fields.
-/

namespace SchemaStubs.Stub

variable {α β : Type}

/-- A method without its decorators. -/
def Signature.bare (signature : Signature) : Signature :=
  { signature with decorators := [] }

/-- The methods are a typed form for each of the items and for nothing else, by the keys of the items,
and then the fallback. -/
structure OverloadSet (items : Set α) (keyed : α → String → Prop) (formed : α → Signature → Prop)
    (fallback : Signature) (methods : List Signature) : Prop where
  typed : ∃ ordered keys forms, (∀ item, item ∈ ordered ↔ item ∈ items) ∧
    List.Forall₂ keyed ordered keys ∧ keys.Pairwise (· < ·) ∧ List.Forall₂ formed ordered forms ∧
    methods.map Signature.bare = forms ++ [fallback]
  /-- Marked are either all or, where there is one, none. -/
  marked : (2 ≤ methods.length ∧ ∀ method ∈ methods, method.decorators = ["overload"]) ∨
    ∃ method, methods = [method] ∧ method.decorators = []

theorem Signature.bare_of_plain {signature : Signature} (plain : signature.decorators = []) :
    signature.bare = signature := by
  unfold bare
  rw [← plain]

/-- Marking a method as an overload changes nothing else about it. -/
theorem Signature.bare_overloaded {signature : Signature} (plain : signature.decorators = []) :
    signature.overloaded.bare = signature :=
  bare_of_plain plain

theorem OverloadSet.mem_cases {items : Set α} {keyed : α → String → Prop}
    {formed : α → Signature → Prop} {fallback : Signature} {methods : List Signature}
    (overloads : OverloadSet items keyed formed fallback methods) {method : Signature}
    (listed : method ∈ methods) :
    (∃ item ∈ items, formed item method.bare) ∨ method.bare = fallback := by
  obtain ⟨ordered, _, forms, same, _, _, formed, whole⟩ := overloads.typed
  have inside : method.bare ∈ forms ++ [fallback] := whole ▸ List.mem_map_of_mem listed
  rcases List.mem_append.mp inside with isForm | last
  · obtain ⟨item, inOrdered, shape⟩ := Lists.exists_of_mem_left formed.flip isForm
    exact .inl ⟨item, (same item).mp inOrdered, shape⟩
  · exact .inr (List.mem_singleton.mp last)

theorem Signature.map_bare_overloads {typed : List Signature} {fallback : Signature}
    (plain : ∀ signature ∈ typed ++ [fallback], signature.decorators = []) :
    (overloads typed fallback).map bare = typed ++ [fallback] := by
  have unmarked : ∀ signature ∈ typed ++ [fallback], signature.overloaded.bare = signature :=
    fun signature listed => bare_overloaded (plain signature listed)
  unfold overloads
  split
  · rename_i none
    rw [List.isEmpty_iff.mp none, List.map_singleton, List.nil_append,
      bare_of_plain (plain fallback (List.mem_append_right _ (List.mem_singleton_self _)))]
  · rw [List.map_map]
    exact (List.map_congr_left unmarked).trans (List.map_id _)

theorem Signature.marked_overloads {typed : List Signature} {fallback : Signature}
    (plain : ∀ signature ∈ typed ++ [fallback], signature.decorators = []) :
    (2 ≤ (overloads typed fallback).length ∧
        ∀ method ∈ overloads typed fallback, method.decorators = ["overload"]) ∨
      ∃ method, overloads typed fallback = [method] ∧ method.decorators = [] := by
  unfold overloads
  split
  · exact .inr ⟨fallback, rfl, plain fallback (List.mem_append_right _ (List.mem_singleton_self _))⟩
  · rename_i some
    have present : 0 < typed.length := List.length_pos_iff.mpr (by simpa using some)
    refine .inl ⟨by rw [List.length_map, List.length_append, List.length_singleton]; omega, ?_⟩
    intro method listed
    obtain ⟨signature, inside, rfl⟩ := List.mem_map.mp listed
    unfold overloaded
    rw [plain signature inside]

/-- Entries sorted by keys that differ stand in the strict order of the keys. -/
theorem keys_sorted {entries : List β} {key : β → String} (distinct : (entries.map key).Nodup) :
    ((sortBy (fun first second => Text.precedes (key first) (key second)) entries).map key).Pairwise
      (· < ·) := by
  have sorted := Lists.pairwise_sort_by
    (fun one two three => Text.precedes_trans (key one) (key two) (key three))
    (fun one two => Text.precedes_total (key one) (key two)) entries
  have apart := ((Lists.sort_by_perm (fun first second => Text.precedes (key first) (key second))
    entries).map key).nodup_iff.mpr distinct
  rw [List.pairwise_map]
  refine (sorted.and (List.pairwise_map.mp apart)).imp fun {first second} ⟨before, other⟩ => ?_
  by_contra late
  exact other (String.le_antisymm (of_decide_eq_true before) (String.not_lt.mp late))

theorem OverloadSet.of_sorted {items : Set α} {keyed : α → String → Prop}
    {formed : α → Signature → Prop} {fallback : Signature} {entries : List β} (item : β → α)
    (key : β → String) (form : β → Signature)
    (listed : ∀ found, (∃ entry ∈ entries, item entry = found) ↔ found ∈ items)
    (distinct : (entries.map key).Nodup)
    (hasKey : ∀ entry ∈ entries, keyed (item entry) (key entry))
    (hasForm : ∀ entry ∈ entries, formed (item entry) (form entry))
    (plain : ∀ entry ∈ entries, (form entry).decorators = []) (plainFallback : fallback.decorators = []) :
    OverloadSet items keyed formed fallback (Signature.overloads
      ((sortBy (fun first second => Text.precedes (key first) (key second)) entries).map form)
      fallback) := by
  let sorted := sortBy (fun first second => Text.precedes (key first) (key second)) entries
  have related : ∀ {γ : Type} {relation : α → γ → Prop} {image : β → γ},
      (∀ entry ∈ entries, relation (item entry) (image entry)) →
        List.Forall₂ relation (sorted.map item) (sorted.map image) := by
    intro γ relation image each
    rw [List.forall₂_map_left_iff, List.forall₂_map_right_iff, List.forall₂_same]
    exact fun entry inside => each entry (Lists.mem_sort_by.mp inside)
  have noDecorators : ∀ signature ∈ sorted.map form ++ [fallback], signature.decorators = [] := by
    intro signature inside
    rcases List.mem_append.mp inside with isForm | last
    · obtain ⟨entry, inSorted, rfl⟩ := List.mem_map.mp isForm
      exact plain entry (Lists.mem_sort_by.mp inSorted)
    · rwa [List.mem_singleton.mp last]
  refine ⟨⟨sorted.map item, sorted.map key, sorted.map form, fun found => ?_, related hasKey,
    keys_sorted distinct, related hasForm, Signature.map_bare_overloads noDecorators⟩,
    Signature.marked_overloads noDecorators⟩
  rw [← listed found, List.mem_map]
  exact exists_congr fun entry => and_congr_left fun _ => Lists.mem_sort_by

/-! ### One builder -/

variable {plan : Plan} {registry : Registry} {file node : Node} {before after : Draft}

/-- A member whose value is made by an initializer: a named group, a struct or a list. -/
def Member.IsInitialized (member : Member) : Prop :=
  member.group.isSome = true ∨
    ∃ type, member.field.type = some type ∧ (type.kind = .struct ∨ type.kind = .list)

/-- The typed initializer of a member is chosen by the name of its field and gives its type as builders
show it. That of a list takes a size. -/
def Initializes (plan : Plan) (member : Member) (signature : Signature) : Prop :=
  ∃ type start reached, (member.type plan .builder).Returns start type reached ∧
    signature = {
      name := "init"
      params := { name := "field", type := literal [member.field.name] } ::
        if Struct.initializesList member then [{ name := "size", type := "int" }] else []
      returns := type }

def AreInitializersOf (plan : Plan) (members : List Member) (methods : List Signature) : Prop :=
  OverloadSet { member | member ∈ members ∧ member.IsInitialized }
    (fun member key => key = member.field.name) (Initializes plan) Struct.fallbackInitializer methods

def Signature.IsAccessor (signature : Signature) : Prop :=
  signature.decorators = ["property"] ∨ signature.decorators = [signature.name ++ ".setter"]

/-- The builder of a struct or of a group. Its initializers stand in one set, and nothing else in it
has their name but accessors. -/
structure BuilderOf (plan : Plan) (registry : Registry) (node : Node) (body : List Declaration) :
    Prop where
  isStruct : node.kind = .struct
  parts : ∃ internal members front initializers back, registry.internal? node.id = some internal ∧
    Flattens plan.graph node node.fields members ∧
    body = front ++ initializers.map Declaration.method ++ back ∧
    .method { name := "as_reader", returns := internal ++ ".Reader" } ∈ back ∧
    (∀ signature, .method signature ∈ front ++ back → signature.name = "init" →
      signature.IsAccessor) ∧
    AreInitializersOf plan members initializers

/-- Of the classes of a declaration those that are named as builders are builders. -/
def HoldsBuilders (plan : Plan) (registry : Registry) (declaration : Declaration) : Prop :=
  ∀ outer, ∀ statement ∈ declaration.classes outer, statement.name = "Builder" →
    ∃ node ∈ plan.graph.nodes, BuilderOf plan registry node statement.body

namespace HoldsBuilders

theorem of_plain {declaration : Declaration} (plain : declaration.isClass = false) :
    HoldsBuilders plan registry declaration := by
  cases declaration with
  | «class» => cases plain
  | method => nofun
  | annotated => nofun
  | typeAlias => nofun

end HoldsBuilders

section Declarations

variable {bound : Nat} (located : plan.Located) (canonical : registry.Canonical plan.graph)

include located canonical

end Declarations

end SchemaStubs.Stub
