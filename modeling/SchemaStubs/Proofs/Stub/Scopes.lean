import SchemaStubs.Proofs.Stub.ClassTree
import SchemaStubs.Proofs.Stub.ModuleNames

/-!
What the scopes of a stub bind. A method binds its parameters, a class the names of its statements.
That no scope binds a name twice is asked of every class and method inside a declaration; the classes
that stand for nodes may at first be left out, since their paths tell whether they have names of their
own.
-/

namespace SchemaStubs.Stub

def Param.boundName (param : Param) : String :=
  String.ofList (param.name.toList.dropWhile fun c => c == '*')

/-- The names that the parameters of a method bind. A star alone binds none. -/
def Signature.boundNames (signature : Signature) : List String :=
  "self" :: (signature.params.map Param.boundName).filter fun name => name != ""

namespace Declaration

/-- Two statements that bind one name together: overloads of a method, or a property and its
setter. -/
def isOneWith : Declaration → Declaration → Bool
  | .method first, .method second =>
      (first.decorators.contains "overload" && second.decorators.contains "overload") ||
        (first.decorators == ["property"] && second.decorators == [first.name ++ ".setter"])
  | _, _ => false

/-- No method in a declaration has two parameters of one name, and no class has two statements of one
name, except those that the relation lets share it. -/
inductive Apart (share : Declaration → Declaration → Prop) : Declaration → Prop where
  | class {name : String} {bases doc : List String} {body : List Declaration}
      (apart : body.Pairwise fun one two => one.name = two.name → share one two)
      (inner : ∀ declaration ∈ body, declaration.Apart share) :
      (Declaration.class name bases doc body).Apart share
  | method {signature : Signature} (distinct : signature.boundNames.Nodup) :
      (Declaration.method signature).Apart share
  | annotated {name type : String} : (Declaration.annotated name type).Apart share
  | typeAlias {name target : String} : (Declaration.typeAlias name target).Apart share

def BindsOnce (declaration : Declaration) : Prop :=
  declaration.Apart fun one two => one.isOneWith two = true

def repeatsParameter : Declaration → Bool
  | .class _ _ _ body => body.any fun
      | .method signature => !decide signature.boundNames.Nodup
      | _ => false
  | _ => false

theorem not_binds_once {declaration : Declaration} (repeats : declaration.repeatsParameter = true) :
    ¬ declaration.BindsOnce := by
  intro once
  cases once with
  | «class» _ inner =>
      obtain ⟨method, listed, twice⟩ := List.any_eq_true.mp repeats
      cases inner method listed with
      | method distinct => simp [distinct] at twice
      | _ => cases twice
  | _ => cases repeats

def isModuleClass : Declaration → Bool
  | .class name _ _ _ => Text.endsWith moduleWord name
  | _ => false

/-- Statements that may share a name as long as the paths of classes are not looked at. -/
def MayShare (one two : Declaration) : Prop :=
  one.isOneWith two = true ∨ one.isModuleClass = true ∧ two.isModuleClass = true

/-- No scope in a declaration binds a name twice, unless for two classes of nodes. -/
abbrev NearlyApart (declaration : Declaration) : Prop :=
  declaration.Apart MayShare

end Declaration

section Paths

variable {outer : String} {body : List Declaration} {declaration : Declaration}

theorem module_classes_sublist (member : declaration ∈ body) :
    (moduleClasses outer [declaration]).Sublist (moduleClasses outer body) := by
  obtain ⟨front, back, rfl⟩ := List.append_of_mem member
  rw [module_classes_append, module_classes_cons outer declaration back]
  exact (List.sublist_append_left _ _).trans (List.sublist_append_right _ _)

theorem path_mem_module_classes (module : declaration.isModuleClass = true) :
    Registry.qualify outer declaration.name ∈
      (moduleClasses outer [declaration]).map ClassStatement.path := by
  cases declaration with
  | «class» name bases doc body =>
      have ends : Text.endsWith moduleWord name = true := module
      rw [module_classes_module ends, List.map_cons]
      exact List.mem_cons_self
  | method => cases module
  | annotated => cases module
  | typeAlias => cases module

/-- Classes of nodes that stand side by side have different names if their paths differ. -/
theorem pairwise_of_paths (distinct : ((moduleClasses outer body).map ClassStatement.path).Nodup) :
    body.Pairwise fun one two =>
      one.isModuleClass = true ∧ two.isModuleClass = true → one.name ≠ two.name := by
  induction body with
  | nil => exact .nil
  | cons first rest induction =>
      rw [module_classes_cons, List.map_append, List.nodup_append] at distinct
      obtain ⟨_, later, apart⟩ := distinct
      refine .cons (fun other listed modules same => ?_) (induction later)
      have inRest : Registry.qualify outer other.name ∈
          (moduleClasses outer rest).map ClassStatement.path :=
        ((module_classes_sublist listed).map _).subset (path_mem_module_classes modules.2)
      exact apart _ (path_mem_module_classes modules.1) _ inRest (by rw [same])

/-- Where all classes of nodes have paths of their own, no scope binds a name twice. -/
theorem Declaration.Apart.bindsOnce (nearly : declaration.NearlyApart)
    (distinct : ((moduleClasses outer [declaration]).map ClassStatement.path).Nodup) :
    declaration.BindsOnce := by
  induction nearly generalizing outer with
  | @«class» name bases doc body apart _ induction =>
      have below : ((moduleClasses (Registry.qualify outer name) body).map
          ClassStatement.path).Nodup := by
        unfold moduleClasses at distinct ⊢
        simp only [classesIn, Declaration.classes, List.append_nil] at distinct
        refine List.Sublist.nodup (List.Sublist.map _ ?_) distinct
        exact (List.sublist_cons_self _ _).filter _
      refine .class ?_ fun inner listed => ?_
      · refine ((pairwise_of_paths below).and apart).imp ?_
        rintro one two ⟨modules, shares⟩ same
        exact (shares same).resolve_right fun both => modules both same
      · exact induction inner listed (((module_classes_sublist listed).map _).nodup below)
  | method params => exact .method params
  | annotated => exact .annotated
  | typeAlias => exact .typeAlias

end Paths

section Bodies

/-- Statements with names among some, of which none share a name, except those that may. -/
structure NamedWithin (names : List String) (declarations : List Declaration) : Prop where
  apart : declarations.Pairwise fun one two => one.name = two.name → one.MayShare two
  within : ∀ declaration ∈ declarations, declaration.name ∈ names

namespace NamedWithin

variable {one two : List Declaration} {names others : List String}

theorem of_nodup {declarations : List Declaration} (named : declarations.map Declaration.name = names)
    (distinct : names.Nodup) : NamedWithin names declarations where
  apart := by
    rw [← named] at distinct
    exact (List.pairwise_map.mp distinct).imp fun different same => absurd same different
  within _ listed := named ▸ List.mem_map_of_mem listed

theorem append (first : NamedWithin names one) (second : NamedWithin others two)
    (disjoint : ∀ name ∈ names, name ∉ others) : NamedWithin (names ++ others) (one ++ two) where
  apart := by
    refine List.pairwise_append.mpr ⟨first.apart, second.apart, fun front inFront back inBack same => ?_⟩
    exact absurd (same ▸ second.within back inBack) (disjoint _ (first.within front inFront))
  within := List.forall_mem_append.mpr
    ⟨fun front listed => List.mem_append_left _ (first.within front listed),
      fun back listed => List.mem_append_right _ (second.within back listed)⟩

/-- Blocks of statements for items, in which each statement has the name of its item. -/
theorem flatten {α : Type} {items : List α} {blocks : List (List Declaration)} {name : α → String}
    (distinct : (items.map name).Nodup)
    (each : List.Forall₂ (fun item block => NamedWithin [name item] block) items blocks) :
    NamedWithin (items.map name) blocks.flatten := by
  induction each with
  | nil => exact ⟨.nil, by simp⟩
  | cons first _ induction =>
      rw [List.map_cons, List.nodup_cons] at distinct
      refine first.append (induction distinct.2) fun shared isFirst => ?_
      rw [List.mem_singleton.mp isFirst]
      exact distinct.1

end NamedWithin

end Bodies

end SchemaStubs.Stub
