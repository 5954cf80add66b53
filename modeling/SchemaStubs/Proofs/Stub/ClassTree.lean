import SchemaStubs.Naming.Registry
import SchemaStubs.Proofs.Naming.Segment
import SchemaStubs.Stub.Declaration

/-!
The class statements of a stub, each with the path of the classes around it. The classes that stand
for nodes are told apart from those inside them by their names, which end with the same word.
-/

namespace SchemaStubs.Stub

/-- A class statement. Its path is the names of the classes around it and then its own. -/
structure ClassStatement where
  path : String
  name : String
  bases : List String
  doc : List String
  body : List Declaration

mutual

/-- The class statements of a declaration, each before those inside it; `outer` is the path of the
classes around the declaration. -/
def Declaration.classes (outer : String) : Declaration → List ClassStatement
  | .class name bases doc body =>
      ⟨Registry.qualify outer name, name, bases, doc, body⟩ ::
        classesIn (Registry.qualify outer name) body
  | .method _ => []
  | .annotated _ _ => []
  | .typeAlias _ _ => []

def classesIn (outer : String) : List Declaration → List ClassStatement
  | [] => []
  | declaration :: rest => declaration.classes outer ++ classesIn outer rest

end

def Declaration.typeName? : Declaration → Option String
  | .class name _ _ _ => some name
  | .typeAlias name _ => some name
  | _ => none

def Declaration.isClass : Declaration → Bool
  | .class .. => true
  | _ => false

def ClassStatement.isModule (statement : ClassStatement) : Bool :=
  Text.endsWith moduleWord statement.name

def moduleClasses (outer : String) (declarations : List Declaration) : List ClassStatement :=
  (classesIn outer declarations).filter ClassStatement.isModule

/-- A class, or a type alias of a class, stands at the path. -/
def Emits (declarations : List Declaration) (path : String) : Prop :=
  ∃ statement ∈ classesIn "" declarations, statement.path = path ∨
    ∃ name target, .typeAlias name target ∈ statement.body ∧
      path = Registry.qualify statement.path name

def emittedPaths (declarations : List Declaration) : List String :=
  (classesIn "" declarations).flatMap fun statement => statement.path ::
    statement.body.filterMap fun
      | .typeAlias name _ => some (Registry.qualify statement.path name)
      | _ => none

variable {outer path : String} {declarations others : List Declaration}

theorem mem_emitted_paths_iff : path ∈ emittedPaths declarations ↔ Emits declarations path := by
  unfold emittedPaths Emits
  rw [List.mem_flatMap]
  refine exists_congr fun statement => and_congr_right fun _ => ?_
  rw [List.mem_cons, List.mem_filterMap, eq_comm]
  refine or_congr_right ⟨?_, ?_⟩
  · rintro ⟨declaration, listed, same⟩
    cases declaration with
    | typeAlias name target => exact ⟨name, target, listed, (Option.some.inj same).symm⟩
    | «class» | method | annotated => cases same
  · rintro ⟨name, target, listed, rfl⟩
    exact ⟨_, listed, rfl⟩

instance (declarations : List Declaration) (path : String) : Decidable (Emits declarations path) :=
  decidable_of_iff _ mem_emitted_paths_iff

theorem classes_in_append (outer : String) (declarations others : List Declaration) :
    classesIn outer (declarations ++ others) =
      classesIn outer declarations ++ classesIn outer others := by
  induction declarations with
  | nil => rfl
  | cons declaration rest induction =>
      rw [List.cons_append, classesIn, classesIn, induction, List.append_assoc]

theorem classes_in_of_plain (plain : ∀ declaration ∈ declarations, declaration.isClass = false) :
    classesIn outer declarations = [] := by
  induction declarations with
  | nil => rfl
  | cons declaration rest induction =>
      have first := plain declaration List.mem_cons_self
      rw [classesIn, induction fun other member => plain other (List.mem_cons_of_mem _ member)]
      cases declaration with
      | «class» => cases first
      | method => rfl
      | annotated => rfl
      | typeAlias => rfl

theorem module_classes_append (outer : String) (declarations others : List Declaration) :
    moduleClasses outer (declarations ++ others) =
      moduleClasses outer declarations ++ moduleClasses outer others := by
  unfold moduleClasses
  rw [classes_in_append, List.filter_append]

theorem module_classes_of_plain (plain : ∀ declaration ∈ declarations, declaration.isClass = false) :
    moduleClasses outer declarations = [] := by
  unfold moduleClasses
  rw [classes_in_of_plain plain]
  rfl

theorem module_classes_class_of_plain {name : String} {bases doc : List String}
    {body : List Declaration} (other : Text.endsWith moduleWord name = false)
    (plain : ∀ declaration ∈ body, declaration.isClass = false) :
    moduleClasses outer [.class name bases doc body] = [] := by
  simp [moduleClasses, classesIn, Declaration.classes, classes_in_of_plain plain,
    ClassStatement.isModule, other]

theorem module_classes_cons (outer : String) (declaration : Declaration)
    (rest : List Declaration) : moduleClasses outer (declaration :: rest) =
      moduleClasses outer [declaration] ++ moduleClasses outer rest :=
  module_classes_append outer [declaration] rest

theorem module_classes_module {name : String} {bases doc : List String} {body : List Declaration}
    (module : Text.endsWith moduleWord name = true) :
    moduleClasses outer [.class name bases doc body] =
      ⟨Registry.qualify outer name, name, bases, doc, body⟩ ::
        moduleClasses (Registry.qualify outer name) body := by
  simp [moduleClasses, classesIn, Declaration.classes, ClassStatement.isModule, module]

mutual

/-- A class inside a class statement is a class statement behind its path. -/
theorem Declaration.classes_inner {statement : ClassStatement} {name : String}
    {bases doc : List String} {body : List Declaration}
    (inner : .class name bases doc body ∈ statement.body) :
    ∀ (declaration : Declaration) (outer : String), statement ∈ declaration.classes outer →
      ⟨Registry.qualify statement.path name, name, bases, doc, body⟩ ∈ declaration.classes outer
  | .class other _ _ parts, outer, member => by
      unfold Declaration.classes at member ⊢
      rcases List.mem_cons.mp member with rfl | deeper
      · have inParts : .class name bases doc body ∈ parts := inner
        obtain ⟨front, back, rfl⟩ := List.append_of_mem inParts
        rw [classes_in_append, classesIn, Declaration.classes]
        simp
      · exact List.mem_cons_of_mem _ (classes_in_inner inner parts _ deeper)
  | .method _, outer, member => by cases member
  | .annotated _ _, outer, member => by cases member
  | .typeAlias _ _, outer, member => by cases member

theorem classes_in_inner {statement : ClassStatement} {name : String} {bases doc : List String}
    {body : List Declaration} (inner : .class name bases doc body ∈ statement.body) :
    ∀ (declarations : List Declaration) (outer : String), statement ∈ classesIn outer declarations →
      ⟨Registry.qualify statement.path name, name, bases, doc, body⟩ ∈ classesIn outer declarations
  | [], outer, member => by cases member
  | declaration :: rest, outer, member => by
      unfold classesIn at member ⊢
      rcases List.mem_append.mp member with here | later
      · exact List.mem_append_left _ (Declaration.classes_inner inner declaration outer here)
      · exact List.mem_append_right _ (classes_in_inner inner rest outer later)

end

/-- What a class statement holds under a type's name is emitted behind its path. -/
theorem emits_part {statement : ClassStatement} (member : statement ∈ classesIn "" declarations)
    {part : String} (inside : part ∈ statement.body.filterMap Declaration.typeName?) :
    Emits declarations (Registry.qualify statement.path part) := by
  obtain ⟨declaration, listed, named⟩ := List.mem_filterMap.mp inside
  cases declaration with
  | «class» name bases doc body =>
      cases named
      exact ⟨_, classes_in_inner listed declarations "" member, .inl rfl⟩
  | method => cases named
  | annotated => cases named
  | typeAlias name target =>
      cases named
      exact ⟨statement, member, .inr ⟨part, target, listed, rfl⟩⟩

end SchemaStubs.Stub
