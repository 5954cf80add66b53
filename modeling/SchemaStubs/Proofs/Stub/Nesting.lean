import Mathlib.Data.List.TakeWhile
import SchemaStubs.Proofs.Stub.Levels
import SchemaStubs.Stub.Page

/-!
The nesting of declarations in the text. A page that is written declaration by declaration, with its
level moved in and out again, has the lines of the layout and its level back at the end. A line that
ends in a colon has a deeper one right behind it, and the blanks in front of the lines tell which of
them stand inside which.
-/

namespace SchemaStubs.Stub

/-! ### Writing at a level that moves -/

namespace Declaration

mutual

/-- Writes a declaration on a page; what stands inside a class is one level further in. -/
def write (page : Page) : Declaration → Page
  | .class name bases doc body =>
      if doc.isEmpty && body.isEmpty then page.line (classHead name bases ++ ": ...")
      else
        (writeIn ((page.line (classHead name bases ++ ":")).indent.docstring doc) body).dedent
  | .method signature =>
      let decorated := signature.decorators.foldl (fun page decorator => page.line ("@" ++ decorator)) page
      if signature.doc.isEmpty then decorated.line (signature.head ++ " ...")
      else ((decorated.line signature.head).indent.docstring signature.doc).dedent
  | .annotated name type => page.line (name ++ ": " ++ type)
  | .typeAlias name target => page.line (name ++ ": TypeAlias = " ++ target)

def writeIn (page : Page) : List Declaration → Page
  | [] => page
  | declaration :: rest => writeIn (declaration.write page) rest

end

end Declaration

namespace Page

theorem add_add (page : Page) (front back : List Line) :
    (page.add front).add back = page.add (front ++ back) := by
  simp [add]

theorem add_nil (page : Page) : page.add [] = page := by
  simp [add]

theorem dedent_add_indent (page : Page) (front back : List Line) :
    ((page.add front).indent.add back).dedent = page.add (front ++ back) := by
  simp [add, indent, dedent]

theorem lines_foldl (page : Page) (texts : List String) :
    texts.foldl Page.line page = page.add (texts.map fun text => ⟨page.level, text⟩) := by
  induction texts generalizing page with
  | nil => exact (add_nil page).symm
  | cons text rest induction =>
      rw [List.foldl_cons, induction, Page.line, add_add]
      rfl

theorem text_add (page : Page) (lines : List Line) :
    (page.add lines).text = page.text ++ renderLines lines :=
  render_lines_append page.lines lines

end Page

namespace Declaration

theorem write_method (page : Page) (signature : Signature) :
    (Declaration.method signature).write page = page.add (signature.lines page.level) := by
  have decorated := Page.lines_foldl page (signature.decorators.map fun decorator => "@" ++ decorator)
  rw [List.foldl_map, List.map_map] at decorated
  unfold write Signature.lines
  rw [decorated]
  split
  · exact Page.add_add _ _ _
  · refine (congrArg (fun start : Page => (start.indent.docstring signature.doc).dedent)
      (Page.add_add page _ _)).trans ((Page.dedent_add_indent page _ _).trans ?_)
    rw [List.append_assoc]
    rfl

mutual

/-- The level moves back to where it was, and the lines are those of the layout. -/
theorem write_eq (page : Page) : ∀ declaration : Declaration,
    declaration.write page = page.declare declaration
  | .class name bases doc body => by
      unfold write Page.declare lines
      split
      · rfl
      · have inner := write_in_eq ((page.line (classHead name bases ++ ":")).indent.docstring doc) body
        rw [inner, Page.docstring, Page.add_add]
        exact Page.dedent_add_indent page _ _
  | .method signature => write_method page signature
  | .annotated _ _ => rfl
  | .typeAlias _ _ => rfl

theorem write_in_eq (page : Page) : ∀ body : List Declaration,
    writeIn page body = page.add (bodyLines page.level body)
  | [] => (Page.add_nil page).symm
  | declaration :: rest => by
      rw [writeIn, write_eq page declaration, write_in_eq _ rest, bodyLines]
      exact Page.add_add page _ _

end

end Declaration

/-! ### The roles of lines -/

/-- What a line of a declaration is: a decorator, the head of a class or method, part of a docstring,
or a name with its type. -/
inductive RowKind where
  | decorator
  | head
  | doc
  | binding
  deriving DecidableEq

structure Row where
  kind : RowKind
  line : Line

namespace Row

def isCode (row : Row) : Bool :=
  row.kind != .doc

def written (row : Row) : String :=
  row.line.written

end Row

def docRows (level : Nat) (doc : List String) : List Row :=
  (docstring level doc).map (Row.mk .doc)

namespace Declaration

def methodRows (level : Nat) (signature : Signature) : List Row :=
  (signature.decorators.map fun decorator => ⟨.decorator, ⟨level, "@" ++ decorator⟩⟩) ++
    if signature.doc.isEmpty then [⟨.head, ⟨level, signature.head ++ " ..."⟩⟩]
    else ⟨.head, ⟨level, signature.head⟩⟩ :: docRows (level + 1) signature.doc

mutual

def rows (level : Nat) : Declaration → List Row
  | .class name bases doc body =>
      if doc.isEmpty && body.isEmpty then [⟨.head, ⟨level, classHead name bases ++ ": ..."⟩⟩]
      else
        ⟨.head, ⟨level, classHead name bases ++ ":"⟩⟩ ::
          (docRows (level + 1) doc ++ bodyRows (level + 1) body)
  | .method signature => methodRows level signature
  | .annotated name type => [⟨.binding, ⟨level, name ++ ": " ++ type⟩⟩]
  | .typeAlias name target => [⟨.binding, ⟨level, name ++ ": TypeAlias = " ++ target⟩⟩]

def bodyRows (level : Nat) : List Declaration → List Row
  | [] => []
  | declaration :: rest => declaration.rows level ++ bodyRows level rest

end

theorem map_line_doc_rows (level : Nat) (doc : List String) :
    (docRows level doc).map Row.line = docstring level doc := by
  simp [docRows, Function.comp_def]

theorem map_line_method_rows (level : Nat) (signature : Signature) :
    (methodRows level signature).map Row.line = signature.lines level := by
  unfold methodRows Signature.lines
  split
  · simp [Function.comp_def]
  · simp [Function.comp_def, map_line_doc_rows]

mutual

theorem map_line_rows (level : Nat) : ∀ declaration : Declaration,
    (declaration.rows level).map Row.line = declaration.lines level
  | .class name bases doc body => by
      unfold rows lines
      split
      · rfl
      · rw [List.map_cons, List.map_append, map_line_doc_rows, map_line_body_rows (level + 1) body]
  | .method signature => map_line_method_rows level signature
  | .annotated _ _ => rfl
  | .typeAlias _ _ => rfl

theorem map_line_body_rows (level : Nat) : ∀ body : List Declaration,
    (bodyRows level body).map Row.line = bodyLines level body
  | [] => rfl
  | declaration :: rest => by
      rw [bodyRows, bodyLines, List.map_append, map_line_rows level declaration,
        map_line_body_rows level rest]

end

end Declaration

/-! ### Heads that end in a colon -/

def StartsAt (level : Nat) (rows : List Row) : Prop :=
  ∃ first rest, rows = first :: rest ∧ first.line.level = level ∧ first.line.text ≠ ""

/-- A row that ends in a colon has one right behind it that is one level further in and not empty, if
it is the head of a class or method. -/
def HeadsOpen (rows : List Row) : Prop :=
  ∀ front row back, rows = front ++ row :: back → row.kind = .head →
    row.line.text.toList.getLast? = some ':' → StartsAt (row.line.level + 1) back

theorem StartsAt.append {level : Nat} {front : List Row} (starts : StartsAt level front)
    (back : List Row) : StartsAt level (front ++ back) := by
  obtain ⟨first, rest, rfl, deep, present⟩ := starts
  exact ⟨first, rest ++ back, rfl, deep, present⟩

namespace HeadsOpen

theorem nil : HeadsOpen [] := by
  intro front row back split
  exact absurd split.symm (List.append_ne_nil_of_right_ne_nil _ (List.cons_ne_nil _ _))

theorem cons {row : Row} {rest : List Row}
    (opens : row.kind = .head → row.line.text.toList.getLast? = some ':' →
      StartsAt (row.line.level + 1) rest) (later : HeadsOpen rest) : HeadsOpen (row :: rest) := by
  intro front other back split isHead colon
  rcases List.cons_eq_append_iff.mp split with ⟨rfl, same⟩ | ⟨behind, rfl, same⟩
  · obtain ⟨rfl, rfl⟩ := List.cons.inj same
    exact opens isHead colon
  · exact later behind other back same isHead colon

theorem append {front back : List Row} (first : HeadsOpen front) (second : HeadsOpen back) :
    HeadsOpen (front ++ back) := by
  induction front with
  | nil => exact second
  | cons row rest induction =>
      have opens := first [] row rest rfl
      have later : HeadsOpen rest := by
        intro front other back split
        exact first (row :: front) other back (congrArg (row :: ·) split)
      exact cons (fun isHead colon => (opens isHead colon).append back) (induction later)

theorem of_no_head {rows : List Row} (others : ∀ row ∈ rows, row.kind ≠ .head) : HeadsOpen rows := by
  rintro front row back rfl isHead
  exact absurd isHead (others row (by simp))

theorem of_closed {level : Nat} {text : String} (closed : text.toList.getLast? ≠ some ':') :
    HeadsOpen [⟨.head, ⟨level, text⟩⟩] :=
  cons (fun _ colon => absurd colon closed) nil

theorem docRows (level : Nat) (doc : List String) : HeadsOpen (docRows level doc) := by
  refine of_no_head fun row member => ?_
  obtain ⟨line, -, rfl⟩ := List.mem_map.mp member
  exact nofun

end HeadsOpen

theorem starts_at_doc_rows (level : Nat) {doc : List String} (documented : doc ≠ []) :
    StartsAt level (docRows level doc) := by
  have opens : ∀ text : String, docQuotes ++ text ≠ "" := by
    intro text empty
    have chars := congrArg String.toList empty
    simp [docQuotes] at chars
  rcases doc with _ | ⟨first, _ | ⟨second, rest⟩⟩
  · exact absurd rfl documented
  · refine ⟨_, _, rfl, rfl, ?_⟩
    dsimp only
    rw [String.append_assoc]
    exact opens _
  · exact ⟨_, _, rfl, rfl, opens _⟩

theorem heads_method_rows (level : Nat) (signature : Signature) :
    HeadsOpen (Declaration.methodRows level signature) := by
  refine .append (.of_no_head fun row member => ?_) ?_
  · obtain ⟨decorator, -, rfl⟩ := List.mem_map.mp member
    exact nofun
  · split
    · exact .of_closed (by simp)
    · rename_i documented
      refine .cons (fun _ _ => starts_at_doc_rows (level + 1) ?_) (.docRows _ _)
      simpa using documented

theorem starts_at_method_rows (level : Nat) (signature : Signature) :
    StartsAt level (Declaration.methodRows level signature) := by
  have named : ∀ back : String, signature.head ++ back ≠ "" ∧ signature.head ≠ "" := by
    intro back
    have long : signature.head.toList ≠ [] := by simp [Signature.head]
    rw [Ne, Ne, ← String.toList_eq_nil_iff, ← String.toList_eq_nil_iff, String.toList_append,
      List.append_eq_nil_iff]
    exact ⟨fun empty => long empty.1, long⟩
  unfold Declaration.methodRows
  rcases signature.decorators with _ | ⟨decorator, others⟩
  · split
    · exact ⟨_, _, rfl, rfl, (named " ...").1⟩
    · exact ⟨_, _, rfl, rfl, (named "").2⟩
  · refine ⟨_, _, rfl, rfl, fun empty => ?_⟩
    have chars := congrArg String.toList empty
    simp at chars

namespace Declaration

theorem starts_at_rows (level : Nat) (declaration : Declaration) :
    StartsAt level (declaration.rows level) := by
  have present : ∀ front back : String, front ≠ "" ∨ back ≠ "" → front ++ back ≠ "" := by
    intro front back either empty
    have chars := congrArg String.toList empty
    rw [String.toList_append, String.toList_empty, List.append_eq_nil_iff,
      String.toList_eq_nil_iff, String.toList_eq_nil_iff] at chars
    exact either.elim (· chars.1) (· chars.2)
  cases declaration with
  | «class» name bases doc body =>
      unfold rows
      split
      · exact ⟨_, _, rfl, rfl, present _ _ (.inr (by decide))⟩
      · exact ⟨_, _, rfl, rfl, present _ _ (.inr (by decide))⟩
  | method signature => exact starts_at_method_rows level signature
  | annotated name type =>
      exact ⟨_, _, rfl, rfl, present _ _ (.inl (present _ _ (.inr (by decide))))⟩
  | typeAlias name target =>
      exact ⟨_, _, rfl, rfl, present _ _ (.inl (present _ _ (.inr (by decide))))⟩

theorem starts_at_inside (level : Nat) {doc : List String} {body : List Declaration}
    (filled : ¬(doc.isEmpty && body.isEmpty) = true) :
    StartsAt level (docRows level doc ++ bodyRows level body) := by
  rcases doc with _ | ⟨first, rest⟩
  · rcases body with _ | ⟨declaration, others⟩
    · exact absurd rfl filled
    · exact (starts_at_rows level declaration).append _
  · exact (starts_at_doc_rows level (List.cons_ne_nil _ _)).append _

mutual

theorem heads_rows (level : Nat) : ∀ declaration : Declaration, HeadsOpen (declaration.rows level)
  | .class name bases doc body => by
      unfold rows
      split
      · exact .of_closed (by simp)
      · rename_i filled
        exact .cons (fun _ _ => starts_at_inside (level + 1) filled)
          (.append (.docRows _ _) (heads_body_rows (level + 1) body))
  | .method signature => heads_method_rows level signature
  | .annotated _ _ => .of_no_head (by simp [rows])
  | .typeAlias _ _ => .of_no_head (by simp [rows])

theorem heads_body_rows (level : Nat) : ∀ body : List Declaration, HeadsOpen (bodyRows level body)
  | [] => .nil
  | declaration :: rest => .append (heads_rows level declaration) (heads_body_rows level rest)

end

end Declaration

/-! ### The nesting that the blanks show -/

/-- A line with the lines that stand inside it. -/
inductive Outline where
  | node (text : String) (inner : List Outline)

def blanks (text : String) : Nat :=
  (text.toList.takeWhile (· == ' ')).length

def unindented (text : String) : String :=
  String.ofList (text.toList.dropWhile (· == ' '))

/-- Reads the nesting of lines from their blanks: inside a line stand the lines behind it that have
more blanks. -/
def outlineOf : List String → List Outline
  | [] => []
  | text :: rest =>
      .node (unindented text) (outlineOf (rest.takeWhile fun other => blanks text < blanks other)) ::
        outlineOf (rest.dropWhile fun other => blanks text < blanks other)
  termination_by texts => texts.length
  decreasing_by
  · exact Nat.lt_succ_of_le (List.takeWhile_sublist _).length_le
  · exact Nat.lt_succ_of_le (List.dropWhile_sublist _).length_le

namespace Declaration

def methodOutline (signature : Signature) : List Outline :=
  signature.decorators.map (fun decorator => .node ("@" ++ decorator) []) ++
    [.node (if signature.doc.isEmpty then signature.head ++ " ..." else signature.head) []]

mutual

/-- The nesting of a declaration, without docstrings. -/
def outline : Declaration → List Outline
  | .class name bases doc body =>
      if doc.isEmpty && body.isEmpty then [.node (classHead name bases ++ ": ...") []]
      else [.node (classHead name bases ++ ":") (outlineIn body)]
  | .method signature => methodOutline signature
  | .annotated name type => [.node (name ++ ": " ++ type) []]
  | .typeAlias name target => [.node (name ++ ": TypeAlias = " ++ target) []]

def outlineIn : List Declaration → List Outline
  | [] => []
  | declaration :: rest => declaration.outline ++ outlineIn rest

end

mutual

def bindingNames : Declaration → List String
  | .class _ _ _ body => bindingNamesIn body
  | .method _ => []
  | .annotated name _ => [name]
  | .typeAlias name _ => [name]

def bindingNamesIn : List Declaration → List String
  | [] => []
  | declaration :: rest => declaration.bindingNames ++ bindingNamesIn rest

end

end Declaration

/-- The lines of the rows that belong to no docstring. -/
def codeOf (rows : List Row) : List String :=
  (rows.filter Row.isCode).map Row.written

/-- Lines at a level, or further in, that read as the outlines in front of what is not further in. -/
structure ReadsAs (level : Nat) (texts : List String) (outlines : List Outline) : Prop where
  within : ∀ text ∈ texts, 4 * level ≤ blanks text
  first : ∀ text ∈ texts.head?, blanks text = 4 * level
  reads : ∀ rest, (∀ next ∈ rest.head?, blanks next ≤ 4 * level) →
    outlineOf (texts ++ rest) = outlines ++ outlineOf rest

namespace ReadsAs

variable {level : Nat} {texts : List String} {outlines : List Outline}

theorem nil : ReadsAs level [] [] :=
  ⟨by simp, by simp, fun _ _ => rfl⟩

theorem append {others : List String} {more : List Outline} (front : ReadsAs level texts outlines)
    (back : ReadsAs level others more) : ReadsAs level (texts ++ others) (outlines ++ more) where
  within := List.forall_mem_append.mpr ⟨front.within, back.within⟩
  first := by
    rcases texts with _ | ⟨text, rest⟩
    · exact back.first
    · exact front.first
  reads := by
    intro rest outside
    have between : ∀ next ∈ (others ++ rest).head?, blanks next ≤ 4 * level := by
      rcases others with _ | ⟨text, others⟩
      · exact outside
      · exact fun next isFirst => (back.first next isFirst).le
    rw [List.append_assoc, front.reads _ between, back.reads _ outside, List.append_assoc]

theorem node {text : String} (flush : blanks text = 4 * level)
    (inner : ReadsAs (level + 1) texts outlines) :
    ReadsAs level (text :: texts) [.node (unindented text) outlines] where
  within := by
    refine List.forall_mem_cons.mpr ⟨flush.ge, fun other member => ?_⟩
    have deep := inner.within other member
    omega
  first := by simpa using flush
  reads := by
    intro rest outside
    have deeper : ∀ other ∈ texts, decide (blanks text < blanks other) = true := by
      intro other member
      have deep := inner.within other member
      exact decide_eq_true (by omega)
    have taken : rest.takeWhile (fun other => decide (blanks text < blanks other)) = [] ∧
        rest.dropWhile (fun other => decide (blanks text < blanks other)) = rest := by
      rcases rest with _ | ⟨next, rest⟩
      · exact ⟨rfl, rfl⟩
      · have shallow := outside next rfl
        have stops : ¬decide (blanks text < blanks next) = true := by simp; omega
        exact ⟨List.takeWhile_cons_of_neg stops, List.dropWhile_cons_of_neg stops⟩
    have inside := inner.reads [] (by simp)
    rw [List.cons_append, outlineOf, List.takeWhile_append_of_pos deeper,
      List.dropWhile_append_of_pos deeper, taken.1, taken.2, inside]
    simp [outlineOf]

theorem row {kind : RowKind} {text : String} (isCode : kind ≠ .doc) (flush : text.toList.head? ≠ some ' ')
    (present : text ≠ "") (inner : ReadsAs (level + 1) texts outlines) :
    ReadsAs level (codeOf [⟨kind, ⟨level, text⟩⟩] ++ texts) [.node text outlines] := by
  have written : codeOf [⟨kind, ⟨level, text⟩⟩] = [Line.indent level ++ text] := by
    have code : Row.isCode ⟨kind, ⟨level, text⟩⟩ = true := by simpa [Row.isCode] using isCode
    rw [codeOf, List.filter_cons_of_pos code]
    simp [Row.written, Line.written, present]
  have chars : (Line.indent level ++ text).toList = List.replicate (4 * level) ' ' ++ text.toList := by
    rw [String.toList_append, Line.indent, String.toList_ofList]
  have allBlank : ∀ c ∈ List.replicate (4 * level) ' ', (c == ' ') = true := by
    intro c member
    rw [List.eq_of_mem_replicate member]
    rfl
  have stops : text.toList.takeWhile (· == ' ') = [] ∧ text.toList.dropWhile (· == ' ') = text.toList := by
    rcases same : text.toList with _ | ⟨c, rest⟩
    · exact ⟨rfl, rfl⟩
    · have other : ¬(c == ' ') = true := by simpa [same] using flush
      exact ⟨List.takeWhile_cons_of_neg other, List.dropWhile_cons_of_neg other⟩
  have deep : blanks (Line.indent level ++ text) = 4 * level := by
    rw [blanks, chars, List.takeWhile_append_of_pos allBlank, stops.1]
    simp
  have bare : unindented (Line.indent level ++ text) = text := by
    rw [unindented, chars, List.dropWhile_append_of_pos allBlank, stops.2, String.ofList_toList]
  have reading := node deep inner
  rw [bare] at reading
  rw [written]
  exact reading

theorem leaf {kind : RowKind} {text : String} (isCode : kind ≠ .doc)
    (flush : text.toList.head? ≠ some ' ') (present : text ≠ "") :
    ReadsAs level (codeOf [⟨kind, ⟨level, text⟩⟩]) [.node text []] := by
  have empty : ReadsAs (level + 1) [] [] := nil
  have single := row isCode flush present empty
  rw [List.append_nil] at single
  exact single

end ReadsAs

theorem code_of_append (front back : List Row) :
    codeOf (front ++ back) = codeOf front ++ codeOf back := by
  simp [codeOf]

theorem code_of_doc_rows (level : Nat) (doc : List String) : codeOf (docRows level doc) = [] := by
  simp [codeOf, docRows, Row.isCode]

namespace Declaration

theorem reads_method_rows (level : Nat) (signature : Signature) :
    ReadsAs level (codeOf (methodRows level signature)) (methodOutline signature) := by
  have decorated : ∀ decorators : List String,
      ReadsAs level
        (codeOf (decorators.map fun decorator => ⟨.decorator, ⟨level, "@" ++ decorator⟩⟩))
        (decorators.map fun decorator => .node ("@" ++ decorator) []) := by
    intro decorators
    induction decorators with
    | nil => exact .nil
    | cons decorator rest induction =>
        have present : "@" ++ decorator ≠ "" := by
          intro empty
          have chars := congrArg String.toList empty
          simp at chars
        rw [List.map_cons, ← List.singleton_append, code_of_append]
        exact (ReadsAs.leaf (by decide) (by simp) present).append induction
  have opens : ∃ rest, signature.head.toList = 'd' :: rest := by
    simp [Signature.head]
  obtain ⟨rest, chars⟩ := opens
  have flush : ∀ back : String, (signature.head ++ back).toList.head? ≠ some ' ' ∧
      signature.head ++ back ≠ "" := by
    intro back
    rw [Ne, Ne, ← String.toList_eq_nil_iff, String.toList_append, chars]
    simp
  unfold methodRows methodOutline
  rw [code_of_append]
  refine (decorated signature.decorators).append ?_
  split
  · exact .leaf (by decide) (flush _).1 (flush _).2
  · have alone := flush ""
    rw [String.append_empty] at alone
    have split : ⟨.head, ⟨level, signature.head⟩⟩ :: docRows (level + 1) signature.doc =
        [⟨.head, ⟨level, signature.head⟩⟩] ++ docRows (level + 1) signature.doc := rfl
    rw [split, code_of_append, code_of_doc_rows, List.append_nil]
    exact .leaf (by decide) alone.1 alone.2

theorem reads_binding {level : Nat} {name middle type : String}
    (flush : name.toList.head? ≠ some ' ') (opens : middle.toList.head? = some ':') :
    ReadsAs level (codeOf [⟨.binding, ⟨level, name ++ middle ++ type⟩⟩])
      [.node (name ++ middle ++ type) []] := by
  have chars : (name ++ middle ++ type).toList.head? =
      name.toList.head?.or (middle.toList.head?.or type.toList.head?) := by
    simp [List.head?_append]
  rw [opens] at chars
  refine .leaf (by decide) ?_ ?_
  · rw [chars]
    rcases first : name.toList.head? with _ | c
    · simp
    · simpa [first] using flush
  · intro empty
    rw [empty] at chars
    rcases first : name.toList.head? with _ | c
    · simp [first] at chars
    · simp [first] at chars

mutual

theorem reads_rows (level : Nat) : ∀ {declaration : Declaration},
    (∀ name ∈ declaration.bindingNames, name.toList.head? ≠ some ' ') →
      ReadsAs level (codeOf (declaration.rows level)) declaration.outline
  | .class name bases doc body, flush => by
      have opens : ∃ rest, (classHead name bases).toList = 'c' :: rest := by
        simp [classHead]
      obtain ⟨rest, chars⟩ := opens
      have first : ∀ back : String, (classHead name bases ++ back).toList.head? ≠ some ' ' ∧
          classHead name bases ++ back ≠ "" := by
        intro back
        rw [Ne, Ne, ← String.toList_eq_nil_iff, String.toList_append, chars]
        simp
      unfold rows outline
      split
      · exact .leaf (by decide) (first _).1 (first _).2
      · have split : ∀ (row : Row) (back : List Row), row :: (docRows (level + 1) doc ++ back) =
            [row] ++ docRows (level + 1) doc ++ back := fun _ _ => rfl
        rw [split, code_of_append, code_of_append, code_of_doc_rows, List.append_nil]
        exact .row (by decide) (first _).1 (first _).2 (reads_body_rows (level + 1) flush)
  | .method signature, _ => reads_method_rows level signature
  | .annotated name type, flush => reads_binding (flush name List.mem_cons_self) (by decide)
  | .typeAlias name target, flush => reads_binding (flush name List.mem_cons_self) (by decide)

theorem reads_body_rows (level : Nat) : ∀ {body : List Declaration},
    (∀ name ∈ bindingNamesIn body, name.toList.head? ≠ some ' ') →
      ReadsAs level (codeOf (bodyRows level body)) (outlineIn body)
  | [], _ => .nil
  | declaration :: rest, flush => by
      rw [bindingNamesIn, List.forall_mem_append] at flush
      rw [bodyRows, code_of_append]
      exact (reads_rows level flush.1).append (reads_body_rows level flush.2)

end

variable {declaration : Declaration}

/-- On a page of any level a declaration whose strings have no line ends is written as at the
outermost level, with more blanks in front of every line that is not empty, and the level is where it
was. A head that ends in a colon has a deeper line right behind it; and when no name at the start of
a line begins with a blank, the blanks in front of the lines outside docstrings show the nesting. -/
theorem write_nests (page : Page) (oneLine : OneLine declaration.strings) :
    declaration.write page = page.declare declaration ∧
    (declaration.write page).level = page.level ∧
    (declaration.write page).text =
      page.text ++ Text.fronted (Line.indent page.level) (declaration.write {}).text ∧
    (declaration.write page).text =
      page.text ++ Text.joinWith "\n" ((declaration.rows page.level).map Row.written ++ [""]) ∧
    HeadsOpen (declaration.rows page.level) ∧
    ((∀ name ∈ declaration.bindingNames, name.toList.head? ≠ some ' ') →
      outlineOf (codeOf (declaration.rows page.level)) = declaration.outline) := by
  have whole : ∀ line ∈ declaration.lines 0, '\n' ∉ line.text.toList :=
    fun line member => OneLine.lines 0 oneLine _ (List.mem_map_of_mem member)
  have deeper := lines_deeper 0 page.level declaration
  have outermost : (declaration.write {}).text = renderLines (declaration.lines 0) := by
    rw [write_eq]
    rfl
  have written : (declaration.rows page.level).map Row.written =
      (declaration.lines page.level).map Line.written := by
    rw [← map_line_rows, List.map_map]
    rfl
  rw [Nat.zero_add] at deeper
  refine ⟨write_eq page declaration, ?_, ?_, ?_, heads_rows _ _, fun flush => ?_⟩
  · rw [write_eq]
    rfl
  · rw [write_eq, outermost, ← render_lines_deeper page.level whole, ← deeper]
    exact page.text_add _
  · rw [write_eq, written, ← render_lines_eq_join_with]
    exact page.text_add _
  · have reading := (reads_rows page.level flush).reads [] (by simp)
    rw [List.append_nil, outlineOf, List.append_nil] at reading
    exact reading

/-- A class in a class, docstrings with and without an empty line, and a property, behind a line at
the second level. -/
theorem write_nests_property :
    let page : Page := { level := 2, lines := [⟨2, "x: int"⟩] }
    let declaration : Declaration := .class "Outer" [] ["First.", "", "Third."]
      [.class "Inner" ["Protocol"] [] [], .method (.property "name" "str" ["Name."]),
        .typeAlias "Text" "str"]
    (declaration.write page).level = 2 ∧
    (declaration.write page).text =
      page.text ++ Text.fronted "        " (declaration.write {}).text ∧
    outlineOf (codeOf (declaration.rows 2)) =
      [.node "class Outer:" [.node "class Inner(Protocol): ..." [], .node "@property" [],
        .node "def name(self) -> str:" [], .node "Text: TypeAlias = str" []]] := by
  intro page declaration
  have oneLine : OneLine declaration.strings := by unfold OneLine; decide
  have flush : ∀ name ∈ declaration.bindingNames, name.toList.head? ≠ some ' ' := by decide
  obtain ⟨-, back, same, -, -, nested⟩ := write_nests page oneLine
  exact ⟨back, same, (nested flush).trans rfl⟩

/-- A name that begins with blanks reads as a name inside the class before it. -/
theorem nesting_of_blank_name :
    let apart : Declaration := .class "C" [] []
      [.class "D" [] [] [.annotated "x" "int"], .annotated "    b" "int"]
    let together : Declaration := .class "C" [] []
      [.class "D" [] [] [.annotated "x" "int", .annotated "b" "int"]]
    OneLine apart.strings ∧ OneLine together.strings ∧
    (apart.write {}).text = (together.write {}).text ∧
    apart.outline = [.node "class C:"
      [.node "class D:" [.node "x: int" []], .node "    b: int" []]] ∧
    outlineOf (codeOf (apart.rows 0)) = [.node "class C:"
      [.node "class D:" [.node "x: int" [], .node "b: int" []]]] ∧
    outlineOf (codeOf (apart.rows 0)) ≠ apart.outline := by
  intro apart together
  have flush : ∀ name ∈ together.bindingNames, name.toList.head? ≠ some ' ' := by decide
  have sameRows : codeOf (apart.rows 0) = codeOf (together.rows 0) := by decide
  have reading := (reads_rows 0 flush).reads [] (by simp)
  rw [List.append_nil, outlineOf, List.append_nil] at reading
  rw [sameRows, reading]
  refine ⟨by unfold OneLine; decide, by unfold OneLine; decide, by decide, rfl, rfl, ?_⟩
  intro same
  have inner := (Outline.node.inj (List.cons.inj same).1).2
  exact List.cons_ne_nil _ _ (List.cons.inj inner).2.symm

end Declaration

end SchemaStubs.Stub
