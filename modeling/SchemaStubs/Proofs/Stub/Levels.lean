import SchemaStubs.Proofs.Stub.Lexing
import SchemaStubs.Proofs.Text.Joined
import SchemaStubs.Stub.Layout

/-!
Declarations at a level. At a deeper level every line of a declaration that is not empty has more
blanks in front and nothing else changes; and a declaration of strings without line ends is written
on the lines it is laid out on.
-/

namespace SchemaStubs.Text

/-- The text with something in front of each of its lines, save the empty ones. -/
def fronted (front text : String) : String :=
  joinWith "\n" ((splitAt '\n' text).map fun line => if line = "" then "" else front ++ line)

end SchemaStubs.Text

namespace SchemaStubs.Stub

/-! ### Lines -/

namespace Line

def written (line : Line) : String :=
  if line.text == "" then "" else indent line.level ++ line.text

def deeper (levels : Nat) (line : Line) : Line :=
  { line with level := line.level + levels }

theorem render_eq_written (line : Line) : line.render = line.written ++ "\n" := by
  unfold render written
  split
  · rfl
  · rfl

theorem indent_add (level levels : Nat) :
    indent (level + levels) = indent levels ++ indent level := by
  unfold indent
  rw [← String.ofList_append, List.replicate_append_replicate, Nat.mul_add, Nat.add_comm]

theorem indent_ne_empty {level : Nat} {text : String} (present : text ≠ "") :
    indent level ++ text ≠ "" := by
  intro empty
  have chars := congrArg String.toList empty
  rw [String.toList_append, String.toList_empty, List.append_eq_nil_iff,
    String.toList_eq_nil_iff, String.toList_eq_nil_iff] at chars
  exact present chars.2

theorem written_deeper (levels : Nat) (line : Line) :
    (line.deeper levels).written =
      if line.written = "" then "" else indent levels ++ line.written := by
  obtain ⟨level, text⟩ := line
  by_cases empty : text = ""
  · simp [written, deeper, empty]
  · have filled : indent level ++ text ≠ "" := indent_ne_empty empty
    simp only [written, deeper, beq_iff_eq, empty, if_false, filled]
    rw [indent_add, String.append_assoc]

theorem one_line_written {line : Line} (oneLine : '\n' ∉ line.text.toList) :
    '\n' ∉ line.written.toList := by
  unfold written
  split
  · simp
  · rw [String.toList_append, List.mem_append, not_or]
    refine ⟨?_, oneLine⟩
    simp [indent]

end Line

theorem render_lines_eq_join_with (lines : List Line) :
    renderLines lines = Text.joinWith "\n" (lines.map Line.written ++ [""]) := by
  apply String.toList_injective
  rw [renderLines, toList_concat]
  induction lines with
  | nil => rfl
  | cons line rest induction =>
      have some : rest.map Line.written ++ [""] ≠ [] := List.append_ne_nil_of_right_ne_nil _ (by simp)
      obtain ⟨next, others, same⟩ := List.exists_cons_of_ne_nil some
      rw [List.map_cons, List.flatMap_cons, induction, Line.render_eq_written, List.map_cons,
        List.cons_append, same, Text.joinWith, String.toList_append, String.toList_append,
        String.toList_append]

/-- The lines of the text are the lines that were laid out, and an empty one after the last end. -/
theorem split_at_render_lines {lines : List Line}
    (oneLine : ∀ line ∈ lines, '\n' ∉ line.text.toList) :
    Text.splitAt '\n' (renderLines lines) = lines.map Line.written ++ [""] := by
  rw [render_lines_eq_join_with]
  refine Text.split_at_join_with (List.append_ne_nil_of_right_ne_nil _ (by simp)) ?_
  intro text member
  rcases List.mem_append.mp member with inside | last
  · obtain ⟨line, listed, rfl⟩ := List.mem_map.mp inside
    exact Line.one_line_written (oneLine line listed)
  · rw [List.mem_singleton.mp last]
    simp

theorem render_lines_deeper (levels : Nat) {lines : List Line}
    (oneLine : ∀ line ∈ lines, '\n' ∉ line.text.toList) :
    renderLines (lines.map (Line.deeper levels)) =
      Text.fronted (Line.indent levels) (renderLines lines) := by
  rw [Text.fronted, split_at_render_lines oneLine, render_lines_eq_join_with, List.map_append,
    List.map_map, List.map_map]
  simp [Function.comp_def, Line.written_deeper]

theorem render_lines_append (front back : List Line) :
    renderLines (front ++ back) = renderLines front ++ renderLines back := by
  apply String.toList_injective
  simp only [renderLines, String.toList_append, toList_concat, List.map_append, List.flatMap_append]

/-! ### Deeper levels -/

theorem docstring_deeper (level levels : Nat) (doc : List String) :
    docstring (level + levels) doc = (docstring level doc).map (Line.deeper levels) := by
  rcases doc with _ | ⟨first, _ | ⟨second, rest⟩⟩
  · rfl
  · rfl
  · simp [docstring, Line.deeper, Function.comp_def]

theorem Signature.lines_deeper (level levels : Nat) (signature : Signature) :
    signature.lines (level + levels) = (signature.lines level).map (Line.deeper levels) := by
  have inside : level + levels + 1 = level + 1 + levels := Nat.add_right_comm _ _ _
  unfold Signature.lines
  split
  · simp [Line.deeper, Function.comp_def]
  · rw [inside, docstring_deeper]
    simp [Line.deeper, Function.comp_def]

namespace Declaration

mutual

theorem lines_deeper (level levels : Nat) : ∀ declaration : Declaration,
    declaration.lines (level + levels) = (declaration.lines level).map (Line.deeper levels)
  | .class name bases doc body => by
      have inside : level + levels + 1 = level + 1 + levels := Nat.add_right_comm _ _ _
      unfold lines
      split
      · rfl
      · rw [inside, docstring_deeper, body_lines_deeper (level + 1) levels body, List.map_cons,
          List.map_append]
        rfl
  | .method signature => signature.lines_deeper level levels
  | .annotated _ _ => rfl
  | .typeAlias _ _ => rfl

theorem body_lines_deeper (level levels : Nat) : ∀ body : List Declaration,
    bodyLines (level + levels) body = (bodyLines level body).map (Line.deeper levels)
  | [] => rfl
  | declaration :: rest => by
      rw [bodyLines, bodyLines, List.map_append, lines_deeper level levels declaration,
        body_lines_deeper level levels rest]

end

end Declaration

/-! ### Declarations on lines of their own -/

def Param.strings (param : Param) : List String :=
  [param.name, param.type, param.default]

def Signature.strings (signature : Signature) : List String :=
  signature.name :: signature.returns ::
    (signature.params.flatMap Param.strings ++ signature.decorators ++ signature.doc)

namespace Declaration

mutual

def strings : Declaration → List String
  | .class name bases doc body => name :: (bases ++ doc ++ stringsIn body)
  | .method signature => signature.strings
  | .annotated name type => [name, type]
  | .typeAlias name target => [name, target]

def stringsIn : List Declaration → List String
  | [] => []
  | declaration :: rest => declaration.strings ++ stringsIn rest

end

end Declaration

def OneLine (texts : List String) : Prop :=
  ∀ text ∈ texts, '\n' ∉ text.toList

namespace OneLine

theorem append {front back : List String} :
    OneLine (front ++ back) ↔ OneLine front ∧ OneLine back :=
  List.forall_mem_append

theorem cons {text : String} {rest : List String} :
    OneLine (text :: rest) ↔ '\n' ∉ text.toList ∧ OneLine rest :=
  List.forall_mem_cons

theorem joinWith {separator : String} {texts : List String} (between : '\n' ∉ separator.toList)
    (oneLine : OneLine texts) : '\n' ∉ (Text.joinWith separator texts).toList := by
  rw [Text.mem_join_with between]
  rintro ⟨text, member, inside⟩
  exact oneLine text member inside

theorem escapeDocChars {line : List Char} (oneLine : '\n' ∉ line) :
    '\n' ∉ Stub.escapeDocChars line := by
  fun_induction Stub.escapeDocChars line with
  | case1 rest induction => simpa using induction (by simpa using oneLine)
  | case2 rest induction => simpa using induction (by simpa using oneLine)
  | case3 c rest _ _ induction =>
      rw [List.mem_cons, not_or] at oneLine ⊢
      exact ⟨oneLine.1, induction oneLine.2⟩
  | case4 => exact List.not_mem_nil

theorem escapeDoc {line : String} (oneLine : '\n' ∉ line.toList) :
    '\n' ∉ (Stub.escapeDoc line).toList := by
  have escaped := escapeDocChars oneLine
  unfold Stub.escapeDoc
  dsimp only
  rw [String.toList_ofList]
  split
  · simpa using escaped
  · exact escaped

theorem docstring (level : Nat) {doc : List String} (oneLine : OneLine doc) :
    OneLine ((Stub.docstring level doc).map Line.text) := by
  have quotes : '\n' ∉ docQuotes.toList := by decide
  have escaped : ∀ line ∈ doc, '\n' ∉ (Stub.escapeDoc line).toList :=
    fun line member => escapeDoc (oneLine line member)
  rcases doc with _ | ⟨first, _ | ⟨second, rest⟩⟩
  · simp [OneLine, Stub.docstring]
  · simp [OneLine, Stub.docstring, quotes, escaped first List.mem_cons_self]
  · rw [List.forall_mem_cons] at escaped
    have later : OneLine ((second :: rest).map Stub.escapeDoc) := List.forall_mem_map.mpr escaped.2
    have laidOut : (Stub.docstring level (first :: second :: rest)).map Line.text =
        (docQuotes ++ Stub.escapeDoc first) :: ((second :: rest).map Stub.escapeDoc ++ [docQuotes]) := by
      simp [Stub.docstring, Function.comp_def]
    rw [laidOut, cons, append, cons]
    exact ⟨by simp [quotes, escaped.1], later, quotes, List.forall_mem_nil _⟩

theorem param {param : Param} (oneLine : OneLine param.strings) : '\n' ∉ param.text.toList := by
  simp only [Param.strings, cons] at oneLine
  obtain ⟨name, type, default, -⟩ := oneLine
  unfold Param.text
  split
  · exact name
  · split <;> simp [name, type, default]

theorem signature (level : Nat) {signature : Signature} (oneLine : OneLine signature.strings) :
    OneLine ((signature.lines level).map Line.text) := by
  simp only [Signature.strings, cons, append] at oneLine
  obtain ⟨name, returns, ⟨params, decorators⟩, doc⟩ := oneLine
  have listed : OneLine ("self" :: signature.params.map Param.text) := by
    rw [cons]
    refine ⟨by decide, fun text member => ?_⟩
    obtain ⟨param, inside, rfl⟩ := List.mem_map.mp member
    exact OneLine.param fun part isPart => params part (List.mem_flatMap.mpr ⟨param, inside, isPart⟩)
  have joined := @joinWith ", " _ (by decide) listed
  have head : '\n' ∉ signature.head.toList := by
    simp [Signature.head, name, returns, joined]
  have decorated : OneLine (signature.decorators.map fun decorator => "@" ++ decorator) := by
    intro text member
    obtain ⟨decorator, inside, rfl⟩ := List.mem_map.mp member
    simpa using decorators decorator inside
  unfold Signature.lines
  rw [List.map_append, append]
  refine ⟨by simpa [Function.comp_def] using decorated, ?_⟩
  split
  · simp [OneLine, head]
  · rw [List.map_cons, cons]
    exact ⟨head, docstring _ doc⟩

mutual

theorem lines (level : Nat) : ∀ {declaration : Declaration}, OneLine declaration.strings →
    OneLine ((declaration.lines level).map Line.text)
  | .class name bases doc body, oneLine => by
      simp only [Declaration.strings, cons, append] at oneLine
      obtain ⟨named, ⟨based, documented⟩, inner⟩ := oneLine
      have joined := @joinWith ", " _ (by decide) based
      have head : '\n' ∉ (Declaration.classHead name bases).toList := by
        unfold Declaration.classHead
        split <;> simp [named, joined]
      unfold Declaration.lines
      split
      · simp [OneLine, head]
      · rw [List.map_cons, cons, List.map_append, append]
        exact ⟨by simp [head], docstring _ documented, bodyLines _ inner⟩
  | .method sig, oneLine => signature level oneLine
  | .annotated name type, oneLine => by
      simp only [Declaration.strings, cons] at oneLine
      simp [OneLine, Declaration.lines, oneLine.1, oneLine.2.1]
  | .typeAlias name target, oneLine => by
      simp only [Declaration.strings, cons] at oneLine
      simp [OneLine, Declaration.lines, oneLine.1, oneLine.2.1]

theorem bodyLines (level : Nat) : ∀ {body : List Declaration}, OneLine (Declaration.stringsIn body) →
    OneLine ((Declaration.bodyLines level body).map Line.text)
  | [], _ => by simp [OneLine, Declaration.bodyLines]
  | declaration :: rest, oneLine => by
      rw [Declaration.stringsIn, append] at oneLine
      rw [Declaration.bodyLines, List.map_append, append]
      exact ⟨lines level oneLine.1, bodyLines level oneLine.2⟩

end

end OneLine

end SchemaStubs.Stub
