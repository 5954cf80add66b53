import SchemaStubs.Stub.Layout

/-!
A page of stub source that is written line by line at a level which can be moved.
-/

namespace SchemaStubs.Stub

structure Page where
  level : Nat := 0
  lines : List Line := []
  deriving Repr, Inhabited

namespace Page

def text (page : Page) : String :=
  renderLines page.lines

def add (page : Page) (lines : List Line) : Page :=
  { page with lines := page.lines ++ lines }

def line (page : Page) (text : String) : Page :=
  page.add [⟨page.level, text⟩]

def blank (page : Page) : Page :=
  page.add [Line.blank]

def indent (page : Page) : Page :=
  { page with level := page.level + 1 }

/-- The outermost level stays. -/
def dedent (page : Page) : Page :=
  { page with level := page.level - 1 }

def docstring (page : Page) (doc : List String) : Page :=
  page.add (Stub.docstring page.level doc)

def declare (page : Page) (declaration : Declaration) : Page :=
  page.add (declaration.lines page.level)

end Page

end SchemaStubs.Stub
