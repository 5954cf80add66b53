import SchemaStubs.Stub.Module

/-!
The text of a stub: a header, the imports, the declarations and the public aliases.
-/

namespace SchemaStubs.Stub

/-- Marks a file as generated for those who check or review it. -/
def generatedMark : String :=
  "# Code generated by stubgen. DO NOT EDIT."

def header (file : String) : List Line :=
  docstring 0 ["This is an automatically generated stub for `" ++ file ++ "`."] ++
    [Line.blank, ⟨0, generatedMark⟩, Line.blank]

def fileAliases (registry : Registry) (file : Id) : List Alias :=
  registry.table.filter fun entry => entry.file == file

/-- A part of a stub with a blank line before it, unless it is empty. -/
def afterBlank (lines : List Line) : List Line :=
  if lines.isEmpty then [] else Line.blank :: lines

def bodyLines (declarations : List Declaration) (aliases : List Alias) : List Line :=
  let blocks := Declaration.blocks declarations
  let aliasLines := aliases.flatMap fun entry =>
    (Declaration.typeAlias entry.name entry.target).lines 0
  if blocks.isEmpty then aliasLines else blocks ++ afterBlank aliasLines

def fileLines (options : Options) (file : String) (imports : ImportSection) (body : List Line) :
    List Line :=
  (if options.header then header file else []) ++
    [⟨0, "from __future__ import annotations"⟩] ++ afterBlank imports.lines ++ afterBlank body

/-- Lays out the stub of a draft with the declarations found for it. -/
def layOut (plan : Plan) (declarations : List Declaration) : Step Draft String := do
  let draft ← get
  let aliases := fileAliases draft.registry draft.file.id
  aliases.forM fun entry => Draft.bind entry.name entry.subject.node
  let body := bodyLines declarations aliases
  let reached ← get
  let imports ← Step.ofExcept
    (ImportSection.collect reached.bindings reached.imports (renderLines body))
  let content := renderLines (fileLines plan.options draft.file.name imports body)
  let modules := (reached.imports.map Import.fromModule).eraseDups
  Draft.note (.stubLaidOut draft.file.name modules.length (Text.size content))
  pure content

end SchemaStubs.Stub
