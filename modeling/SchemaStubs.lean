import SchemaStubs.Build
import SchemaStubs.Command.Action
import SchemaStubs.Command.Flag
import SchemaStubs.Command.Footprint
import SchemaStubs.Command.Help
import SchemaStubs.Command.Misuse
import SchemaStubs.Command.Reading
import SchemaStubs.Command.Run
import SchemaStubs.Command.Session
import SchemaStubs.Command.Verb
import SchemaStubs.Decimal.Double
import SchemaStubs.Decimal.Shortest
import SchemaStubs.Delivery.Compare
import SchemaStubs.Delivery.Diff
import SchemaStubs.Delivery.Write
import SchemaStubs.Document.Basic
import SchemaStubs.Document.Dialect
import SchemaStubs.Document.File
import SchemaStubs.Document.Json
import SchemaStubs.Document.Yaml.Basic
import SchemaStubs.Document.Yaml.Cursor
import SchemaStubs.Document.Yaml.Meaning
import SchemaStubs.Document.Yaml.Reader
import SchemaStubs.Document.Yaml.Scalar
import SchemaStubs.Document.Yaml.Token
import SchemaStubs.Document.Yaml.Tokens
import SchemaStubs.Fault
import SchemaStubs.Files.Disk
import SchemaStubs.Files.Path
import SchemaStubs.Files.Refusal
import SchemaStubs.Id
import SchemaStubs.Journal.Console
import SchemaStubs.Journal.Entry
import SchemaStubs.Journal.Event
import SchemaStubs.Journal.Json
import SchemaStubs.Journal.Report
import SchemaStubs.Journal.Style
import SchemaStubs.Main
import SchemaStubs.Naming.Alias
import SchemaStubs.Naming.Registry
import SchemaStubs.Naming.Resolution
import SchemaStubs.Proofs.Alongside
import SchemaStubs.Proofs.Delivery.Exact
import SchemaStubs.Proofs.Delivery.Lines
import SchemaStubs.Proofs.Delivery.Run
import SchemaStubs.Proofs.Delivery.Write
import SchemaStubs.Proofs.Files.Disk
import SchemaStubs.Proofs.Id
import SchemaStubs.Proofs.Lists
import SchemaStubs.Proofs.Lockstep
import SchemaStubs.Proofs.Naming.AliasTable
import SchemaStubs.Proofs.Naming.Assignment
import SchemaStubs.Proofs.Naming.Distinct
import SchemaStubs.Proofs.Naming.History
import SchemaStubs.Proofs.Naming.Identifier
import SchemaStubs.Proofs.Naming.Locality
import SchemaStubs.Proofs.Naming.Precedence
import SchemaStubs.Proofs.Naming.Priority
import SchemaStubs.Proofs.Naming.Registration
import SchemaStubs.Proofs.Naming.Renaming
import SchemaStubs.Proofs.Naming.Segment
import SchemaStubs.Proofs.Schema.Accepted
import SchemaStubs.Proofs.Schema.Enclosure
import SchemaStubs.Proofs.Schema.Forest
import SchemaStubs.Proofs.Schema.Renaming
import SchemaStubs.Proofs.Schema.ScopeChain
import SchemaStubs.Proofs.Schema.WellScoped
import SchemaStubs.Proofs.Step
import SchemaStubs.Proofs.Stub.Abreast
import SchemaStubs.Proofs.Stub.BindsOnce
import SchemaStubs.Proofs.Stub.Bodies
import SchemaStubs.Proofs.Stub.Casts
import SchemaStubs.Proofs.Stub.ClassParts
import SchemaStubs.Proofs.Stub.ClassPlaces
import SchemaStubs.Proofs.Stub.ClassTree
import SchemaStubs.Proofs.Stub.ClassTypes
import SchemaStubs.Proofs.Stub.Contents
import SchemaStubs.Proofs.Stub.Course
import SchemaStubs.Proofs.Stub.Declared
import SchemaStubs.Proofs.Stub.Denotation
import SchemaStubs.Proofs.Stub.Docstrings
import SchemaStubs.Proofs.Stub.Drafts
import SchemaStubs.Proofs.Stub.Failing
import SchemaStubs.Proofs.Stub.Faults
import SchemaStubs.Proofs.Stub.FileRequests
import SchemaStubs.Proofs.Stub.Flattening
import SchemaStubs.Proofs.Stub.Frame
import SchemaStubs.Proofs.Stub.ImportNames
import SchemaStubs.Proofs.Stub.ImportOrder
import SchemaStubs.Proofs.Stub.ImportTargets
import SchemaStubs.Proofs.Stub.Imports
import SchemaStubs.Proofs.Stub.Independence
import SchemaStubs.Proofs.Stub.Inquiry
import SchemaStubs.Proofs.Stub.KnownReferences
import SchemaStubs.Proofs.Stub.Legible
import SchemaStubs.Proofs.Stub.Levels
import SchemaStubs.Proofs.Stub.Lexing
import SchemaStubs.Proofs.Stub.LocalNames
import SchemaStubs.Proofs.Stub.Marks
import SchemaStubs.Proofs.Stub.ModuleNames
import SchemaStubs.Proofs.Stub.ModulePaths
import SchemaStubs.Proofs.Stub.Nesting
import SchemaStubs.Proofs.Stub.OtherNames
import SchemaStubs.Proofs.Stub.OutputPaths
import SchemaStubs.Proofs.Stub.Overloads
import SchemaStubs.Proofs.Stub.PointerClass
import SchemaStubs.Proofs.Stub.PointerMarks
import SchemaStubs.Proofs.Stub.Polling
import SchemaStubs.Proofs.Stub.Preparation
import SchemaStubs.Proofs.Stub.Ready
import SchemaStubs.Proofs.Stub.Rehearsal
import SchemaStubs.Proofs.Stub.RenamedAliases
import SchemaStubs.Proofs.Stub.RenamedDrafts
import SchemaStubs.Proofs.Stub.RunFaults
import SchemaStubs.Proofs.Stub.SameText
import SchemaStubs.Proofs.Stub.Scopes
import SchemaStubs.Proofs.Stub.SeparateCompilation
import SchemaStubs.Proofs.Stub.Settled
import SchemaStubs.Proofs.Stub.Shapes
import SchemaStubs.Proofs.Stub.Strings
import SchemaStubs.Proofs.Stub.Tokens
import SchemaStubs.Proofs.Stub.TypeTexts
import SchemaStubs.Proofs.Stub.Unclashing
import SchemaStubs.Proofs.Stub.Union
import SchemaStubs.Proofs.Stub.Unmarked
import SchemaStubs.Proofs.Stub.UsedNames
import SchemaStubs.Proofs.Stub.Views
import SchemaStubs.Proofs.Text.ByteOrder
import SchemaStubs.Proofs.Text.Joined
import SchemaStubs.Proofs.Walk.Depth
import SchemaStubs.Proofs.Walk.Edges
import SchemaStubs.Proofs.Walk.Failure
import SchemaStubs.Proofs.Walk.Kinds
import SchemaStubs.Proofs.Walk.Mention
import SchemaStubs.Proofs.Walk.Reach
import SchemaStubs.Proofs.Walk.References
import SchemaStubs.Proofs.Walk.Renaming
import SchemaStubs.Proofs.Walk.Stages
import SchemaStubs.Proofs.Walk.Success
import SchemaStubs.Schema.Check
import SchemaStubs.Schema.Defect
import SchemaStubs.Schema.FormatVersion
import SchemaStubs.Schema.Graph
import SchemaStubs.Schema.Kind
import SchemaStubs.Schema.Node
import SchemaStubs.Settings.Basic
import SchemaStubs.Settings.File
import SchemaStubs.Settings.Key
import SchemaStubs.Settings.Load
import SchemaStubs.Settings.Problem
import SchemaStubs.Settings.Toml.Document
import SchemaStubs.Settings.Toml.Grammar
import SchemaStubs.Settings.Toml.Moment
import SchemaStubs.Settings.Toml.Node
import SchemaStubs.Settings.Toml.Outline
import SchemaStubs.Settings.Toml.Reader
import SchemaStubs.Settings.Toml.Scalar
import SchemaStubs.Settings.Unknown
import SchemaStubs.Sorting
import SchemaStubs.Step
import SchemaStubs.Stub.AnyPointer
import SchemaStubs.Stub.Declaration
import SchemaStubs.Stub.Draft
import SchemaStubs.Stub.File
import SchemaStubs.Stub.Foreign
import SchemaStubs.Stub.Generation
import SchemaStubs.Stub.Identifiers
import SchemaStubs.Stub.Import
import SchemaStubs.Stub.Interface
import SchemaStubs.Stub.Layout
import SchemaStubs.Stub.Literal
import SchemaStubs.Stub.Location
import SchemaStubs.Stub.Member
import SchemaStubs.Stub.Module
import SchemaStubs.Stub.Page
import SchemaStubs.Stub.PublicNames
import SchemaStubs.Stub.Struct
import SchemaStubs.Stub.TypeText
import SchemaStubs.Stub.View
import SchemaStubs.Table
import SchemaStubs.Text.Casing
import SchemaStubs.Text.DocComment
import SchemaStubs.Text.Join
import SchemaStubs.Text.Letter
import SchemaStubs.Text.Numeral
import SchemaStubs.Text.Octets
import SchemaStubs.Text.Printable
import SchemaStubs.Text.Quoted
import SchemaStubs.Text.Template
import SchemaStubs.Text.Upper
import SchemaStubs.Walk.Basic
import SchemaStubs.Walk.Dependency
import SchemaStubs.Walk.Visit
import SchemaStubs.Watch
