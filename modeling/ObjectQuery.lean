import ObjectQuery.Calendar.DateTime
import ObjectQuery.Calendar.Printing
import ObjectQuery.Calendar.Reading
import ObjectQuery.Catalog.Descriptor
import ObjectQuery.Catalog.Document
import ObjectQuery.Catalog.Registry
import ObjectQuery.CommandLine.Options
import ObjectQuery.CommandLine.Run
import ObjectQuery.CommandLine.VariableFile
import ObjectQuery.Config.Basic
import ObjectQuery.Config.Document
import ObjectQuery.Definition.Build
import ObjectQuery.Definition.Model
import ObjectQuery.Definition.Names
import ObjectQuery.Definition.Reading
import ObjectQuery.Definition.Writing
import ObjectQuery.Document.Json
import ObjectQuery.Document.JsonReading
import ObjectQuery.Document.Plain
import ObjectQuery.Document.Reading
import ObjectQuery.Document.Shape
import ObjectQuery.Document.Tree
import ObjectQuery.Main
import ObjectQuery.Number.Decimal
import ObjectQuery.Number.Digits
import ObjectQuery.Proofs.BindOrder
import ObjectQuery.Proofs.Clean
import ObjectQuery.Proofs.Compilable
import ObjectQuery.Proofs.Filling
import ObjectQuery.Proofs.FragmentAlgebra
import ObjectQuery.Proofs.InPlace
import ObjectQuery.Proofs.Isolation
import ObjectQuery.Proofs.Modes
import ObjectQuery.Proofs.Outcome
import ObjectQuery.Proofs.Placeholders
import ObjectQuery.Proofs.RenderedValues
import ObjectQuery.Proofs.Visit
import ObjectQuery.Proofs.Walk
import ObjectQuery.Query.Compile
import ObjectQuery.Query.Environment
import ObjectQuery.Query.Equality
import ObjectQuery.Query.Error
import ObjectQuery.Query.Graph
import ObjectQuery.Query.Link
import ObjectQuery.Query.Node
import ObjectQuery.Query.Resolution
import ObjectQuery.Query.Scope
import ObjectQuery.Sql.Fragment
import ObjectQuery.Sql.Geometry
import ObjectQuery.Sql.Literal
import ObjectQuery.Sql.Rendering
import ObjectQuery.Sql.Statement
import ObjectQuery.Sql.Value
import ObjectQuery.Sql.Vocabulary
import ObjectQuery.Text.Alphanumeric
import ObjectQuery.Text.Blank
import ObjectQuery.Yaml.Glyph
import ObjectQuery.Yaml.Layout
import ObjectQuery.Yaml.Node
import ObjectQuery.Yaml.Reading
import ObjectQuery.Yaml.Scalar
import ObjectQuery.Yaml.Token
import ObjectQuery.Proofs.Paths
import ObjectQuery.Proofs.Meaning
import ObjectQuery.Proofs.Names
import ObjectQuery.Proofs.Qualifiers
import ObjectQuery.Proofs.QualifiedParts
import ObjectQuery.Proofs.Scoping
import ObjectQuery.Proofs.Effective
import ObjectQuery.Proofs.Lexemes
import ObjectQuery.Proofs.Guard
import ObjectQuery.Proofs.OuterFilter
import ObjectQuery.Proofs.Faults
import ObjectQuery.Proofs.Preorder
import ObjectQuery.Proofs.Growth
import ObjectQuery.Proofs.Building
import ObjectQuery.Proofs.Configurations
import ObjectQuery.Proofs.Buildable
import ObjectQuery.Proofs.Registration
import ObjectQuery.Proofs.HiddenLinks
import ObjectQuery.Proofs.DeclaredNames
import ObjectQuery.Proofs.DateTexts
import ObjectQuery.Proofs.WrittenParts
import ObjectQuery.Proofs.WrittenDefinitions
import ObjectQuery.Proofs.SelectList
import ObjectQuery.Proofs.DerivedColumns
import ObjectQuery.Proofs.JoinConditions
import ObjectQuery.Proofs.MirroredNodes
import ObjectQuery.Proofs.MirroredGraphs
import ObjectQuery.Proofs.SelectedColumns
import ObjectQuery.Proofs.ResultLabels
import ObjectQuery.Proofs.NodesAlone
import ObjectQuery.Proofs.UnreadSettings
import ObjectQuery.Proofs.Quotations
import ObjectQuery.Proofs.StatusLiterals
import ObjectQuery.Proofs.Identifiers
import ObjectQuery.Proofs.GeometryColumns
import ObjectQuery.Proofs.NestedSelects
import ObjectQuery.Proofs.DroppedChildren
import ObjectQuery.Proofs.OverriddenSettings
import ObjectQuery.Proofs.DualLinks
import ObjectQuery.Proofs.ListItems
import ObjectQuery.Proofs.FragmentRuns
import ObjectQuery.Proofs.CommaLists
