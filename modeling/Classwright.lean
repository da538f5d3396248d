import Classwright.Build
import Classwright.Cli.Arguments
import Classwright.Cli.Run
import Classwright.Cli.Screen
import Classwright.Config
import Classwright.Config.Sample
import Classwright.Config.Settings
import Classwright.Decimal.Assembled
import Classwright.Decimal.Shortest
import Classwright.Failure
import Classwright.FileTree
import Classwright.FileTree.Action
import Classwright.Json.Cursor
import Classwright.Json.Fault
import Classwright.Json.Reader
import Classwright.Json.Value
import Classwright.Main
import Classwright.Model.Entity
import Classwright.Model.Index
import Classwright.Model.Shape
import Classwright.OrderedMap
import Classwright.Path
import Classwright.Proofs.Acceptance
import Classwright.Proofs.Appearance
import Classwright.Proofs.Assignment
import Classwright.Proofs.Availability
import Classwright.Proofs.ClassNames
import Classwright.Proofs.Closure
import Classwright.Proofs.CodeNames
import Classwright.Proofs.Collection
import Classwright.Proofs.Comments
import Classwright.Proofs.Consumption
import Classwright.Proofs.Containment
import Classwright.Proofs.Damage
import Classwright.Proofs.Decisions
import Classwright.Proofs.Declarations
import Classwright.Proofs.Decoding
import Classwright.Proofs.Derivation
import Classwright.Proofs.Descriptions
import Classwright.Proofs.Destinations
import Classwright.Proofs.Dispatch
import Classwright.Proofs.DocBlocks
import Classwright.Proofs.Edits
import Classwright.Proofs.EmptyMaps
import Classwright.Proofs.FileLines
import Classwright.Proofs.Flow
import Classwright.Proofs.Forms
import Classwright.Proofs.Freshness
import Classwright.Proofs.Fragments
import Classwright.Proofs.Generation
import Classwright.Proofs.Grammar
import Classwright.Proofs.Imports
import Classwright.Proofs.Insertions
import Classwright.Proofs.Interruption
import Classwright.Proofs.Keys
import Classwright.Proofs.Layouts
import Classwright.Proofs.Levels
import Classwright.Proofs.Lexemes
import Classwright.Proofs.Links
import Classwright.Proofs.Listing
import Classwright.Proofs.LiteralLists
import Classwright.Proofs.Literals
import Classwright.Proofs.Loading
import Classwright.Proofs.Lookups
import Classwright.Proofs.Members
import Classwright.Proofs.Mention
import Classwright.Proofs.Outcome
import Classwright.Proofs.Placement
import Classwright.Proofs.Places
import Classwright.Proofs.Prefixes
import Classwright.Proofs.Reach
import Classwright.Proofs.Readings
import Classwright.Proofs.Recognition
import Classwright.Proofs.References
import Classwright.Proofs.Registry
import Classwright.Proofs.Repetition
import Classwright.Proofs.Replacement
import Classwright.Proofs.Reports
import Classwright.Proofs.Respelling
import Classwright.Proofs.Retention
import Classwright.Proofs.Safekeeping
import Classwright.Proofs.Selection
import Classwright.Proofs.Setters
import Classwright.Proofs.Specifiers
import Classwright.Proofs.Steps
import Classwright.Proofs.Store
import Classwright.Proofs.Storing
import Classwright.Proofs.Strangers
import Classwright.Proofs.Walks
import Classwright.Render.ActionScript
import Classwright.Render.CSharp
import Classwright.Render.Cast
import Classwright.Render.Comment
import Classwright.Render.Conversion
import Classwright.Render.Fragment
import Classwright.Render.FragmentFiles
import Classwright.Render.Generate
import Classwright.Render.JavaScript
import Classwright.Render.Member
import Classwright.Render.Skeleton
import Classwright.Render.Statement
import Classwright.Schema.Cache
import Classwright.Schema.Decode
import Classwright.Schema.Document
import Classwright.Schema.Loader
import Classwright.Schema.Reader
import Classwright.Schema.Source
import Classwright.SortedMap
import Classwright.Target.Layout
import Classwright.Text.Blank
import Classwright.Text.CaseTable
import Classwright.Text.Described
import Classwright.Text.Identifier
import Classwright.Text.Lowercase
import Classwright.Text.Quoted
import Classwright.Text.Shown
import Classwright.Text.VisibleTable
import Classwright.Toml.Decode
import Classwright.Toml.Reader
import Classwright.Toml.Value
import Classwright.Proofs.Routes
import Classwright.Proofs.Braces
import Classwright.Proofs.Expansion
import Classwright.Proofs.Nesting
