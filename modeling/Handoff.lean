import Handoff.Main
import Handoff.Proofs.Binary64.Digits
import Handoff.Proofs.Binary64.Equality
import Handoff.Proofs.Component.Outline
import Handoff.Proofs.Distinct
import Handoff.Proofs.Import.Roots
import Handoff.Proofs.Import.Run
import Handoff.Proofs.Import.Selection
import Handoff.Proofs.Json.Induction
import Handoff.Proofs.Json.Numeral
import Handoff.Proofs.Json.Quoted
import Handoff.Proofs.Lineage
import Handoff.Proofs.Markup.Component
import Handoff.Proofs.Markup.ReadBack
import Handoff.Proofs.Markup.Reader
import Handoff.Proofs.Parser
import Handoff.Proofs.Results
import Handoff.Proofs.Script.Literal
import Handoff.Proofs.Script.Reader
import Handoff.Proofs.Style.Agreement
import Handoff.Proofs.Style.Pieces
import Handoff.Proofs.Style.Slot
import Handoff.Proofs.Text.Blank
import Handoff.Proofs.Text.Search
import Handoff.Proofs.Text.Utf8
import Handoff.Proofs.Theme.Colors
import Handoff.Proofs.Theme.Groups
import Handoff.Proofs.Theme.Reader
import Handoff.Proofs.Token.Name
import Handoff.Proofs.Token.Occurrences
import Handoff.Proofs.Token.Usage
import Handoff.Proofs.Tree
import Handoff.Proofs.Link.Grammar
import Handoff.Proofs.Link.RoundTrip
import Handoff.Proofs.Theme.Sections
import Handoff.Proofs.Theme.Names
import Handoff.Proofs.Component.Hidden
import Handoff.Proofs.Component.Texts
import Handoff.Proofs.Json.Pretty
import Handoff.Proofs.Project.Files
import Handoff.Proofs.Project.Imports
import Handoff.Proofs.Project.Name
import Handoff.Proofs.Project.Pictures
import Handoff.Proofs.Project.Source
import Handoff.Proofs.Text.Ascii
import Handoff.Proofs.Binary64.Rounding
import Handoff.Proofs.Numbers
import Handoff.Proofs.Json.Record
import Handoff.Proofs.Json.Nested
import Handoff.Proofs.Scene.Json
import Handoff.Proofs.Scene.Kinds
import Handoff.Proofs.Component.Json
import Handoff.Proofs.Component.Invisible
import Handoff.Proofs.Token.Json
import Handoff.Proofs.Theme.Lines
import Handoff.Proofs.Import.Finite
import Handoff.Proofs.Link.Pasted
import Handoff.Proofs.Component.AutomaticName
import Handoff.Proofs.Binary64.Order
import Handoff.Proofs.Token.Spacing
import Handoff.Proofs.Binary64.Printing
import Handoff.Proofs.Binary64.Quantity
import Handoff.Proofs.Theme.Spacing
import Handoff.Proofs.Link.ForeignHost
import Handoff.Proofs.Link.Percent
import Handoff.Proofs.Link.Spelling
import Handoff.Proofs.Visits
import Handoff.Proofs.Import.Fetch
import Handoff.Proofs.Script.Lines
import Handoff.Proofs.Markup.Lines
import Handoff.Proofs.Component.Lines
import Handoff.Proofs.Component.Primitives
import Handoff.Proofs.Script.Enclosed
import Handoff.Proofs.Theme.FirstWins
import Handoff.Proofs.Component.Parents
import Handoff.Proofs.Project.Growth
import Handoff.Proofs.Theme.Shadows
import Handoff.Proofs.Binary64.Overflow
import Handoff.Proofs.Binary64.Reading
import Handoff.Proofs.Json.Number
import Handoff.Proofs.Token.Text
import Handoff.Proofs.Token.Numbers
import Handoff.Proofs.Project.Identifier
import Handoff.Proofs.Project.Renaming
import Handoff.Proofs.Text.Lowercase
import Handoff.Proofs.Token.Slug
import Handoff.Proofs.Addresses
