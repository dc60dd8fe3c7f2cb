import StyleDoc.Anchor
import StyleDoc.Block
import StyleDoc.Comment
import StyleDoc.Declaration
import StyleDoc.Files.Disk
import StyleDoc.Files.Path
import StyleDoc.Format
import StyleDoc.Glob.Pattern
import StyleDoc.Glob.Search
import StyleDoc.Html.Page
import StyleDoc.Html.Piece
import StyleDoc.Inputs
import StyleDoc.Item
import StyleDoc.Json.Record
import StyleDoc.Json.Value
import StyleDoc.Log.Event
import StyleDoc.Log.Filter
import StyleDoc.Main
import StyleDoc.Markdown
import StyleDoc.Options
import StyleDoc.Program
import StyleDoc.Proofs.BlockFields
import StyleDoc.Proofs.Json.Grammar
import StyleDoc.Proofs.Json.Layout
import StyleDoc.Proofs.Json.Lossless
import StyleDoc.Proofs.Json.Tokens
import StyleDoc.Proofs.PlainText
import StyleDoc.Proofs.RoundTrip
import StyleDoc.Proofs.Sections
import StyleDoc.Proofs.Spelling
import StyleDoc.Proofs.Text.Lines
import StyleDoc.Proofs.Text.Scan
import StyleDoc.Proofs.Writing
import StyleDoc.Publication
import StyleDoc.Stylesheet
import StyleDoc.Tag
import StyleDoc.Tag.Grammar
import StyleDoc.Text.Blank
import StyleDoc.Text.Lines
import StyleDoc.Text.Scan
import StyleDoc.Unicode.Alphabetic
import StyleDoc.Unicode.Alphanumeric
import StyleDoc.Unicode.Cased
import StyleDoc.Unicode.Lowercase
import StyleDoc.Unicode.Ranges
import StyleDoc.Unicode.Word
import StyleDoc.Proofs.CommentMarks
import StyleDoc.Proofs.OuterBlanks
import StyleDoc.Proofs.Html.Cut
import StyleDoc.Proofs.Html.Layout
import StyleDoc.Proofs.Html.Filling
import StyleDoc.Proofs.Html.Structure
import StyleDoc.Proofs.OnePass
import StyleDoc.Proofs.CommentStyles
import StyleDoc.Proofs.Text.Steps
import StyleDoc.Proofs.Files.Directories
import StyleDoc.Proofs.WellFormed
import StyleDoc.Proofs.Files.Expansion
import StyleDoc.Proofs.Files.Names
import StyleDoc.Proofs.Publishing
import StyleDoc.Proofs.Files.Components
import StyleDoc.Proofs.Documents
import StyleDoc.Proofs.Progress
import StyleDoc.Proofs.Clashes
import StyleDoc.Proofs.Overwriting
import StyleDoc.Proofs.InputOrder
import StyleDoc.Proofs.Repetition
import StyleDoc.Proofs.Files.Making
import StyleDoc.Proofs.Files.Shape
import StyleDoc.Proofs.EarlyFailure
import StyleDoc.Proofs.Regeneration
import StyleDoc.Proofs.Files.Difference
import StyleDoc.Proofs.Privacy
import StyleDoc.Proofs.Modes
import StyleDoc.Proofs.Tag.Parts
import StyleDoc.Proofs.Tag.Exclusion
import StyleDoc.Proofs.Tag.Forms
import StyleDoc.Proofs.Html.Names
import StyleDoc.Proofs.Html.References
import StyleDoc.Proofs.Slugs
import StyleDoc.Proofs.Anchors
import StyleDoc.Proofs.PartTitles
import StyleDoc.Proofs.Decoration
import StyleDoc.Proofs.Tag.Descriptions
import StyleDoc.Proofs.Tag.Dropping
import StyleDoc.Proofs.Unicode.Lowered
import StyleDoc.Proofs.SlugForm
import StyleDoc.Proofs.ParameterTables
import StyleDoc.Proofs.ExpandedInputs
import StyleDoc.Proofs.Text.Replacement
import StyleDoc.Proofs.Html.Entities
