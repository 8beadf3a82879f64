import TableLineage.Command.Arguments
import TableLineage.Command.Options
import TableLineage.Command.Run
import TableLineage.Command.Session
import TableLineage.Command.Workspace
import TableLineage.Config.Basic
import TableLineage.Config.Fault
import TableLineage.Config.Load
import TableLineage.Config.Read
import TableLineage.Decimal.Shortest
import TableLineage.Diagram.Dot
import TableLineage.Diagram.Flowchart
import TableLineage.Diagram.Markdown
import TableLineage.Diagram.Mermaid
import TableLineage.Diagram.Payload
import TableLineage.File.Access
import TableLineage.File.Discovery
import TableLineage.File.Path
import TableLineage.File.Tree
import TableLineage.Graph.Basic
import TableLineage.Graph.Reach
import TableLineage.Lineage.Build
import TableLineage.Lineage.Summary
import TableLineage.Main
import TableLineage.Order.Ascending
import TableLineage.Proofs.Command.PrintedIds
import TableLineage.Proofs.Diagram.DotDrawings
import TableLineage.Proofs.Diagram.DrawnLines
import TableLineage.Proofs.Diagram.ReadBack
import TableLineage.Proofs.Diagram.ReorderedLines
import TableLineage.Proofs.Diagram.Rereading
import TableLineage.Proofs.Diagram.WrittenLines
import TableLineage.Proofs.Diagram.WrittenText
import TableLineage.Proofs.File.FoundFiles
import TableLineage.Proofs.File.ListedFolders
import TableLineage.Proofs.File.PathOrder
import TableLineage.Proofs.File.RelativePaths
import TableLineage.Proofs.Graph.Cycles
import TableLineage.Proofs.Graph.History
import TableLineage.Proofs.Graph.Listings
import TableLineage.Proofs.Graph.Neighbourhood
import TableLineage.Proofs.Graph.NodeMap
import TableLineage.Proofs.Graph.Paths
import TableLineage.Proofs.Graph.Reachability
import TableLineage.Proofs.Graph.Rebuilding
import TableLineage.Proofs.Graph.Specification
import TableLineage.Proofs.Lineage.Accounting
import TableLineage.Proofs.Lineage.FileNames
import TableLineage.Proofs.Lineage.OrderIndependence
import TableLineage.Proofs.Lineage.ReferenceSites
import TableLineage.Proofs.Lineage.ReplacedTexts
import TableLineage.Proofs.Lineage.SetLevel
import TableLineage.Proofs.Order.StrictLists
import TableLineage.Proofs.Sql.Blanking
import TableLineage.Proofs.Sql.BracketedNames
import TableLineage.Proofs.Sql.ByteSegments
import TableLineage.Proofs.Sql.ClosedForms
import TableLineage.Proofs.Sql.Closing
import TableLineage.Proofs.Sql.CommentTrees
import TableLineage.Proofs.Sql.Cover
import TableLineage.Proofs.Sql.CteExclusion
import TableLineage.Proofs.Sql.CteGrammar
import TableLineage.Proofs.Sql.CursorMoves
import TableLineage.Proofs.Sql.CursorReaders
import TableLineage.Proofs.Sql.Divergence
import TableLineage.Proofs.Sql.DottedKeywords
import TableLineage.Proofs.Sql.EnclosingGroup
import TableLineage.Proofs.Sql.Fading
import TableLineage.Proofs.Sql.GrammarReferences
import TableLineage.Proofs.Sql.InStep
import TableLineage.Proofs.Sql.JoinTrees
import TableLineage.Proofs.Sql.LeadingKeywords
import TableLineage.Proofs.Sql.LetterCase
import TableLineage.Proofs.Sql.LetteredStrings
import TableLineage.Proofs.Sql.LexemeCases
import TableLineage.Proofs.Sql.Masked
import TableLineage.Proofs.Sql.MaskedLexeme
import TableLineage.Proofs.Sql.NameTokens
import TableLineage.Proofs.Sql.OpenGroups
import TableLineage.Proofs.Sql.ParenGroups
import TableLineage.Proofs.Sql.Pieces
import TableLineage.Proofs.Sql.PlainLexemes
import TableLineage.Proofs.Sql.Positions
import TableLineage.Proofs.Sql.QuoteRuns
import TableLineage.Proofs.Sql.QuotedLexemes
import TableLineage.Proofs.Sql.Reading
import TableLineage.Proofs.Sql.Recovery
import TableLineage.Proofs.Sql.Registrations
import TableLineage.Proofs.Sql.Resolution
import TableLineage.Proofs.Sql.Restripping
import TableLineage.Proofs.Sql.SegmentCases
import TableLineage.Proofs.Sql.SelectGrammar
import TableLineage.Proofs.Sql.Statements
import TableLineage.Proofs.Sql.Stretch
import TableLineage.Proofs.Sql.StrippedTokens
import TableLineage.Proofs.Sql.Walk
import TableLineage.Proofs.Sql.WrittenSegments
import TableLineage.Proofs.Table.DottedNames
import TableLineage.Proofs.Table.RereadKeys
import TableLineage.Proofs.Table.WrittenNames
import TableLineage.Proofs.Text.LetterCase
import TableLineage.Proofs.Text.LineStarts
import TableLineage.Proofs.Text.LowerCaseForms
import TableLineage.Proofs.Text.Search
import TableLineage.Proofs.Text.Trimming
import TableLineage.Sql.Catalog
import TableLineage.Sql.Comment
import TableLineage.Sql.Cte
import TableLineage.Sql.Cursor
import TableLineage.Sql.Dialect
import TableLineage.Sql.Lexeme
import TableLineage.Sql.Literal
import TableLineage.Sql.Quoted
import TableLineage.Sql.Reference
import TableLineage.Sql.Scan
import TableLineage.Sql.Token
import TableLineage.Sql.Tokenized
import TableLineage.Table.Name
import TableLineage.Table.Naming
import TableLineage.Table.Stored
import TableLineage.Text.Classes
import TableLineage.Text.Digits
import TableLineage.Text.Json
import TableLineage.Text.Lowercase
import TableLineage.Text.Search
import TableLineage.Text.Shown
import TableLineage.Text.Utf8
import TableLineage.Yaml.Event
import TableLineage.Yaml.Line
import TableLineage.Yaml.Scalar
import TableLineage.Yaml.Scan
import TableLineage.Yaml.Token
import TableLineage.Yaml.Value
