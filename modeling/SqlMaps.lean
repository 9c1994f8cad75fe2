import SqlMaps.Text.Blank
import SqlMaps.Text.Case
import SqlMaps.Text.Hex
import SqlMaps.Text.Quoted
import SqlMaps.Text.Shown
import SqlMaps.Text.Split
import SqlMaps.Text.Utf8
import SqlMaps.Number.Integer
import SqlMaps.Number.Power
import SqlMaps.Number.Binary64
import SqlMaps.Number.Shortest
import SqlMaps.Number.RealText
import SqlMaps.Calendar.Timestamp
import SqlMaps.Calendar.Text
import SqlMaps.Value.Basic
import SqlMaps.Value.Params
import SqlMaps.Value.Field
import SqlMaps.Markup.Event
import SqlMaps.Markup.Entity
import SqlMaps.Markup.Token
import SqlMaps.Markup.Document
import SqlMaps.Markup.Stream
import SqlMaps.Markup.Forest
import SqlMaps.Template.Compile
import SqlMaps.Sql.TransactionMode
import SqlMaps.Engine.Script
import SqlMaps.Session.Schedule
import SqlMaps.Snapshot
import SqlMaps.Bean.Form
import SqlMaps.Mapper.Basic
import SqlMaps.Migration.Exceptions
import SqlMaps.Migration.Basic
import SqlMaps.Yaml.Reader
import SqlMaps.Yaml.Writer
import SqlMaps.Config.RetentionFile
import SqlMaps.Config.Settings
import SqlMaps.Database
import SqlMaps.Migration.Upgrade
import SqlMaps.Cli.Run
import SqlMaps.Main
import SqlMaps.Proofs.Template.Injection
import SqlMaps.Proofs.Template.Tree
import SqlMaps.Proofs.Template.Page
import SqlMaps.Proofs.Template.Reading
import SqlMaps.Proofs.Template.Where
import SqlMaps.Proofs.Markup.Decoding
import SqlMaps.Proofs.Markup.Cutting
import SqlMaps.Proofs.Markup.Accepted
import SqlMaps.Proofs.Template.Margin
import SqlMaps.Proofs.Template.Comment
import SqlMaps.Proofs.Session.Attempt
import SqlMaps.Proofs.Session.Outcomes
import SqlMaps.Proofs.Session.Steps
import SqlMaps.Proofs.Session.Blocks
import SqlMaps.Proofs.Session.Sending
import SqlMaps.Proofs.Migration.AllOrNothing
import SqlMaps.Proofs.Files.Frame
import SqlMaps.Proofs.Files.Opening
import SqlMaps.Proofs.Migration.FileInUse
import SqlMaps.Proofs.Number.Rounding
import SqlMaps.Proofs.Number.ShortestDigits
import SqlMaps.Proofs.Number.IntegerReading
import SqlMaps.Proofs.Number.RealReading
import SqlMaps.Proofs.Number.WholeReals
import SqlMaps.Proofs.Value.BeanReading
import SqlMaps.Proofs.Sql.LiteralReading
import SqlMaps.Proofs.Sql.StatementReading
import SqlMaps.Proofs.Engine.Tables
import SqlMaps.Proofs.Engine.RowIds
import SqlMaps.Proofs.Engine.Snapshots
import SqlMaps.Proofs.Store.Plain
import SqlMaps.Proofs.Store.Tables
import SqlMaps.Proofs.Migration.Copying
import SqlMaps.Proofs.Migration.EveryRow
import SqlMaps.Proofs.Migration.MatchingRows
import SqlMaps.Proofs.Template.Around
import SqlMaps.Proofs.Template.Selection
import SqlMaps.Proofs.Template.Unmet
import SqlMaps.Proofs.Template.Order
import SqlMaps.Proofs.Template.Position
import SqlMaps.Proofs.Template.Elision
import SqlMaps.Proofs.Template.Outline
import SqlMaps.Proofs.Template.Arena
import SqlMaps.Proofs.Session.History
import SqlMaps.Proofs.Session.Interleaving
import SqlMaps.Proofs.Mapper.Writes
import SqlMaps.Proofs.Session.Nesting
import SqlMaps.Proofs.Markup.Documents
import SqlMaps.Proofs.Markup.Writing
import SqlMaps.Proofs.Sql.UniqueReading
import SqlMaps.Proofs.Session.Log
import SqlMaps.Proofs.Mapper.Keywords
import SqlMaps.Proofs.Migration.Permitted
import SqlMaps.Proofs.Session.Exchanges
import SqlMaps.Proofs.Migration.Tally
import SqlMaps.Proofs.Migration.Accounting
import SqlMaps.Proofs.Migration.Parallel
import SqlMaps.Proofs.Migration.Unrestricted
import SqlMaps.Proofs.Template.Comparison
import SqlMaps.Proofs.Number.Layouts
import SqlMaps.Proofs.Template.Inserted
import SqlMaps.Proofs.Template.Grouping
import SqlMaps.Proofs.Template.Scanning
import SqlMaps.Proofs.Template.Resolving
import SqlMaps.Proofs.Template.Borders
import SqlMaps.Proofs.Template.Prepends
import SqlMaps.Proofs.Template.Visiting
import SqlMaps.Proofs.Template.Rescanning
import SqlMaps.Proofs.Session.Marking
import SqlMaps.Proofs.Mapper.WriteBack
import SqlMaps.Proofs.Markup.Faults
import SqlMaps.Proofs.Mapper.KeyShape
import SqlMaps.Proofs.Session.Failures
import SqlMaps.Proofs.Engine.Versions
import SqlMaps.Proofs.Migration.Again
import SqlMaps.Proofs.Migration.Placement
import SqlMaps.Proofs.Migration.Placing
import SqlMaps.Proofs.Migration.RowsApart
import SqlMaps.Proofs.Template.QueryId
import SqlMaps.Proofs.Value.WholeNumbers
import SqlMaps.Proofs.Calendar.TimestampReading
import SqlMaps.Proofs.Cli.HexReading
import SqlMaps.Proofs.Cli.ParamReading
import SqlMaps.Proofs.Engine.FlagReading
