import ChatCommands.Catalog
import ChatCommands.Chat.Directory
import ChatCommands.Chat.Entity
import ChatCommands.Command.Basic
import ChatCommands.Config.Basic
import ChatCommands.Config.Document
import ChatCommands.Diagnostic.ArgumentFault
import ChatCommands.Diagnostic.CommandError
import ChatCommands.Diagnostic.Span
import ChatCommands.Diagnostic.Violation
import ChatCommands.Dict
import ChatCommands.Dispatch.Dispatcher
import ChatCommands.Dispatch.Reply
import ChatCommands.Dispatch.Route
import ChatCommands.Dispatch.Tokens
import ChatCommands.Dispatch.Trigger
import ChatCommands.Json.Basic
import ChatCommands.Json.Fault
import ChatCommands.Json.Printer
import ChatCommands.Json.Reader
import ChatCommands.Json.Record
import ChatCommands.Json.Scanner
import ChatCommands.Main
import ChatCommands.Manifest
import ChatCommands.Number.Binary
import ChatCommands.Number.Bound
import ChatCommands.Number.Decimal
import ChatCommands.Number.FloatText
import ChatCommands.Number.Numeral
import ChatCommands.Number.Product
import ChatCommands.Number.Shortest
import ChatCommands.Number.SizedInt
import ChatCommands.Param.Basic
import ChatCommands.Param.Declaration
import ChatCommands.Param.ParamType
import ChatCommands.Param.Signature
import ChatCommands.Proofs.Catalog.Isolation
import ChatCommands.Proofs.Catalog.Routing
import ChatCommands.Proofs.Command.Declared
import ChatCommands.Proofs.Dict
import ChatCommands.Proofs.Dispatch.Accounting
import ChatCommands.Proofs.Dispatch.Answering
import ChatCommands.Proofs.Dispatch.Arity
import ChatCommands.Proofs.Dispatch.Gating
import ChatCommands.Proofs.Dispatch.LongestPath
import ChatCommands.Proofs.Dispatch.Places
import ChatCommands.Proofs.Dispatch.Spans
import ChatCommands.Proofs.Dispatch.TriggerTexts
import ChatCommands.Proofs.Dispatch.UsageLine
import ChatCommands.Proofs.Json.Nesting
import ChatCommands.Proofs.Json.Number
import ChatCommands.Proofs.Json.NumberText
import ChatCommands.Proofs.Json.Record
import ChatCommands.Proofs.Json.Same
import ChatCommands.Proofs.Json.Scan
import ChatCommands.Proofs.Json.Value
import ChatCommands.Proofs.Number.DecimalOrder
import ChatCommands.Proofs.Number.Numeral
import ChatCommands.Proofs.Number.Rounding
import ChatCommands.Proofs.Number.Shortest
import ChatCommands.Proofs.Number.WholeNumber
import ChatCommands.Proofs.Outcome
import ChatCommands.Proofs.Param.Declared
import ChatCommands.Proofs.Param.Joining
import ChatCommands.Proofs.Param.Notation
import ChatCommands.Proofs.Publish.Folder
import ChatCommands.Proofs.Publish.Protocol
import ChatCommands.Proofs.Publish.Registry
import ChatCommands.Proofs.Publish.Restart
import ChatCommands.Proofs.Publish.Schedule
import ChatCommands.Proofs.Publish.Session
import ChatCommands.Proofs.Resolve.Agreement
import ChatCommands.Proofs.Resolve.Alone
import ChatCommands.Proofs.Resolve.ChannelKinds
import ChatCommands.Proofs.Resolve.Choices
import ChatCommands.Proofs.Resolve.Conditions
import ChatCommands.Proofs.Resolve.DecimalBounds
import ChatCommands.Proofs.Resolve.Defaults
import ChatCommands.Proofs.Resolve.Errors
import ChatCommands.Proofs.Resolve.FrontEnds
import ChatCommands.Proofs.Resolve.GuildScope
import ChatCommands.Proofs.Resolve.Intake
import ChatCommands.Proofs.Resolve.IntegerNumeral
import ChatCommands.Proofs.Resolve.IntegerRange
import ChatCommands.Proofs.Resolve.Internal
import ChatCommands.Proofs.Resolve.Judgement
import ChatCommands.Proofs.Resolve.Lockstep
import ChatCommands.Proofs.Resolve.Lookup
import ChatCommands.Proofs.Resolve.Masking
import ChatCommands.Proofs.Resolve.Mention
import ChatCommands.Proofs.Resolve.Mentioning
import ChatCommands.Proofs.Resolve.Naming
import ChatCommands.Proofs.Resolve.OptionMap
import ChatCommands.Proofs.Resolve.Options
import ChatCommands.Proofs.Resolve.Parameter
import ChatCommands.Proofs.Resolve.Permission
import ChatCommands.Proofs.Resolve.Pointing
import ChatCommands.Proofs.Resolve.Reaching
import ChatCommands.Proofs.Resolve.Reading
import ChatCommands.Proofs.Resolve.Refusals
import ChatCommands.Proofs.Resolve.Search
import ChatCommands.Proofs.Resolve.Shares
import ChatCommands.Proofs.Resolve.Spelling
import ChatCommands.Proofs.Resolve.Supply
import ChatCommands.Proofs.Resolve.TypedEntity
import ChatCommands.Proofs.Resolve.Typing
import ChatCommands.Proofs.Resolve.Usage
import ChatCommands.Proofs.Schema.Acceptance
import ChatCommands.Proofs.Schema.Agreement
import ChatCommands.Proofs.Schema.Arena
import ChatCommands.Proofs.Schema.Bounds
import ChatCommands.Proofs.Schema.Built
import ChatCommands.Proofs.Schema.ChannelTypes
import ChatCommands.Proofs.Schema.Difference
import ChatCommands.Proofs.Schema.Editing
import ChatCommands.Proofs.Schema.Groups
import ChatCommands.Proofs.Schema.Growth
import ChatCommands.Proofs.Schema.IntegerLimits
import ChatCommands.Proofs.Schema.Kept
import ChatCommands.Proofs.Schema.Layout
import ChatCommands.Proofs.Schema.Loops
import ChatCommands.Proofs.Schema.Members
import ChatCommands.Proofs.Schema.Mirror
import ChatCommands.Proofs.Schema.Order
import ChatCommands.Proofs.Schema.Payload
import ChatCommands.Proofs.Schema.Placing
import ChatCommands.Proofs.Schema.Position
import ChatCommands.Proofs.Schema.Progress
import ChatCommands.Proofs.Schema.Reorder
import ChatCommands.Proofs.Schema.Returned
import ChatCommands.Proofs.Schema.Shape
import ChatCommands.Proofs.Schema.Size
import ChatCommands.Proofs.Schema.Snapshot
import ChatCommands.Proofs.Schema.Stages
import ChatCommands.Proofs.Schema.Tree
import ChatCommands.Proofs.Text.FileName
import ChatCommands.Proofs.Text.Lowercase
import ChatCommands.Proofs.Text.WordList
import ChatCommands.Proofs.Text.Words
import ChatCommands.Publish.Folder
import ChatCommands.Publish.Line
import ChatCommands.Publish.Publisher
import ChatCommands.Publish.Registry
import ChatCommands.Publish.Task
import ChatCommands.Resolve.Condition
import ChatCommands.Resolve.Entity
import ChatCommands.Resolve.Input
import ChatCommands.Resolve.Mention
import ChatCommands.Resolve.Numeric
import ChatCommands.Resolve.Resolution
import ChatCommands.Resolve.Resolver
import ChatCommands.Resolve.Standard
import ChatCommands.Resolve.Supply
import ChatCommands.Resolve.Textual
import ChatCommands.Schema.Difference
import ChatCommands.Schema.Layout
import ChatCommands.Schema.Limits
import ChatCommands.Schema.Payload
import ChatCommands.Schema.Publication
import ChatCommands.Schema.Snapshot
import ChatCommands.Schema.SnapshotValue
import ChatCommands.Schema.Tree
import ChatCommands.Text.Blank
import ChatCommands.Text.Case
import ChatCommands.Text.CasedTable
import ChatCommands.Text.FileName
import ChatCommands.Text.LineDiff
import ChatCommands.Text.LowerTable
import ChatCommands.Text.UnseenTable
import ChatCommands.Text.Word
import ChatCommands.Text.WordTable
import ChatCommands.Tool.Arguments
import ChatCommands.Tool.FileSystem
import ChatCommands.Tool.Run
import ChatCommands.Value
import ChatCommands.Yaml.Cursor
import ChatCommands.Yaml.Node
import ChatCommands.Yaml.Record
import ChatCommands.Yaml.Scalar
import ChatCommands.Yaml.Token
