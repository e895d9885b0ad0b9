import OpcodeLens.Text.Basic
import OpcodeLens.Text.Table
import OpcodeLens.Text.Blank
import OpcodeLens.Text.Lowercase
import OpcodeLens.Text.Position
import OpcodeLens.Text.WordSpan
import OpcodeLens.Token.Basic
import OpcodeLens.Token.Scanner
import OpcodeLens.Json.Basic
import OpcodeLens.Json.Reader
import OpcodeLens.Json.Printer
import OpcodeLens.OrderedMap
import OpcodeLens.Number.Basic
import OpcodeLens.Number.Decimal
import OpcodeLens.Number.Numeral
import OpcodeLens.Enumeration.Basic
import OpcodeLens.Enumeration.Members
import OpcodeLens.Enumeration.Source
import OpcodeLens.Command.Basic
import OpcodeLens.Command.Definition
import OpcodeLens.Command.Signature
import OpcodeLens.Command.Markup
import OpcodeLens.Command.Card
import OpcodeLens.Catalogue.Basic
import OpcodeLens.Workspace.Path
import OpcodeLens.Workspace.FileUrl
import OpcodeLens.Editor.Hover
import OpcodeLens.Editor.Completion
import OpcodeLens.Editor.Labels
import OpcodeLens.Editor.Highlight
import OpcodeLens.Editor.Includes
import OpcodeLens.Editor.Symbols
import OpcodeLens.Workspace.Edition
import OpcodeLens.Workspace.Settings
import OpcodeLens.Workspace.FileTree
import OpcodeLens.Workspace.Loading
import OpcodeLens.Json.Value
import OpcodeLens.Rebuild.Basic
import OpcodeLens.Client.Request
import OpcodeLens.Client.Inquiry
import OpcodeLens.Client.Link
import OpcodeLens.Server.Basic
import OpcodeLens.Server.Notice
import OpcodeLens.Server.Question
import OpcodeLens.Server.Session
import OpcodeLens.Wire.Encode
import OpcodeLens.Wire.Decode
import OpcodeLens.Wire.Envelope
import OpcodeLens.Main
import OpcodeLens.Proofs.Text.Basic
import OpcodeLens.Proofs.Text.Position
import OpcodeLens.Proofs.OrderedMap
import OpcodeLens.Proofs.Number.Whole
import OpcodeLens.Proofs.Token.Lossless
import OpcodeLens.Proofs.Token.Lines
import OpcodeLens.Proofs.Token.Place
import OpcodeLens.Proofs.Enumeration.Source
import OpcodeLens.Proofs.Enumeration.Printing
import OpcodeLens.Proofs.Command.Markup
import OpcodeLens.Proofs.Catalogue.Grouping
import OpcodeLens.Proofs.Editor.Highlight
import OpcodeLens.Proofs.Editor.HighlightLines
import OpcodeLens.Proofs.Rebuild.Service
import OpcodeLens.Proofs.Rebuild.Course
import OpcodeLens.Proofs.Rebuild.Publication
import OpcodeLens.Proofs.Server.Change
import OpcodeLens.Proofs.Server.Loading
import OpcodeLens.Proofs.Server.LatestSettings
import OpcodeLens.Proofs.Server.Silence
import OpcodeLens.Proofs.Text.WordSpan
import OpcodeLens.Proofs.Token.Names
import OpcodeLens.Proofs.Enumeration.Values
import OpcodeLens.Proofs.Editor.Agreement
import OpcodeLens.Proofs.Editor.Completion
import OpcodeLens.Proofs.Enumeration.Headers
import OpcodeLens.Proofs.Enumeration.OpenHeaders
import OpcodeLens.Proofs.Command.Card
import OpcodeLens.Proofs.Command.Signature
import OpcodeLens.Proofs.Command.WellFormed
import OpcodeLens.Proofs.Text.Rounding
import OpcodeLens.Proofs.Editor.Labels
import OpcodeLens.Proofs.Text.LineEndings
import OpcodeLens.Proofs.Editor.LineEndings
import OpcodeLens.Proofs.Client.Inquiry
import OpcodeLens.Proofs.Client.Selection
import OpcodeLens.Proofs.Editor.TaggedHover
import OpcodeLens.Proofs.Catalogue.Search
import OpcodeLens.Proofs.Editor.Includes
import OpcodeLens.Proofs.Enumeration.Layout
import OpcodeLens.Proofs.Editor.SortKeys
import OpcodeLens.Proofs.Text.Bytes
import OpcodeLens.Proofs.Text.WordRun
import OpcodeLens.Proofs.Enumeration.Inline
import OpcodeLens.Proofs.Enumeration.ByteWalk
import OpcodeLens.Proofs.Number.Grammar
