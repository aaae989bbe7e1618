import TraceChart.Chart.Drawing
import TraceChart.Chart.Layout
import TraceChart.Chart.Rows
import TraceChart.Chart.Ruler
import TraceChart.Chart.Series
import TraceChart.Chart.Timeline
import TraceChart.CommandLine.Directory
import TraceChart.CommandLine.Log
import TraceChart.CommandLine.Options
import TraceChart.CommandLine.Plan
import TraceChart.CommandLine.Run
import TraceChart.Fault
import TraceChart.Json.Fields
import TraceChart.Json.Reader
import TraceChart.Json.Text
import TraceChart.Json.Token
import TraceChart.Json.Value
import TraceChart.Json.Writer
import TraceChart.Main
import TraceChart.Number.Binary64
import TraceChart.Number.Conversion
import TraceChart.Number.Decade
import TraceChart.Number.Decimal
import TraceChart.Number.Exact
import TraceChart.Number.Extended
import TraceChart.Number.Fixed
import TraceChart.Number.Logarithm
import TraceChart.Number.Power
import TraceChart.Number.Reading
import TraceChart.Number.Scalar
import TraceChart.Number.Shortest
import TraceChart.Number.Style
import TraceChart.Proofs.Chart.Assembly
import TraceChart.Proofs.Json.Lexing
import TraceChart.Proofs.Json.Parsing
import TraceChart.Proofs.Json.Spelling
import TraceChart.Proofs.Number.Value
import TraceChart.Proofs.Roster
import TraceChart.Proofs.Trace.Intervals
import TraceChart.Proofs.Trace.Spelling
import TraceChart.Proofs.Traversal
import TraceChart.Record.Codec
import TraceChart.Record.Drawing
import TraceChart.Record.Trace
import TraceChart.Registry.Category
import TraceChart.Registry.Palette
import TraceChart.Roster
import TraceChart.Svg.Document
import TraceChart.Svg.Markup
import TraceChart.Svg.Theme
import TraceChart.Terminal.Ansi
import TraceChart.Terminal.Canvas
import TraceChart.Terminal.Color
import TraceChart.Terminal.Frame
import TraceChart.Terminal.Screen
import TraceChart.Terminal.View
import TraceChart.Terminal.Viewer
import TraceChart.Text.Blank
import TraceChart.Text.Cluster
import TraceChart.Text.Columns
import TraceChart.Text.Conjunct
import TraceChart.Text.Joining
import TraceChart.Text.Line
import TraceChart.Text.Quoted
import TraceChart.Text.Ranges
import TraceChart.Text.Steering
import TraceChart.Text.Unprinted
import TraceChart.Trace.Code
import TraceChart.Trace.Counter
import TraceChart.Trace.Document
import TraceChart.Trace.Interval
import TraceChart.Trace.Problem
import TraceChart.Trace.Tracks
import TraceChart.Proofs.Trace.Decoding
import TraceChart.Proofs.Trace.Acceptance
import TraceChart.Proofs.Number.Rounding
import TraceChart.Proofs.Number.Order
import TraceChart.Proofs.Terminal.View
import TraceChart.Proofs.Chart.Hover
import TraceChart.Proofs.Svg.Reading
import TraceChart.Proofs.Chart.Drawing
import TraceChart.Proofs.Svg.Chart
import TraceChart.Proofs.Number.Whole
import TraceChart.Proofs.Terminal.Screen
import TraceChart.Proofs.Chart.Rows
import TraceChart.Proofs.Terminal.Canvas
import TraceChart.Proofs.Terminal.Viewer
import TraceChart.Proofs.Terminal.Frame
import TraceChart.Proofs.Number.Seventh
import TraceChart.Proofs.Trace.Calls
import TraceChart.Proofs.Svg.Document
import TraceChart.Proofs.Number.Quotient
import TraceChart.Proofs.Number.Decimal
import TraceChart.Proofs.Number.Numeral
import TraceChart.Proofs.Json.Grammar
import TraceChart.Proofs.Json.Writing
import TraceChart.Proofs.Json.Soundness
import TraceChart.Proofs.Record.Codec
import TraceChart.Proofs.Record.Restoring
import TraceChart.Proofs.Trace.Shape
import TraceChart.Proofs.Trace.Order
import TraceChart.Proofs.Chart.Extent
import TraceChart.Proofs.Json.Layout
import TraceChart.Proofs.Number.Stepwise
import TraceChart.Proofs.Record.Rereading
import TraceChart.Proofs.CommandLine.Plan
import TraceChart.Proofs.CommandLine.Export
import TraceChart.Proofs.CommandLine.Directory
import TraceChart.Proofs.CommandLine.Outcome
import TraceChart.Proofs.Chart.Texts
import TraceChart.Proofs.Chart.Room
import TraceChart.Proofs.Number.Letters
import TraceChart.Proofs.Svg.Grammar
import TraceChart.Proofs.Svg.WellFormed
import TraceChart.Proofs.Number.Monotone
import TraceChart.Proofs.Number.Bound
import TraceChart.Proofs.Number.Decade
import TraceChart.Proofs.Number.Spacing
import TraceChart.Proofs.Chart.Window
import TraceChart.Proofs.Chart.Blocks
import TraceChart.Proofs.Chart.Bars
import TraceChart.Proofs.Chart.Steps
import TraceChart.Proofs.Chart.Ruler
import TraceChart.Proofs.Chart.Groups
import TraceChart.Proofs.Chart.Fit
import TraceChart.Proofs.Chart.Ticks
import TraceChart.Proofs.Number.Reading
import TraceChart.Proofs.Number.Fixed
import TraceChart.Proofs.Number.Caption
import TraceChart.Proofs.Number.Representation
import TraceChart.Proofs.Chart.Labels
import TraceChart.Proofs.Chart.Density
import TraceChart.Proofs.Trace.Places
import TraceChart.Proofs.Trace.Codes
import TraceChart.Proofs.Terminal.Selection
import TraceChart.Proofs.Terminal.Actions
import TraceChart.Proofs.Trace.Checking
import TraceChart.Proofs.Trace.Offences
import TraceChart.Proofs.Json.Members
import TraceChart.Proofs.Trace.Objects
import TraceChart.Proofs.Trace.Unknown
import TraceChart.Proofs.Trace.Repetition
import TraceChart.Proofs.Svg.Escaping
import TraceChart.Proofs.Terminal.Motion
import TraceChart.Proofs.Text.Width
import TraceChart.Proofs.Terminal.Confinement
import TraceChart.Proofs.Number.Share
import TraceChart.Proofs.Terminal.Cursor
