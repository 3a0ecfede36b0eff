import Markup.AttributeMap.Edit
import Markup.AttributeMap.Layers
import Markup.Failure.Report
import Markup.Files.Tree
import Markup.Main
import Markup.Renderer
import Markup.Settings.Shape
import Markup.Proofs.AttributeMap.Merge
import Markup.Proofs.AttributeMap.Layers
import Markup.Proofs.Attribute.Scan
import Markup.Proofs.Failure.Raise
import Markup.Proofs.Failure.FailingLine
import Markup.Proofs.Failure.Origin
import Markup.Proofs.Failure.Reading
import Markup.Proofs.Failure.Report
import Markup.Proofs.Failure.Seal
import Markup.Proofs.Text.Window
import Markup.Proofs.Text.LineSpan
import Markup.Proofs.AttributeMap.History
import Markup.Proofs.AttributeMap.InPlace
import Markup.Proofs.Value.Equality
import Markup.Proofs.Json.Targets
import Markup.Proofs.Number.Decimal
import Markup.Proofs.Number.Shortest
import Markup.Proofs.Number.Digits
import Markup.Proofs.Number.Whole
import Markup.Proofs.Number.Tokens
import Markup.Proofs.Number.Fewest
import Markup.Proofs.Number.Literal
import Markup.Proofs.Number.Display
import Markup.Proofs.Value.Spelling
import Markup.Proofs.Value.Encoders
import Markup.Proofs.Number.Scaled
import Markup.Proofs.Json.Number
import Markup.Proofs.Json.Reread
import Markup.Proofs.Json.Grammar
import Markup.Proofs.Json.RoundTrip
import Markup.Proofs.Value.ReadBack
import Markup.Proofs.Attribute.Quotes
import Markup.Proofs.Toml.Contents
import Markup.Proofs.Outcomes
import Markup.Proofs.Settings.Shape
import Markup.Proofs.Settings.Load
import Markup.Proofs.CommandLine.Stages
import Markup.Proofs.CommandLine.Arguments
import Markup.Proofs.CommandLine.Run
import Markup.Proofs.ClassNames
import Markup.Proofs.Escape.Spans
import Markup.Proofs.Escape.Inverse
