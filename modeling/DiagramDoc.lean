import DiagramDoc.Diagram.KindName
import DiagramDoc.Edit.Apply
import DiagramDoc.Files.Tree
import DiagramDoc.Main
import DiagramDoc.Proofs.Diagram.Entity
import DiagramDoc.Proofs.Diagram.Identifiers
import DiagramDoc.Proofs.Diagram.Reconcile
import DiagramDoc.Proofs.Dialect.Reading
import DiagramDoc.Proofs.Dialect.ReadText
import DiagramDoc.Proofs.Edit.Exact
import DiagramDoc.Proofs.Document.Stored
import DiagramDoc.Proofs.Document.Normalize
import DiagramDoc.Proofs.Session
import DiagramDoc.Proofs.Dialect.Line
import DiagramDoc.Proofs.Text.Escaped
import DiagramDoc.Proofs.Dialect.FlowchartLines
import DiagramDoc.Proofs.Dialect.FlowchartRoundTrip
import DiagramDoc.Proofs.Number.Numeral
import DiagramDoc.Proofs.Text.Field
import DiagramDoc.Proofs.Dialect.JourneyRoundTrip
import DiagramDoc.Proofs.Dialect.PieRoundTrip
import DiagramDoc.Proofs.Dialect.GanttRoundTrip
import DiagramDoc.Proofs.Dialect.SequenceRoundTrip
import DiagramDoc.Proofs.Dialect.FlowchartColors
import DiagramDoc.Proofs.Dialect.Reexport
import DiagramDoc.Proofs.Files.Tree
import DiagramDoc.Proofs.Document.Lossless
import DiagramDoc.Proofs.Store
import DiagramDoc.Proofs.Dialect.FreshRow
import DiagramDoc.Proofs.Dialect.Linked
import DiagramDoc.Proofs.Document.Links
import DiagramDoc.Proofs.Json.Scale
import DiagramDoc.Proofs.Json.Numeral
import DiagramDoc.Proofs.Json.RoundTrip
import DiagramDoc.Proofs.Document.Reloaded
import DiagramDoc.Proofs.Dialect.Counter
import DiagramDoc.Proofs.Dialect.Census
import DiagramDoc.Proofs.Command.Import
import DiagramDoc.Proofs.Edit.Capture
import DiagramDoc.Proofs.Table.Identified
import DiagramDoc.Proofs.Files.Path
import DiagramDoc.Proofs.Files.Faithful
import DiagramDoc.Proofs.Files.Saving
import DiagramDoc.Proofs.Command.Run
import DiagramDoc.Proofs.Command.Harmless
import DiagramDoc.Proofs.Command.Normalize
import DiagramDoc.Proofs.Edit.Commuting
import DiagramDoc.Proofs.Diagram.Redrawn
import DiagramDoc.Proofs.Dialect.Roll
import DiagramDoc.Proofs.Dialect.FlowchartMeaning
import DiagramDoc.Proofs.Dialect.SequenceSpelling
import DiagramDoc.Proofs.Dialect.SequenceMeaning
import DiagramDoc.Proofs.Dialect.FlowchartIdentity
import DiagramDoc.Proofs.Table.Numbered
import DiagramDoc.Proofs.Text.Unescaped
import DiagramDoc.Proofs.Dialect.Layout
import DiagramDoc.Proofs.Dialect.FlowchartEdges
import DiagramDoc.Proofs.Dialect.FlowchartNodes
import DiagramDoc.Proofs.Edit.Cascade
import DiagramDoc.Proofs.Dialect.GanttMeaning
import DiagramDoc.Proofs.Files.Folders
import DiagramDoc.Proofs.Command.Options
