import SystemMap.Json.Text
import SystemMap.Text.Utf8
import SystemMap.Document.Json
import SystemMap.Outline.Step
import SystemMap.Outline
import SystemMap.Reading
import SystemMap.Check
import SystemMap.Graph.Layers
import SystemMap.Graph.Rows
import SystemMap.Drawing.OfDocument
import SystemMap.Drawing.Json
import SystemMap.Flowchart
import SystemMap.Log
import SystemMap.Files.Search
import SystemMap.Yaml.Plain
import SystemMap.Yaml.Node
import SystemMap.Settings
import SystemMap.Figure.Json
import SystemMap.Page
import SystemMap.Main
import SystemMap.Proofs.Reading.Reach
import SystemMap.Proofs.Graph.Layering
import SystemMap.Proofs.Grammar.Split
import SystemMap.Proofs.Printing.RoundTrip
import SystemMap.Proofs.Reading.Frame
import SystemMap.Proofs.Scan.Slices
import SystemMap.Proofs.Scan.Written
import SystemMap.Proofs.Files.Skipped
import SystemMap.Proofs.Checking.Defects
import SystemMap.Proofs.Checking.Ports
import SystemMap.Proofs.Drawing.Complete
import SystemMap.Proofs.Drawing.Apart
import SystemMap.Proofs.Flowchart.Identifiers
import SystemMap.Proofs.Flowchart.Labels
import SystemMap.Proofs.Flowchart.Shown
import SystemMap.Proofs.Reading.Alike
import SystemMap.Proofs.Reading.Faults
import SystemMap.Proofs.Document.Restored
import SystemMap.Proofs.Files.Diagnoses
import SystemMap.Proofs.Graph.Recursion
import SystemMap.Proofs.Graph.Barycenters
import SystemMap.Proofs.Graph.Locality
import SystemMap.Proofs.Drawing.Cells
import SystemMap.Proofs.Drawing.Attached
import SystemMap.Proofs.Drawing.Rightward
import SystemMap.Proofs.Drawing.Stacked
import SystemMap.Proofs.Reading.Blocks
import SystemMap.Proofs.Grammar.Earliest
import SystemMap.Proofs.Scan.LineEnds
import SystemMap.Proofs.Settings.Accepted
import SystemMap.Proofs.Files.Lookup
import SystemMap.Proofs.Reading.Accounts
