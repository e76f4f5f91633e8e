import Flowchart.Command.Arguments
import Flowchart.Command.Execute
import Flowchart.Compile
import Flowchart.Drawing.OfCode
import Flowchart.Drawing.OfGraph
import Flowchart.Expression.Declaration
import Flowchart.Expression.OfText
import Flowchart.Json.Read
import Flowchart.Main
import Flowchart.Outline
import Flowchart.Proofs.Adjacency
import Flowchart.Proofs.ArrayWrites
import Flowchart.Proofs.CodeNesting
import Flowchart.Proofs.Comparing
import Flowchart.Proofs.DashedArrows
import Flowchart.Proofs.ElementIds
import Flowchart.Proofs.Entries
import Flowchart.Proofs.ExactTerms
import Flowchart.Proofs.Indifference
import Flowchart.Proofs.Keyboard
import Flowchart.Proofs.LoopForest
import Flowchart.Proofs.Markers
import Flowchart.Proofs.Offences
import Flowchart.Proofs.Placement
import Flowchart.Proofs.Renaming
import Flowchart.Proofs.Respacing
import Flowchart.Proofs.Scanning
import Flowchart.Proofs.Stability
import Flowchart.Proofs.StoredForms
import Flowchart.Proofs.Structuring
import Flowchart.Proofs.Visiting
import Flowchart.Proofs.WaysOut
import Flowchart.Proofs.WrittenBack
import Flowchart.Report
import Flowchart.Run
import Flowchart.Table
