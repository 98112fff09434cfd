import Mender.Text.Blank
import Mender.Text.Split
import Mender.Text.Encoding
import Mender.Text.Case
import Mender.Text.Quoted
import Mender.Number.Shortest
import Mender.Json.Printer
import Mender.Markup.Element
import Mender.Report.Section
import Mender.Tree.Basic
import Mender.Fix.Apply
import Mender.Fix.Answer
import Mender.Prompt.Request
import Mender.Prompt.System
import Mender.Model.Cache
import Mender.Session.Loop
import Mender.Run
import Mender.Main
import Mender.Proofs.Report.Reading
import Mender.Proofs.Report.Blocks
import Mender.Proofs.Run.Confinement
import Mender.Proofs.Session.Status
import Mender.Proofs.Session.LineNumbers
import Mender.Proofs.World.Crew
import Mender.Proofs.Number.Quotient
import Mender.Proofs.Batch.Grouping
import Mender.Proofs.Batch.Pages
import Mender.Proofs.Batch.Partition
import Mender.Proofs.Batch.Wire
import Mender.Proofs.Session.Turns
import Mender.Proofs.Session.Figures
import Mender.Proofs.Markup.Element
import Mender.Proofs.Markup.Content
import Mender.Proofs.Fix.Answer
import Mender.Proofs.Fix.Escaped
import Mender.Proofs.Fix.Verbatim
import Mender.Proofs.Fix.Shown
import Mender.Proofs.Fix.Truncation
import Mender.Proofs.Fix.AtOnce
import Mender.Proofs.Fix.Bytes
import Mender.Proofs.Oracle.Response
import Mender.Proofs.Prompt.Unambiguous
import Mender.Proofs.Run.ExitCode
import Mender.Proofs.Model.Cache
import Mender.Proofs.World.Alike
import Mender.Proofs.Run.Debugging
import Mender.Proofs.Session.Budget
import Mender.Proofs.Session.Disclosure
import Mender.Proofs.Fix.FailSoft
import Mender.Proofs.Retry.Course
import Mender.Proofs.Report.Seam
import Mender.Proofs.Fix.Isolation
import Mender.Proofs.Fix.Unclosed
import Mender.Proofs.Fix.Again
import Mender.Proofs.Report.LineEnds
import Mender.Proofs.CommandLine.Order
import Mender.Proofs.CommandLine.Grammar
import Mender.Proofs.Run.Analyses
import Mender.Proofs.Markup.Entity
import Mender.Proofs.Markup.Section
import Mender.Proofs.Batch.Regroup
import Mender.Proofs.Fix.Inside
