import HeaderAudit.Text.Pieces
import HeaderAudit.Text.Utf8
import HeaderAudit.Text.Newline
import HeaderAudit.Text.Blank
import HeaderAudit.Text.Alphanumeric
import HeaderAudit.Path.Basic
import HeaderAudit.Path.Relative
import HeaderAudit.CommentStyle
import HeaderAudit.Notice
import HeaderAudit.Exemption
import HeaderAudit.Verdict
import HeaderAudit.Disk.Fault
import HeaderAudit.Disk.Basic
import HeaderAudit.Disk.Update
import HeaderAudit.Diagnostic.Severity
import HeaderAudit.Diagnostic.Event
import HeaderAudit.Diagnostic.Filter
import HeaderAudit.Finding
import HeaderAudit.Console.Colour
import HeaderAudit.Console.Lines
import HeaderAudit.Console.Outlet
import HeaderAudit.Examination
import HeaderAudit.Run
import HeaderAudit.Text.Hex
import HeaderAudit.Json.Basic
import HeaderAudit.Document
import HeaderAudit.Command.Usage
import HeaderAudit.Command.Argument
import HeaderAudit.Command.Settings
import HeaderAudit.Command.Help
import HeaderAudit.Command.Transcript
import HeaderAudit.Command.Program
import HeaderAudit.Main
import HeaderAudit.Proofs.LineBreaks
import HeaderAudit.Proofs.Margins
import HeaderAudit.Proofs.NoticeSpelling
import HeaderAudit.Proofs.JoinedPath
import HeaderAudit.Proofs.RootedExemption
import HeaderAudit.Proofs.RunFindings
import HeaderAudit.Proofs.KeepGoing
import HeaderAudit.Proofs.AsciiBytes
import HeaderAudit.Proofs.FileNames
import HeaderAudit.Proofs.Forwarding
import HeaderAudit.Proofs.PathSpelling
import HeaderAudit.Proofs.WrittenFile
import HeaderAudit.Proofs.Invocations
import HeaderAudit.Proofs.Invocations
import HeaderAudit.Proofs.Effects
import HeaderAudit.Proofs.Endings
import HeaderAudit.Proofs.JsonGrammar
import HeaderAudit.Proofs.JsonReader
import HeaderAudit.Proofs.JsonReading
import HeaderAudit.Proofs.JsonPrinting
import HeaderAudit.Proofs.ReportReading
import HeaderAudit.Proofs.Requests
import HeaderAudit.Proofs.CommandLines
import HeaderAudit.Proofs.Messages
import HeaderAudit.Proofs.WiderExemptions
import HeaderAudit.Proofs.Loudness
import HeaderAudit.Proofs.Footprint
import HeaderAudit.Proofs.Independence
import HeaderAudit.Proofs.Tallies
import HeaderAudit.Proofs.PlainSpelling
import HeaderAudit.Proofs.WayFromRoot
import HeaderAudit.Proofs.WellFormedText
import HeaderAudit.Proofs.Readability
import HeaderAudit.Proofs.NarrowRuns
import HeaderAudit.Proofs.PathSets
import HeaderAudit.Proofs.Warnings
import HeaderAudit.Proofs.FailureListing
import HeaderAudit.Proofs.LogPrecedence
import HeaderAudit.Proofs.OnePass
import HeaderAudit.Proofs.OneMiddle
import HeaderAudit.Proofs.TallyLine
