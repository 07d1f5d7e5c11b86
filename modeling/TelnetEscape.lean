import TelnetEscape.Escape.Basic
import TelnetEscape.Escape.Progress
import TelnetEscape.Escape.Fit
import TelnetEscape.FrameItem
import TelnetEscape.Config
import TelnetEscape.Error
import TelnetEscape.Event
import TelnetEscape.Poll
import TelnetEscape.Sink.Basic
import TelnetEscape.Sink.Journal
import TelnetEscape.Sink.Script
import TelnetEscape.Sink.Nonblocking
import TelnetEscape.Stage
import TelnetEscape.Writer.Basic
import TelnetEscape.Writer.Blocking
import TelnetEscape.Writer.Polled
import TelnetEscape.Writer.Sending
import TelnetEscape.Tower
import TelnetEscape.Proofs.Calls
import TelnetEscape.Proofs.Front
import TelnetEscape.Proofs.Offers
import TelnetEscape.Proofs.Sends
import TelnetEscape.Proofs.SendOutcome
import TelnetEscape.Proofs.WriteAll
import TelnetEscape.Proofs.TowerWriteAll
import TelnetEscape.Proofs.Conservation
import TelnetEscape.Proofs.PolledSendOutcome
import TelnetEscape.Proofs.Resend
import TelnetEscape.Proofs.Delays
import TelnetEscape.Proofs.Completion
import TelnetEscape.Proofs.Agreement
import TelnetEscape.Proofs.TowerConservation
import TelnetEscape.Proofs.CutOff
import TelnetEscape.Proofs.TwoWriters
import TelnetEscape.Proofs.SinkMaps
import TelnetEscape.Proofs.NoResidue
import TelnetEscape.Proofs.TornPairs
import TelnetEscape.Proofs.Timeline
import TelnetEscape.Proofs.OfferOrder
import TelnetEscape.Proofs.LongestFronts
import TelnetEscape.Proofs.WriteContract
import TelnetEscape.Proofs.FlushedWrites
import TelnetEscape.Proofs.PolledWriteContract
import TelnetEscape.Proofs.EscapedStrings
import TelnetEscape.Proofs.Batches
import TelnetEscape.Proofs.CallBounds
import TelnetEscape.Proofs.SendReports
import TelnetEscape.Proofs.RunReports
import TelnetEscape.Proofs.StageSteps
import TelnetEscape.Proofs.PieceCounts
import TelnetEscape.Proofs.Word.Escape
import TelnetEscape.Proofs.Word.Writer
import TelnetEscape.Proofs.Word.Blocking
import TelnetEscape.Proofs.Word.Polled
import TelnetEscape.Proofs.Word.Counters
