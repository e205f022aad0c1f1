import Sinkhole.Main
import Sinkhole.Proofs.Store.InForce
import Sinkhole.Proofs.Intake.Orders
import Sinkhole.Proofs.Update.Synced
import Sinkhole.Proofs.Update.Stopping
import Sinkhole.Proofs.Update.Withheld
import Sinkhole.Proofs.Update.Checked
import Sinkhole.Proofs.Update.Learned
import Sinkhole.Proofs.Update.Sent
import Sinkhole.Proofs.Update.Steady
import Sinkhole.Proofs.Update.InPlace
import Sinkhole.Proofs.Update.Agreement
import Sinkhole.Proofs.History.Ledger
import Sinkhole.Proofs.History.Rows
import Sinkhole.Proofs.History.Validators
import Sinkhole.Intake.Stages
import Sinkhole.Proofs.Intake.Sifted
import Sinkhole.Proofs.Intake.Stages
import Sinkhole.Proofs.Update.Repeated
import Sinkhole.Proofs.Update.Pool
import Sinkhole.Proofs.Command.Sources
import Sinkhole.Proofs.Update.Spared
import Sinkhole.Progress.Shared
import Sinkhole.Proofs.Progress
import Sinkhole.Proofs.Store.Consistent
import Sinkhole.Proofs.Update.Attempts
import Sinkhole.Proofs.Host.Name
import Sinkhole.Proofs.Intake.Unwinding
import Sinkhole.Proofs.Line
import Sinkhole.Proofs.Line.Written
import Sinkhole.Proofs.Line.Comment
import Sinkhole.Proofs.Update.Asked
import Sinkhole.Proofs.History.Forge
import Sinkhole.Proofs.Fetch.Afresh
import Sinkhole.Proofs.Store.Generations
import Sinkhole.Proofs.Url.Percent
import Sinkhole.Proofs.Fetch.Question
import Sinkhole.Proofs.Progress.Meter
import Sinkhole.Proofs.Update.Counted
import Sinkhole.Proofs.Update.Accounts
import Sinkhole.Proofs.Store.Counts
import Sinkhole.Update.Survey
import Sinkhole.Proofs.Update.Survey
import Sinkhole.Proofs.Fetch.Redirect
import Sinkhole.Proofs.Fetch.Sending
import Sinkhole.Proofs.Fetch.Encrypted
import Sinkhole.Proofs.Control
import Sinkhole.Proofs.Progress.Course
import Sinkhole.Proofs.Sightings
import Sinkhole.Proofs.Time.HttpDate
import Sinkhole.Proofs.Fetch.Backoff
