import TvmDebug.Correlation.View
import TvmDebug.Log.Form
import TvmDebug.Main
import TvmDebug.Proofs.Completion
import TvmDebug.Proofs.Correlation.Hover
import TvmDebug.Proofs.Correlation.Libraries
import TvmDebug.Proofs.ExitCode.Chunks
import TvmDebug.Proofs.Json.RoundTrip
import TvmDebug.Proofs.LineIndex
import TvmDebug.Proofs.Log.Locality
import TvmDebug.Proofs.Memo.Histories
import TvmDebug.Proofs.Redelivery
import TvmDebug.Proofs.Renumbering
import TvmDebug.Proofs.Session.Cycling
import TvmDebug.Proofs.Settings.Partial
import TvmDebug.Proofs.Stepper.Direction
import TvmDebug.Proofs.Stepper.Jumps
import TvmDebug.Proofs.Stepper.Marks
import TvmDebug.Proofs.Stepper.Setters
import TvmDebug.Settings.Form
