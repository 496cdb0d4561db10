import Admission.Proofs.Archive
import Admission.Proofs.Duration.Grammar
import Admission.Proofs.GivenUp
import Admission.Proofs.Isolation
import Admission.Proofs.Omission
import Admission.Proofs.Race.Contention
import Admission.Proofs.Race.Finish
import Admission.Proofs.Race.Window
import Admission.Proofs.Remote.Agreement
import Admission.Proofs.Remote.Credentials
import Admission.Proofs.Reports
import Admission.Proofs.Store.Gliding
import Admission.Proofs.TokenBucket.Exhaustion
import Admission.Proofs.TokenBucket.Pace
import Admission.Proofs.Update.Transcript
import Admission.Proofs.Usable
import Admission.Proofs.Verdict
import Admission.Proofs.Waiting
import Admission.Proofs.Wire
import Admission.Race
import Admission.Service
