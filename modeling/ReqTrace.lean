import ReqTrace.Main
import ReqTrace.Proofs.Checkout
import ReqTrace.Proofs.Config
import ReqTrace.Proofs.Converged
import ReqTrace.Proofs.Document.Accepted
import ReqTrace.Proofs.Document.Batches
import ReqTrace.Proofs.Document.Blanked
import ReqTrace.Proofs.Document.Coverers
import ReqTrace.Proofs.Document.LineBreaks
import ReqTrace.Proofs.Document.Matches
import ReqTrace.Proofs.Document.Uniform
import ReqTrace.Proofs.Location.Files
import ReqTrace.Proofs.Location.Spellings
import ReqTrace.Proofs.Overlapping
import ReqTrace.Proofs.Plan.Drifted
import ReqTrace.Proofs.Plan.Grouped
import ReqTrace.Proofs.Plan.Local
import ReqTrace.Proofs.Plan.Minimal
import ReqTrace.Proofs.Reordering
import ReqTrace.Proofs.RequirementId
import ReqTrace.Proofs.Run.Footnotes
import ReqTrace.Proofs.Run.Idempotence
import ReqTrace.Proofs.Run.Validation
import ReqTrace.Proofs.Tag
import ReqTrace.Proofs.Tracked
