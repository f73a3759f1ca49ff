import Redaction.Main
import Redaction.Proofs.Agreement
import Redaction.Proofs.CutOff
import Redaction.Proofs.Isolation
import Redaction.Proofs.Refusal
import Redaction.Proofs.Hiding
import Redaction.Proofs.Independence
import Redaction.Proofs.Files
import Redaction.Proofs.Opening
import Redaction.Proofs.Resolving
import Redaction.Proofs.Untouched
import Redaction.Proofs.MaskedFile
import Redaction.Proofs.Lockstep
import Redaction.Proofs.Secrecy
import Redaction.Proofs.Spelling
import Redaction.Proofs.Exactness
import Redaction.Proofs.Bounds
import Redaction.Proofs.Tallying
import Redaction.Proofs.Periods
import Redaction.Proofs.Recovery
import Redaction.Proofs.Longest
import Redaction.Proofs.Report
import Redaction.Proofs.Listing
import Redaction.Proofs.Runs
import Redaction.Proofs.Borders
