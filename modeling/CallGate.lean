import CallGate.Proofs.ArrayGrammar
import CallGate.Proofs.Buffering
import CallGate.Proofs.Bypass
import CallGate.Proofs.ChannelTrace
import CallGate.Proofs.Cleanup
import CallGate.Proofs.Complaint
import CallGate.Proofs.Declarations
import CallGate.Proofs.Grants
import CallGate.Proofs.Infrastructure
import CallGate.Proofs.Memo
import CallGate.Proofs.Paths
import CallGate.Proofs.Profile
import CallGate.Proofs.Spans
import CallGate.Proofs.TagSpelling
import CallGate.Proofs.Tokens
import CallGate.Proofs.Uniformity
import CallGate.Proofs.Vocabulary
import CallGate.Rehearsal.ContextTrial
import CallGate.Rehearsal.PrincipalTrial
import CallGate.Rehearsal.Session
import CallGate.Settings.Document
import CallGate.Settings.Environment
