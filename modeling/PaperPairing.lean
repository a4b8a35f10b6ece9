import PaperPairing.CommandLine
import PaperPairing.Http.Response
import PaperPairing.Main
import PaperPairing.Proofs.Certificate
import PaperPairing.Proofs.ClientId
import PaperPairing.Proofs.Group.Exact
import PaperPairing.Proofs.Http.Overflow
import PaperPairing.Proofs.Identity
import PaperPairing.Proofs.Message.Canonical
import PaperPairing.Proofs.Message.Unordered
import PaperPairing.Proofs.Persistence
import PaperPairing.Proofs.Registration.Binding
import PaperPairing.Proofs.Registration.Chain
import PaperPairing.Proofs.Registration.Challenge
import PaperPairing.Proofs.Registration.Checks
import PaperPairing.Proofs.Registration.Discipline
import PaperPairing.Proofs.Session.Callbacks
import PaperPairing.Proofs.Session.Indifference
import PaperPairing.Proofs.Wrap.Exact
import PaperPairing.Session.Basic
import PaperPairing.Trace
