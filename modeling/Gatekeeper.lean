import Gatekeeper.Main
import Gatekeeper.Proofs.Layout
import Gatekeeper.Proofs.Keyword
import Gatekeeper.Proofs.Nesting
import Gatekeeper.Proofs.Token
import Gatekeeper.Proofs.Outcome
import Gatekeeper.Proofs.Grammar
import Gatekeeper.Proofs.Description
import Gatekeeper.Proofs.History
import Gatekeeper.Proofs.Transparency
import Gatekeeper.Proofs.Evaluation
import Gatekeeper.Proofs.Composition
import Gatekeeper.Proofs.Refusal
import Gatekeeper.Proofs.Spacing
import Gatekeeper.Proofs.Effect
import Gatekeeper.Proofs.FailClosed
import Gatekeeper.Proofs.Sufficiency
import Gatekeeper.Proofs.Ledger
import Gatekeeper.Proofs.Accounts
import Gatekeeper.Proofs.Ascii
import Gatekeeper.Proofs.JsonText
import Gatekeeper.Proofs.JsonEscape
import Gatekeeper.Proofs.JsonNumber
import Gatekeeper.Proofs.Rounding
import Gatekeeper.Proofs.Shortest
import Gatekeeper.Proofs.JsonDouble
import Gatekeeper.Proofs.JsonShape
import Gatekeeper.Proofs.JsonReading
import Gatekeeper.Proofs.JsonData
import Gatekeeper.Proofs.Loading
import Gatekeeper.Proofs.RoundTrip
import Gatekeeper.Proofs.Interleaving
import Gatekeeper.Proofs.Coherence
import Gatekeeper.Proofs.GateReport
import Gatekeeper.Proofs.Reporting
import Gatekeeper.Proofs.Numeral
import Gatekeeper.Proofs.Completion
import Gatekeeper.Proofs.Splitting
import Gatekeeper.Proofs.Locality
import Gatekeeper.Proofs.Checks
import Gatekeeper.Proofs.Nodes
import Gatekeeper.Proofs.Comparison
import Gatekeeper.Proofs.Duality
import Gatekeeper.Proofs.Questions
import Gatekeeper.Proofs.Polarity
import Gatekeeper.Proofs.Nearest
import Gatekeeper.Proofs.Exactness
import Gatekeeper.Proofs.Scanning
import Gatekeeper.Proofs.Reserved
import Gatekeeper.Proofs.Assigned
import Gatekeeper.Proofs.Reload
