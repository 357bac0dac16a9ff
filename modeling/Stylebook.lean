import Stylebook.Desk
import Stylebook.Inspection
import Stylebook.Value.Reader
import Stylebook.Proofs.Node.Meaning
import Stylebook.Proofs.Query.Cycles
import Stylebook.Proofs.Query.Visibility
import Stylebook.Proofs.Registry.Precedence
import Stylebook.Proofs.Selector.Grammar
import Stylebook.Proofs.Query.Rejection
import Stylebook.Proofs.Registry.Frame
import Stylebook.Proofs.Node.Renaming
import Stylebook.Proofs.Registry.Renaming
import Stylebook.Proofs.Registry.Exchange
import Stylebook.Proofs.Query.Renaming
import Stylebook.Proofs.Session.Renaming
import Stylebook.Proofs.Session.Reset
import Stylebook.Proofs.Session.Memory
import Stylebook.Proofs.Session.Exchange
import Stylebook.Proofs.Node.Acceptance
import Stylebook.Proofs.Desk.Drafts
import Stylebook.Proofs.Desk.Handles
import Stylebook.Proofs.Desk.Refusal
import Stylebook.Proofs.Registry.Additive
import Stylebook.Proofs.Query.Recovery
import Stylebook.Proofs.Selector.Nesting
import Stylebook.Proofs.Selector.Separation
import Stylebook.Proofs.Registry.Positions
import Stylebook.Proofs.Query.Fallback
import Stylebook.Proofs.Body.Endings
import Stylebook.Proofs.Dict.Union
import Stylebook.Proofs.Selector.Retention
import Stylebook.Proofs.Declaration.Values
