import PrivacyGuard.Display.Contract
import PrivacyGuard.Display.Controller
import PrivacyGuard.Foundations.Delimited
import PrivacyGuard.Foundations.Transition
import PrivacyGuard.Pipe.Framing
import PrivacyGuard.Pipe.Lifecycle
import PrivacyGuard.Protocol.Frame
import PrivacyGuard.Protocol.Grammar
import PrivacyGuard.State.Recovery
import PrivacyGuard.State.Simulation
import PrivacyGuard.System.Agreement
import PrivacyGuard.System.Link
import PrivacyGuard.Display.Covering
import PrivacyGuard.Display.Decisions
import PrivacyGuard.Display.Persistence
import PrivacyGuard.Display.Scenes
import PrivacyGuard.Foundations.Interleaving
import PrivacyGuard.State.Flags
import PrivacyGuard.State.Independence
import PrivacyGuard.State.Replacement
import PrivacyGuard.Extension.Lifecycle
import PrivacyGuard.Extension.Rules
import PrivacyGuard.Display.Images
import PrivacyGuard.Pipe.Buffering
import PrivacyGuard.Pipe.Representation
import PrivacyGuard.State.Cadence
import PrivacyGuard.Display.Choices
import PrivacyGuard.Display.Release
import PrivacyGuard.Extension.Status
import PrivacyGuard.Foundations.Custody
import PrivacyGuard.Pipe.Listener
import PrivacyGuard.Pipe.Refinement
import PrivacyGuard.Pipe.Stopping
import PrivacyGuard.State.Verdict
import PrivacyGuard.System.Broadcast
import PrivacyGuard.System.Release
import PrivacyGuard.Extension.Reconnection
import PrivacyGuard.System.Deployment
import PrivacyGuard.System.Refresh
import PrivacyGuard.Display.Atomicity
import PrivacyGuard.Display.Progress
import PrivacyGuard.System.Liveness
import PrivacyGuard.System.Outage
import PrivacyGuard.System.Reaction
