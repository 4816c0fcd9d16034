import Chainlets.Host.Session
import Chainlets.Proofs.Atomic.Restoring
import Chainlets.Proofs.Json.State
import Chainlets.Proofs.Launch.Charges
import Chainlets.Proofs.Node.Coherence
import Chainlets.Proofs.Node.Integrity
import Chainlets.Proofs.Node.Lanes
import Chainlets.Proofs.Node.Lending
import Chainlets.Proofs.Node.Outbox
import Chainlets.Proofs.Node.Replay
import Chainlets.Proofs.Node.Restart
import Chainlets.Proofs.Node.Retired
import Chainlets.Proofs.Node.Safety
import Chainlets.Proofs.Node.Verdicts
import Chainlets.Proofs.Registry.AutoUpgrade
import Chainlets.Proofs.Rights.NonInterference
import Chainlets.Proofs.SharedHost.Generations
import Chainlets.Proofs.Store.Batch
import Chainlets.Proofs.Store.Variables
import Chainlets.Proofs.Upgrade.Trust
import Chainlets.Proofs.VersionTree.Greatest
import Chainlets.Proofs.VersionTree.History
import Chainlets.Proofs.Version.Compatibility
import Chainlets.Proofs.Launch.Payment
import Chainlets.Proofs.Query.Paging
import Chainlets.Proofs.Upgrade.Outcomes
import Chainlets.Proofs.ChainId.Grammar
import Chainlets.Proofs.Limits
