import QoSFabric.Proof.Engine.Soundness
import QoSFabric.Proof.Store.Compaction
import QoSFabric.Proof.Store.Journal
import QoSFabric.Proof.Codec.Records
import QoSFabric.Proof.Codec.Strict
import QoSFabric.Proof.Registry.Decisions
import QoSFabric.Proof.Registry.Leases
import QoSFabric.Proof.Registry.Supersession
import QoSFabric.Proof.Registry.Snapshots
import QoSFabric.Proof.Registry.Fencing
import QoSFabric.Proof.Registry.Freshness
import QoSFabric.Proof.Registry.Windows
import QoSFabric.Proof.Registry.Refusal
import QoSFabric.Proof.Registry.Pins
import QoSFabric.Proof.Store.Budgets
import QoSFabric.Proof.Store.Loss
import QoSFabric.Proof.Registry.Closing
import QoSFabric.Proof.Registry.Reassertion
import QoSFabric.Proof.Registry.Bystanders
import QoSFabric.Proof.Engine.Permission
import QoSFabric.Proof.Engine.Worsening
import QoSFabric.Proof.Engine.Reordering
import QoSFabric.Proof.Engine.Conclusive
import QoSFabric.Proof.Engine.Backing
import QoSFabric.Proof.Engine.Staleness
import QoSFabric.Proof.Engine.Binding
import QoSFabric.Proof.Engine.Loss
import QoSFabric.Proof.Registry.Recordable
import QoSFabric.Proof.Registry.Retention
import QoSFabric.Proof.Registry.Leaks
import QoSFabric.Proof.Registry.Verdicts
import QoSFabric.Proof.Wire.Framing
import QoSFabric.Proof.Store.Corruption
import QoSFabric.Proof.Store.Verify
import QoSFabric.Proof.Store.Repair
import QoSFabric.Proof.Codec.Hashing
import QoSFabric.Proof.Engine.Explanation
import QoSFabric.Proof.Wire.Messages
import QoSFabric.Proof.Registry.Serving
import QoSFabric.Proof.Registry.Scenario
import QoSFabric.Proof.Engine.Listing
import QoSFabric.Proof.Store.Survival
import QoSFabric.Proof.Store.Orphans
import QoSFabric.Proof.Server.Connection
import QoSFabric.Proof.Publisher.Boot
import QoSFabric.Proof.Publisher.Delivery
import QoSFabric.Proof.Registry.Succession
import QoSFabric.Proof.Registry.Layout
import QoSFabric.Proof.Registry.Commands
import QoSFabric.Proof.Registry.Remembrance
import QoSFabric.Proof.Registry.Reproduction
import QoSFabric.Proof.Store.Tail
import QoSFabric.Proof.Registry.Equivocation
