import Wrkflw.Property.EndState
import Wrkflw.Property.Deferred
import Wrkflw.Property.Waiters
import Wrkflw.Property.CallTree
import Wrkflw.Property.TaskStore
import Wrkflw.Property.Strand
import Wrkflw.Property.Commit
import Wrkflw.Property.Coherence
import Wrkflw.Property.Views
import Wrkflw.Property.TaskCache
import Wrkflw.Property.PublicView
import Wrkflw.Property.Failover
import Wrkflw.Property.Recording
import Wrkflw.Property.InputGate
import Wrkflw.Property.WalkOrder
import Wrkflw.Property.RetryBudget
import Wrkflw.Property.DefinitionCache
import Wrkflw.Property.NeverDue
import Wrkflw.Property.Redelivery
import Wrkflw.Property.ErrorRouting
import Wrkflw.Property.CompensationFailures
import Wrkflw.Property.Backoff
import Wrkflw.Property.Redirects
import Wrkflw.Property.Starvation
import Wrkflw.Property.SupersededStarts
import Wrkflw.Property.YamlValidators
import Wrkflw.Property.Bus
import Wrkflw.Property.Listing
import Wrkflw.Property.Drains
import Wrkflw.Property.ActionableView
import Wrkflw.Property.ChildIDs
import Wrkflw.Property.ValidatorCache
import Wrkflw.Property.Wrapping
import Wrkflw.Property.Provenance
import Wrkflw.Property.FreshIDs
import Wrkflw.Property.Publishing
import Wrkflw.Property.Relays
import Wrkflw.Property.Chaining
import Wrkflw.Property.Shutdown
import Wrkflw.Property.WalkState
import Wrkflw.Property.Dedup
