import Gusset.Foundation.Census
import Gusset.Foundation.GoMap
import Gusset.Foundation.Reach
import Gusset.Handle.Shared
import Gusset.Handle.Ledger
import Gusset.Handle.Desk
import Gusset.Handle.Routing
import Gusset.Handle.Permits
import Gusset.Handle.Lifecycle
import Gusset.Handle.Program
import Gusset.Handle.Gates
import Gusset.Handle.Refinement
import Gusset.Handle.Runs
import Gusset.Handle.Guarantees
import Gusset.Foundation.Words
import Gusset.Wire.Codec
import Gusset.Foundation.Modular
import Gusset.Ring.Memory
import Gusset.Ring.Window
import Gusset.Ring.Runs
import Gusset.Ring.Progress
import Gusset.Ring.Queue
import Gusset.Completion.Program
import Gusset.Completion.Moves
import Gusset.Completion.Accounts
import Gusset.Completion.RingView
import Gusset.Wire.Stream
import Gusset.Completion.Stream
import Gusset.Completion.Handshake
import Gusset.Completion.EmptyHanded
import Gusset.Completion.Results
import Gusset.Completion.Conservation
import Gusset.System.Program
import Gusset.System.Moves
import Gusset.System.Tickets
import Gusset.System.Bounds
import Gusset.System.Exhaustion
import Gusset.Queue.Accounts
import Gusset.Queue.Handout
import Gusset.Queue.Wakeups
import Gusset.Workers.Accounts
import Gusset.Workers.Runs
import Gusset.Runtime.Moves
import Gusset.Runtime.Flags
import Gusset.Runtime.Shutdown
import Gusset.Runtime.Cancel
import Gusset.Runtime.Buffers
import Gusset.Handle.Locks
import Gusset.Handle.Ceiling
import Gusset.Handle.Closing
import Gusset.Buffer.Program
import Gusset.Buffer.Runs
import Gusset.Buffer.Crossings
import Gusset.Foundation.Utf8
import Gusset.Logs.Ring
import Gusset.Logs.Runs
import Gusset.Wire.Reader
import Gusset.Alloc.Bounds
import Gusset.Handle.Uncollected
import Gusset.Isolate.Answers
import Gusset.Isolate.Frames
import Gusset.Isolate.Hosting
import Gusset.Isolate.Reading
import Gusset.Isolate.Serve
import Gusset.Isolate.Served
import Gusset.Handle.Errands
import Gusset.Isolate.Cover
import Gusset.Alloc.Once
import Gusset.Buffer.Budget
import Gusset.Buffer.Releases
import Gusset.Descriptor.Joins
import Gusset.Descriptor.Release
import Gusset.Guard.Ages
import Gusset.Guard.Eviction
import Gusset.Writers.Records
import Gusset.Boundary.Carried
import Gusset.Engine.Dispatch
