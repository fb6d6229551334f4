import FourierSDK.Cpp.Prog
import FourierSDK.Cpp.Range
import FourierSDK.Transition.Run
import FourierSDK.Transition.Execution
import FourierSDK.Transition.Projection
import FourierSDK.Transition.History
import FourierSDK.Monitor.Basic
import FourierSDK.Monitor.Atomic
import FourierSDK.Monitor.Invariant
import FourierSDK.Monitor.Progress
import FourierSDK.Monitor.Starvation
import FourierSDK.Monitor.Several
import FourierSDK.Monitor.Ordered
import FourierSDK.Monitor.OrderedStarvation
import FourierSDK.Ownership.Ledger
import FourierSDK.Ownership.Shared
import FourierSDK.Ownership.Regions
import FourierSDK.Aios.Handlers
import FourierSDK.Aios.Feedback
import FourierSDK.Aios.Command
import FourierSDK.Aios.EntryList
import FourierSDK.Aios.Group
import FourierSDK.GroupFeedback.Basic
import FourierSDK.GroupFeedback.Reading
import FourierSDK.GroupCommand.Basic
import FourierSDK.GroupCommand.Record
import FourierSDK.GroupCommand.FailedType
import FourierSDK.GroupCommand.Sending
import FourierSDK.Group.Basic
import FourierSDK.Group.Registry
import FourierSDK.Group.Copying
import FourierSDK.Group.Dispatch
import FourierSDK.Group.HandlerState
import FourierSDK.Group.Delivery
import FourierSDK.Group.Concurrent
import FourierSDK.Group.Interleaving
import FourierSDK.Group.Linearizable
import FourierSDK.Group.Deadlock
import FourierSDK.Group.Starvation
import FourierSDK.Group.ControlLoop
import FourierSDK.Group.Several
import FourierSDK.Lookup.EntryList
import FourierSDK.Lookup.Decoding
import FourierSDK.Lookup.Buffers
import FourierSDK.Lookup.Traversal
import FourierSDK.Lookup.Factories
import FourierSDK.Lookup.Discovery
import FourierSDK.Ownership.Wrappers
