import ShadowProcess.Basic
import ShadowProcess.State
import ShadowProcess.Collaborators
import ShadowProcess.Process
import ShadowProcess.Schedule
import ShadowProcess.Waiter
import ShadowProcess.Machine
import ShadowProcess.Ledger
import ShadowProcess.WaiterLedger
import ShadowProcess.Invariant
import ShadowProcess.Listen
import ShadowProcess.Notify
import ShadowProcess.Run
import ShadowProcess.References
import ShadowProcess.SingleFire
import ShadowProcess.MainThread
import ShadowProcess.Lifecycle
import ShadowProcess.EventQueue
import ShadowProcess.ActiveProcess
import ShadowProcess.Progress
import ShadowProcess.StateMachine
import ShadowProcess.ThreadIds
import ShadowProcess.Resources
import ShadowProcess.ThreadRefs
import ShadowProcess.Configuration
import ShadowProcess.Teardown
import ShadowProcess.Wakeup
import ShadowProcess.WaiterProtocol
import ShadowProcess.DescriptorRefs
