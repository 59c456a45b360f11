import ShadowProcess.Basic
import Mathlib.Tactic.Simps.Basic
import Mathlib.Logic.Function.Basic

/-! # Objects and the worker state

`struct _Process` and `struct _ProcessWaiter` as the source declares them, the
parts of a thread and of a descriptor listener that `process.c` reads, and the
state of one worker running one process: the heaps of threads, waiters and
listeners, the scheduled tasks, the C call stack and the trace.

Freed waiters and listeners keep their last contents with `live` false, as
freed memory does: a read of such a waiter is what the model flags.
-/

namespace ShadowProcess

set_option autoImplicit false

/-- Modelled from the spec: the part of a `Thread` that `process.c` reads
(`thread_isRunning`, `thread_getReturnCode`). -/
structure Thread where
  running : Bool := false
  returnCode : Int := 0
  deriving DecidableEq, Repr

/-- Modelled from the spec: a `DescriptorListener` made by `process.c`. Every
such listener has `_process_notifyStatusChanged` as callback, the process as
object (freed with `process_unref`) and its waiter `argument` as argument
(freed with `_process_unrefWaiter`); only the argument differs between them.
`attachedTo` is the descriptor whose listener table holds it. -/
structure DescriptorListener where
  argument : Nat := 0
  monitoring : DescriptorStatus := dsNone
  filter : ListenerFilter := .never
  attachedTo : Option Nat := none
  refs : Nat := 0
  live : Bool := false
  deriving DecidableEq, Repr

/-- `struct _ProcessWaiter`, with `live` false once `free(waiter)` ran. -/
structure ProcessWaiter where
  thread : Option Nat := none
  timer : Option Nat := none
  timerListener : Option Nat := none
  descriptor : Option Nat := none
  descriptorListener : Option Nat := none
  referenceCount : Int := 0
  live : Bool := false
  deriving DecidableEq, Repr

def ProcessWaiter.get (W : ProcessWaiter) : WaiterField → Option Nat
  | .thread => W.thread
  | .timer => W.timer
  | .timerListener => W.timerListener
  | .descriptor => W.descriptor
  | .descriptorListener => W.descriptorListener

def ProcessWaiter.installed (W : ProcessWaiter) : List Nat :=
  W.timerListener.toList ++ W.descriptorListener.toList

structure Host where
  dataPath : String
  deriving DecidableEq, Repr

/-- `struct _Process`. The CPU timer and run-time accumulator (floating-point
wall-clock time) and `returnCode` (never written) are left out. -/
structure Process where
  host : Host
  processID : Nat
  processName : String
  interposeMethod : InterposeMethod
  exeName : String
  exePath : String
  isExecuting : Bool
  startTime : SimulationTime
  stopTime : SimulationTime
  argv : List String
  envv : List String
  didLogReturnCode : Bool
  mainThread : Option Nat
  threadIDCounter : Nat
  stderrFD : Int
  stdoutFD : Int
  referenceCount : Int
  deriving DecidableEq, Repr

inductive TaskKind where
  | start
  | stop
  deriving DecidableEq, Repr

/-- A scheduled task: its callback and its absolute deadline. Each holds one
process reference, released when the task is freed. -/
structure Task where
  kind : TaskKind
  deadline : SimulationTime
  deriving DecidableEq, Repr

/-- A suspended C function on the worker's stack, waiting for its callee: the
scheduler in a task's callback (it frees the task afterwards), `_process_start`
after `thread_run`, `process_continue` after `thread_resume`, and
`_process_notifyStatusChanged` of a waiter after `process_continue`; or guest
code of a thread, executing. -/
inductive Frame where
  | task (t : Task)
  | startReturn
  | continueReturn
  | notifyReturn (w : Nat)
  | guest (t : Nat)
  deriving DecidableEq, Repr

/-- One worker running one process. `owners` counts the references held by the
process's owners; `stack` is the C call stack, innermost frame first. -/
structure World where
  proc : Process
  threads : Nat → Thread
  waiters : Nat → ProcessWaiter
  nextWaiter : Nat
  listeners : Nat → DescriptorListener
  nextListener : Nat
  tasks : List Task
  owners : Nat
  stack : List Frame
  activeProcess : Bool
  trace : List Event

namespace World

@[simps]
def log (s : World) (e : Event) : World := { s with trace := s.trace ++ [e] }

@[simps]
def setThread (s : World) (t : Nat) (T : Thread) : World :=
  { s with threads := Function.update s.threads t T }

@[simps]
def setWaiter (s : World) (w : Nat) (W : ProcessWaiter) : World :=
  { s with waiters := Function.update s.waiters w W }

@[simps]
def setListener (s : World) (l : Nat) (L : DescriptorListener) : World :=
  { s with listeners := Function.update s.listeners l L }

@[simps]
def push (s : World) (f : Frame) : World := { s with stack := f :: s.stack }

@[simps]
def setStack (s : World) (stack : List Frame) : World := { s with stack }

@[simps]
def setTasks (s : World) (tasks : List Task) : World := { s with tasks }

@[simps]
def setOwners (s : World) (owners : Nat) : World := { s with owners }

@[simps]
def setNextWaiter (s : World) (n : Nat) : World := { s with nextWaiter := n }

@[simps]
def setNextListener (s : World) (n : Nat) : World := { s with nextListener := n }

@[simps]
def setActiveProcess (s : World) (active : Bool) : World := { s with activeProcess := active }

@[simps]
def setExecuting (s : World) (executing : Bool) : World :=
  { s with proc := { s.proc with isExecuting := executing } }

@[simps]
def setMainThread (s : World) (thread : Option Nat) : World :=
  { s with proc := { s.proc with mainThread := thread } }

@[simps]
def setReferenceCount (s : World) (n : Int) : World :=
  { s with proc := { s.proc with referenceCount := n } }

@[simps]
def setDidLogReturnCode (s : World) : World :=
  { s with proc := { s.proc with didLogReturnCode := true } }

@[simps]
def setThreadIDCounter (s : World) (n : Nat) : World :=
  { s with proc := { s.proc with threadIDCounter := n } }

@[simps]
def setLogFiles (s : World) (stdoutFD stderrFD : Int) : World :=
  { s with proc := { s.proc with stdoutFD, stderrFD } }

/-- `waiter->field`: the stored value, with a read of a freed waiter flagged. -/
def readWaiter (s : World) (w : Nat) (f : WaiterField) : Option Nat × World :=
  ((s.waiters w).get f, if (s.waiters w).live then s else s.log (.useAfterFree w f))

theorem readWaiter_of_live {s : World} {w : Nat} (h : (s.waiters w).live) (f : WaiterField) :
    s.readWaiter w f = ((s.waiters w).get f, s) := by
  simp [readWaiter, h]

end World

end ShadowProcess
