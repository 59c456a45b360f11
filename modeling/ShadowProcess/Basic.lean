import Mathlib.Data.List.Count
import Mathlib.Algebra.Group.Nat.Basic
import Mathlib.Data.Nat.Defs

/-! # Vocabulary of the process model

Virtual time, the interposition method, descriptor status bits and listener
filters, and the events through which the model records every call that
`process.c` makes into its collaborators (threads, descriptors, the worker's
logger and object counters). A run of the model is judged by this trace.
-/

namespace ShadowProcess

set_option autoImplicit false

abbrev SimulationTime := UInt64

/-- `InterposeMethod`. The C enum can hold values outside the two known ones,
which `_process_start` rejects. -/
inductive InterposeMethod where
  | ptrace
  | preload
  | unknown (value : Int)
  deriving DecidableEq, Repr

abbrev DescriptorStatus := Nat

def dsNone : DescriptorStatus := 0

/-- Modelled from the spec: `DS_READABLE`, the bit a timer raises when it
expires. Its position is not in the source; only that it is a nonzero bit is used. -/
def dsReadable : DescriptorStatus := 2

inductive ListenerFilter where
  | never
  | offToOn
  deriving DecidableEq, Repr

/-- The pointer fields of a `ProcessWaiter` that `_process_notifyStatusChanged`
reads. -/
inductive WaiterField where
  | thread
  | timer
  | timerListener
  | descriptor
  | descriptorListener
  deriving DecidableEq, Repr

/-- Which code made a thread call: the process itself (in `_process_check`,
`process_stop` or `_process_free`) or the waiter `w` (in
`process_listenForStatus` or `_process_unrefWaiter`). -/
inductive Site where
  | check
  | stop
  | free
  | waiter (w : Nat)
  deriving DecidableEq, Repr

inductive LogLevel where
  | message
  | warning
  deriving DecidableEq, Repr

/-- One observable call. Threads, waiters and listeners are named by their
index in the model's heaps; a timer is a descriptor. -/
inductive Event where
  | hostRef
  | hostUnref
  | processNew
  | processFree
  | closeFd (fd : Int)
  | threadNew (t : Nat) (method : InterposeMethod)
  | threadRun (t : Nat) (argv envv : List String) (stderrFD stdoutFD : Int)
  | threadResume (t : Nat)
  /-- The guest code of `t` returned from its burst by exiting with `code`. -/
  | guestExit (t : Nat) (code : Int)
  | threadTerminate (t : Nat) (site : Site)
  | threadRef (t : Nat) (site : Site)
  | threadUnref (t : Nat) (site : Site)
  | descriptorRef (d : Nat) (w : Nat)
  | descriptorUnref (d : Nat) (w : Nat)
  | waiterNew (w : Nat)
  | waiterFree (w : Nat)
  /-- `_process_notifyStatusChanged` ran for `w` and called `process_continue`
  with `thread`. -/
  | notify (w : Nat) (thread : Option Nat)
  /-- A read of `field` of waiter `w` after `w` was freed. -/
  | useAfterFree (w : Nat) (field : WaiterField)
  | log (level : LogLevel) (line : String)
  | pluginError
  deriving DecidableEq, Repr

def Event.waiter? : Event → Option Nat
  | .threadRef _ (.waiter w) | .threadUnref _ (.waiter w) => some w
  | .descriptorRef _ w | .descriptorUnref _ w => some w
  | .waiterNew w | .waiterFree w | .notify w _ | .useAfterFree w _ => some w
  | _ => none

end ShadowProcess
