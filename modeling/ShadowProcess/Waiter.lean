import ShadowProcess.Process

/-! # Waiters: the composite wait of a blocked guest

`process_listenForStatus` builds a waiter on a timer and/or a descriptor and
attaches one listener to each; `_process_notifyStatusChanged` is the callback of
both. Every read it makes of a waiter field goes through `World.readWaiter`, so
that a read after the waiter was freed shows up in the trace. Like the other
functions that call into guest code, the callback is cut at `process_continue`.
-/

namespace ShadowProcess

set_option autoImplicit false

open World

def processUnrefWaiter (w : Nat) (s : World) : Except String World :=
  let W := s.waiters w
  let W := { W with referenceCount := W.referenceCount - 1 }
  if W.referenceCount < 0 then .error "waiter->referenceCount >= 0"
  else if W.referenceCount = 0 then
    let s := s.setWaiter w W
    let s := match W.thread with | some t => s.threadUnref t (.waiter w) | none => s
    let s := match W.timer with | some d => s.descriptorUnref d w | none => s
    let s := match W.descriptor with | some d => s.descriptorUnref d w | none => s
    .ok ((s.setWaiter w { W with live := false }).log (.waiterFree w))
  else .ok (s.setWaiter w W)

/-- `descriptorlistener_unref` on a listener made by `process.c`. -/
def listenerUnref (l : Nat) (s : World) : Except String World :=
  descriptorListenerUnref processUnref processUnrefWaiter l s

/-- `descriptor_removeListener` on a listener made by `process.c`. -/
def removeListener (d l : Nat) (s : World) : Except String World :=
  descriptorRemoveListener processUnref processUnrefWaiter d l s

/-- One side of `process_listenForStatus`: a listener for waiter `w` monitoring
`status` on descriptor `d`, stored in the waiter by `store`. -/
def processInstallListener (w d : Nat) (status : DescriptorStatus)
    (store : ProcessWaiter → Nat → ProcessWaiter) (s : World) : World :=
  let (l, s) := s.descriptorListenerNew w
  let s := s.setWaiter w (store (s.waiters w) l)
  let s := processRef s
  let s := s.setWaiter w { s.waiters w with referenceCount := (s.waiters w).referenceCount + 1 }
  (s.descriptorListenerSetMonitorStatus l status .offToOn).descriptorAddListener d l

def processListenForStatus (thread timeout descriptor : Option Nat) (status : DescriptorStatus)
    (s : World) : World :=
  if timeout.isNone && descriptor.isNone then s
  else
    let w := s.nextWaiter
    let s := (s.setNextWaiter (w + 1)).setWaiter w
      { thread, timer := timeout, descriptor, live := true }
    let s := match thread with | some t => s.threadRef t (.waiter w) | none => s
    let s := match timeout with | some d => s.descriptorRef d w | none => s
    let s := match descriptor with | some d => s.descriptorRef d w | none => s
    let s := s.log (.waiterNew w)
    let s := match timeout with
      | some d => processInstallListener w d dsReadable
          (fun W l => { W with timerListener := some l }) s
      | none => s
    match descriptor with
    | some d => processInstallListener w d status
        (fun W l => { W with descriptorListener := some l }) s
    | none => s

/-- One side of `_process_notifyStatusChanged` before `process_continue`: when
the descriptor and its listener are both set, the listener leaves the
descriptor's table and stops monitoring. -/
def processDetachListener (descriptor listener : Option Nat) (s : World) : Except String World :=
  match descriptor, listener with
  | some d, some l => do
    let s ← removeListener d l s
    pure (s.descriptorListenerSetMonitorStatus l dsNone .never)
  | _, _ => pure s

/-- One side of `_process_notifyStatusChanged` after `process_continue`: the
listener, if set, is unreferenced. -/
def processReleaseListener (listener : Option Nat) (s : World) : Except String World :=
  match listener with
  | some l => listenerUnref l s
  | none => pure s

/-- `_process_notifyStatusChanged` for waiter `w` up to `process_continue`:
both listeners leave their descriptors before the guest runs again. -/
def processNotifyStatusChanged (w : Nat) (s : World) : Except String World := do
  let (timer, s) := s.readWaiter w .timer
  let (timerListener, s) := s.readWaiter w .timerListener
  let s ← processDetachListener timer timerListener s
  let (descriptor, s) := s.readWaiter w .descriptor
  let (descriptorListener, s) := s.readWaiter w .descriptorListener
  let s ← processDetachListener descriptor descriptorListener s
  let (thread, s) := s.readWaiter w .thread
  pure (processContinue thread ((s.log (.notify w thread)).push (.notifyReturn w)))

/-- `_process_notifyStatusChanged` for waiter `w` after `process_continue`:
"Destroy the listeners, which will also unref and free the waiter." -/
def processNotifyStatusChangedReturn (w : Nat) (s : World) : Except String World := do
  let (timerListener, s) := s.readWaiter w .timerListener
  let s ← processReleaseListener timerListener s
  let (descriptorListener, s) := s.readWaiter w .descriptorListener
  processReleaseListener descriptorListener s

end ShadowProcess
