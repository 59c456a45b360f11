import ShadowProcess.State

/-! # The collaborators `process.c` calls

Modelled from the spec: the thread interface of §4.2 and the descriptor-listener
contract of §6, which live outside `process.c`. A thread call is recorded in the
trace; a listener is a record in the listener heap, and a descriptor's listener
table is the set of listeners whose `attachedTo` names it. The table holds one
reference to each listener in it.
-/

namespace ShadowProcess

set_option autoImplicit false

namespace World

/-- Modelled from the spec: `threadptrace_new` and `threadpreload_new`, a thread
that has not been run yet. -/
def threadNew (s : World) (t : Nat) (method : InterposeMethod) : World :=
  (s.setThread t {}).log (.threadNew t method)

/-- Modelled from the spec: `thread_run` spawns the child; its first burst follows. -/
def threadRun (s : World) (t : Nat) (argv envv : List String) (stderrFD stdoutFD : Int) : World :=
  (s.setThread t { s.threads t with running := true }).log
    (.threadRun t argv envv stderrFD stdoutFD)

/-- Modelled from the spec: `thread_resume`; the burst follows. -/
def threadResume (s : World) (t : Nat) : World := s.log (.threadResume t)

/-- Modelled from the spec: `thread_terminate` force-stops the child. -/
def threadTerminate (s : World) (t : Nat) (site : Site) : World :=
  (s.setThread t { s.threads t with running := false }).log (.threadTerminate t site)

/-- Modelled from the spec: the guest of `t` exits with `code`, ending its burst. -/
def threadExit (s : World) (t : Nat) (code : Int) : World :=
  (s.setThread t { running := false, returnCode := code }).log (.guestExit t code)

def threadRef (s : World) (t : Nat) (site : Site) : World := s.log (.threadRef t site)

def threadUnref (s : World) (t : Nat) (site : Site) : World := s.log (.threadUnref t site)

def descriptorRef (s : World) (d w : Nat) : World := s.log (.descriptorRef d w)

def descriptorUnref (s : World) (d w : Nat) : World := s.log (.descriptorUnref d w)

/-- Modelled from the spec: `descriptorlistener_new` for waiter `w`, holding the
reference it returns. -/
def descriptorListenerNew (s : World) (w : Nat) : Nat × World :=
  (s.nextListener, (s.setNextListener (s.nextListener + 1)).setListener s.nextListener
    { argument := w, refs := 1, live := true })

/-- Modelled from the spec: `descriptorlistener_setMonitorStatus`. -/
def descriptorListenerSetMonitorStatus (s : World) (l : Nat) (status : DescriptorStatus)
    (filter : ListenerFilter) : World :=
  s.setListener l { s.listeners l with monitoring := status, filter }

/-- Modelled from the spec: `descriptor_addListener`; the table takes a reference. -/
def descriptorAddListener (s : World) (d l : Nat) : World :=
  s.setListener l { s.listeners l with attachedTo := some d, refs := (s.listeners l).refs + 1 }

/-- Modelled from the spec: `descriptorlistener_unref`. The last reference
destroys the listener, which frees its object and then its argument with the
functions it was created with, here `objectFree` and `argumentFree`. -/
def descriptorListenerUnref (objectFree : World → Except String World)
    (argumentFree : Nat → World → Except String World) (l : Nat) (s : World) :
    Except String World :=
  let L := s.listeners l
  if L.refs ≤ 1 then do
    let s ← objectFree (s.setListener l { L with refs := 0, live := false })
    argumentFree L.argument s
  else .ok (s.setListener l { L with refs := L.refs - 1 })

/-- Modelled from the spec: `descriptor_removeListener` takes `l` out of the
table of `d`, if it is there, and drops the table's reference. -/
def descriptorRemoveListener (objectFree : World → Except String World)
    (argumentFree : Nat → World → Except String World) (d l : Nat) (s : World) :
    Except String World :=
  if (s.listeners l).attachedTo = some d then
    descriptorListenerUnref objectFree argumentFree l
      (s.setListener l { s.listeners l with attachedTo := none })
  else .ok s

end World

end ShadowProcess
