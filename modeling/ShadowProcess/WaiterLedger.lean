import ShadowProcess.Ledger

/-! # The waiter operations on the ledger

The ledger-level counterpart of each waiter operation of `process.c`, with a
lemma that the C function acts on a world's ledger as its counterpart acts on
the ledger. The counterparts have no trace, no `Except` and no threads: the
reference and waiter invariants are proved on them.
-/

namespace ShadowProcess

set_option autoImplicit false

open World

/-- The references `process_listenForStatus` takes for waiter `w`, then its creation. -/
def armEvents (W : ProcessWaiter) (w : Nat) : List Event :=
  (W.thread.map fun t => Event.threadRef t (.waiter w)).toList ++
    (W.timer.map fun d => Event.descriptorRef d w).toList ++
    (W.descriptor.map fun d => Event.descriptorRef d w).toList ++ [.waiterNew w]

/-- The references `_process_unrefWaiter` releases at zero, then the free. -/
def releaseEvents (W : ProcessWaiter) (w : Nat) : List Event :=
  (W.thread.map fun t => Event.threadUnref t (.waiter w)).toList ++
    (W.timer.map fun d => Event.descriptorUnref d w).toList ++
    (W.descriptor.map fun d => Event.descriptorUnref d w).toList ++ [.waiterFree w]

namespace Ledger

def setWaiter (L : Ledger) (w : Nat) (W : ProcessWaiter) : Ledger :=
  { L with waiters := Function.update L.waiters w W }

def setListener (L : Ledger) (l : Nat) (X : DescriptorListener) : Ledger :=
  { L with listeners := Function.update L.listeners l X }

/-- Append `es` to the events of waiter `w`. -/
def emit (L : Ledger) (w : Nat) (es : List Event) : Ledger :=
  { L with events := Function.update L.events w (L.events w ++ es) }

/-- `process_unref` of a process that holds a reference. -/
def unrefProcess (L : Ledger) : Ledger :=
  { L with refs := L.refs - 1, frees := L.frees + if L.refs = 1 then 1 else 0 }

/-- `_process_unrefWaiter` of a waiter that holds a reference. -/
def unrefWaiter (L : Ledger) (w : Nat) : Ledger :=
  let W := L.waiters w
  if W.referenceCount = 1 then
    (L.setWaiter w { W with referenceCount := 0, live := false }).emit w (releaseEvents W w)
  else L.setWaiter w { W with referenceCount := W.referenceCount - 1 }

/-- The last `descriptorlistener_unref` of listener `l`. -/
def destroyListener (L : Ledger) (l : Nat) : Ledger :=
  let X := L.listeners l
  ((L.setListener l { X with refs := 0, live := false }).unrefProcess).unrefWaiter X.argument

/-- `waiter->field`, flagged after the free. -/
def readWaiter (L : Ledger) (w : Nat) (f : WaiterField) : Ledger :=
  if (L.waiters w).live then L else L.emit w [.useAfterFree w f]

/-- What `_process_notifyStatusChanged` does to one side's listener before
`process_continue`: out of the table, monitoring nothing. -/
def detach (L : Ledger) : Option Nat → Ledger
  | some l => L.setListener l
      { L.listeners l with attachedTo := none, refs := 1, monitoring := dsNone, filter := .never }
  | none => L

/-- What it does to one side's listener after `process_continue`. -/
def release (L : Ledger) : Option Nat → Ledger
  | some l => L.destroyListener l
  | none => L

/-- `_process_notifyStatusChanged` up to `process_continue`. -/
def notify (L : Ledger) (w : Nat) : Ledger :=
  let W := L.waiters w
  ((L.detach W.timerListener).detach W.descriptorListener).emit w [.notify w W.thread]

/-- `_process_notifyStatusChanged` after `process_continue`. -/
def notifyReturn (L : Ledger) (w : Nat) : Ledger :=
  let L := L.readWaiter w .timerListener
  let L := L.release (L.waiters w).timerListener
  let L := L.readWaiter w .descriptorListener
  L.release (L.waiters w).descriptorListener

/-- One side of `process_listenForStatus`: a listener for `w` on `d`, in the
table and holding a process reference, and one more waiter reference. -/
def install (L : Ledger) (w d : Nat) (status : DescriptorStatus)
    (store : ProcessWaiter → Nat → ProcessWaiter) : Ledger :=
  let l := L.nextListener
  let L := { L with nextListener := l + 1 }.setListener l
    { argument := w, monitoring := status, filter := .offToOn, attachedTo := some d, refs := 2,
      live := true }
  let W := store (L.waiters w) l
  { L.setWaiter w { W with referenceCount := W.referenceCount + 1 } with refs := L.refs + 1 }

/-- `process_listenForStatus`. -/
def listen (L : Ledger) (thread timeout descriptor : Option Nat) (status : DescriptorStatus) :
    Ledger :=
  if timeout.isNone && descriptor.isNone then L
  else
    let w := L.nextWaiter
    let W : ProcessWaiter := { thread, timer := timeout, descriptor, live := true }
    let L := ({ L with nextWaiter := w + 1 }.setWaiter w W).emit w (armEvents W w)
    let L := match timeout with
      | some d => L.install w d dsReadable fun W l => { W with timerListener := some l }
      | none => L
    match descriptor with
    | some d => L.install w d status fun W l => { W with descriptorListener := some l }
    | none => L

@[simp] theorem setWaiter_waiters (L : Ledger) (w : Nat) (W : ProcessWaiter) :
    (L.setWaiter w W).waiters = Function.update L.waiters w W := rfl

@[simp] theorem setListener_listeners (L : Ledger) (l : Nat) (X : DescriptorListener) :
    (L.setListener l X).listeners = Function.update L.listeners l X := rfl

@[simp] theorem emit_events (L : Ledger) (w : Nat) (es : List Event) :
    (L.emit w es).events = Function.update L.events w (L.events w ++ es) := rfl

@[simp] theorem emit_emit (L : Ledger) (w : Nat) (a b : List Event) :
    (L.emit w a).emit w b = L.emit w (a ++ b) := by
  simp [emit, List.append_assoc]

@[simp] theorem setWaiter_emit (L : Ledger) (v w : Nat) (W : ProcessWaiter) (es : List Event) :
    (L.emit w es).setWaiter v W = (L.setWaiter v W).emit w es := rfl

@[simp] theorem setWaiter_setWaiter (L : Ledger) (w : Nat) (A B : ProcessWaiter) :
    (L.setWaiter w A).setWaiter w B = L.setWaiter w B := by
  simp [setWaiter]

end Ledger

/-! ## Commuting lemmas -/

@[simp] theorem ok_bind {α β : Type} (a : α) (f : α → Except String β) :
    (Except.ok a >>= f) = f a := rfl

namespace Ledger

@[simp] theorem detach_waiters (L : Ledger) (l? : Option Nat) :
    (L.detach l?).waiters = L.waiters := by
  cases l? <;> rfl

@[simp] theorem detach_events (L : Ledger) (l? : Option Nat) : (L.detach l?).events = L.events := by
  cases l? <;> rfl

@[simp] theorem readWaiter_waiters (L : Ledger) (w : Nat) (f : WaiterField) :
    (L.readWaiter w f).waiters = L.waiters := by
  unfold readWaiter; split <;> rfl

@[simp] theorem readWaiter_listeners (L : Ledger) (w : Nat) (f : WaiterField) :
    (L.readWaiter w f).listeners = L.listeners := by
  unfold readWaiter; split <;> rfl

@[simp] theorem readWaiter_refs (L : Ledger) (w : Nat) (f : WaiterField) :
    (L.readWaiter w f).refs = L.refs := by
  unfold readWaiter; split <;> rfl

/-- Releasing `l?` passes the assertions of `process_unref` and
`_process_unrefWaiter`, and destroys the listener. -/
def CanRelease (L : Ledger) (l? : Option Nat) : Prop :=
  ∀ l, l? = some l → (L.listeners l).refs ≤ 1 ∧ 0 < L.refs ∧
    0 < (L.waiters (L.listeners l).argument).referenceCount

theorem detach_listeners_of_ne {L : Ledger} {l? : Option Nat} {l : Nat}
    (h : ∀ a, l? = some a → a ≠ l) :
    (L.detach l?).listeners l = L.listeners l := by
  rcases l? with _ | a
  · rfl
  · simp [detach, Function.update_noteq (h a rfl).symm]

end Ledger

section Commute

variable (s : World)

@[simp] theorem ledger_refs : s.ledger.refs = s.proc.referenceCount := rfl

@[simp] theorem ledger_waiters : s.ledger.waiters = s.waiters := rfl

@[simp] theorem ledger_listeners : s.ledger.listeners = s.listeners := rfl

@[simp] theorem ledger_events : s.ledger.events = s.waiterEvents := rfl

@[simp] theorem ledger_nextWaiter : s.ledger.nextWaiter = s.nextWaiter := rfl

@[simp] theorem ledger_nextListener : s.ledger.nextListener = s.nextListener := rfl

theorem ledger_log_of_waiter {e : Event} {w : Nat} (h : e.waiter? = some w) :
    (s.log e).ledger = s.ledger.emit w [e] := by
  have hf : e ≠ .processFree := by rintro rfl; cases h
  have hEvents :
      (s.log e).waiterEvents = Function.update s.waiterEvents w (s.waiterEvents w ++ [e]) := by
    funext v
    by_cases hv : v = w
    · subst hv
      simp [waiterEvents_log, h]
    · simp [waiterEvents_log, h, hv, Ne.symm hv]
  have hFrees : (s.log e).trace.count .processFree = s.trace.count .processFree := by
    simp [List.count_append, List.count_cons, hf]
  unfold World.ledger Ledger.emit
  rw [hEvents, hFrees]
  rfl

@[simp] theorem ledger_setWaiter (w : Nat) (W : ProcessWaiter) :
    (s.setWaiter w W).ledger = s.ledger.setWaiter w W := rfl

@[simp] theorem ledger_setListener (l : Nat) (X : DescriptorListener) :
    (s.setListener l X).ledger = s.ledger.setListener l X := rfl

@[simp] theorem ledger_setNextWaiter (n : Nat) :
    (s.setNextWaiter n).ledger = { s.ledger with nextWaiter := n } := rfl

@[simp] theorem ledger_setNextListener (n : Nat) :
    (s.setNextListener n).ledger = { s.ledger with nextListener := n } := rfl

@[simp] theorem ledger_threadRef_waiter (t w : Nat) :
    (s.threadRef t (.waiter w)).ledger = s.ledger.emit w [.threadRef t (.waiter w)] :=
  ledger_log_of_waiter s rfl

@[simp] theorem ledger_threadUnref_waiter (t w : Nat) :
    (s.threadUnref t (.waiter w)).ledger = s.ledger.emit w [.threadUnref t (.waiter w)] :=
  ledger_log_of_waiter s rfl

@[simp] theorem ledger_descriptorRef (d w : Nat) :
    (s.descriptorRef d w).ledger = s.ledger.emit w [.descriptorRef d w] :=
  ledger_log_of_waiter s rfl

@[simp] theorem ledger_descriptorUnref (d w : Nat) :
    (s.descriptorUnref d w).ledger = s.ledger.emit w [.descriptorUnref d w] :=
  ledger_log_of_waiter s rfl

@[simp] theorem ledger_log_waiterNew (w : Nat) :
    (s.log (.waiterNew w)).ledger = s.ledger.emit w [.waiterNew w] :=
  ledger_log_of_waiter s rfl

@[simp] theorem ledger_setReferenceCount (n : Int) :
    (s.setReferenceCount n).ledger = { s.ledger with refs := n } := rfl

theorem ledger_readWaiter (w : Nat) (f : WaiterField) :
    (s.readWaiter w f).2.ledger = s.ledger.readWaiter w f := by
  by_cases hLive : (s.waiters w).live
  · simp [World.readWaiter, Ledger.readWaiter, hLive]
  · simp only [World.readWaiter, Ledger.readWaiter, hLive, ledger_waiters, if_false]
    exact ledger_log_of_waiter s rfl

@[simp] theorem stack_readWaiter (w : Nat) (f : WaiterField) :
    (s.readWaiter w f).2.stack = s.stack := by
  unfold World.readWaiter
  split <;> rfl

@[simp] theorem processFree_stack : (processFree s).stack = s.stack := by
  rcases hMain : s.proc.mainThread with _ | t <;>
    simp only [processFree, hMain, apply_ite World.stack, World.log, threadTerminate, threadUnref,
      World.setMainThread, World.setThread, ite_self]

theorem processUnref_of_pos (h : 0 < s.proc.referenceCount) :
    ∃ s', processUnref s = .ok s' ∧ s'.ledger = s.ledger.unrefProcess ∧
      s'.stack = s.stack := by
  unfold processUnref
  simp only [setReferenceCount_proc_referenceCount, show ¬ s.proc.referenceCount - 1 < 0 by omega,
    if_false]
  split
  · rename_i hOne
    refine ⟨_, rfl, ?_, by simp⟩
    simp [Ledger.unrefProcess, hOne, show s.proc.referenceCount = 1 by omega]
  · rename_i hOne
    refine ⟨_, rfl, ?_, rfl⟩
    simp [Ledger.unrefProcess, show s.proc.referenceCount ≠ 1 by omega]

theorem processUnrefWaiter_of_pos (w : Nat) (h : 0 < (s.waiters w).referenceCount) :
    ∃ s', processUnrefWaiter w s = .ok s' ∧ s'.ledger = s.ledger.unrefWaiter w ∧
      s'.stack = s.stack := by
  unfold processUnrefWaiter
  simp only [show ¬ (s.waiters w).referenceCount - 1 < 0 by omega, if_false]
  split
  · rename_i hZero
    have hOne : (s.waiters w).referenceCount = 1 := by omega
    refine ⟨_, rfl, ?_, ?_⟩
    · rcases hT : (s.waiters w).thread <;> rcases hTm : (s.waiters w).timer <;>
        rcases hD : (s.waiters w).descriptor <;>
        simp [Ledger.unrefWaiter, releaseEvents, hT, hTm, hD, hOne, threadUnref, descriptorUnref,
          ledger_log_of_waiter, Event.waiter?]
    · rcases (s.waiters w).thread <;> rcases (s.waiters w).timer <;>
        rcases (s.waiters w).descriptor <;> simp [threadUnref, descriptorUnref]
  · rename_i hZero
    refine ⟨_, rfl, ?_, rfl⟩
    simp [Ledger.unrefWaiter, show (s.waiters w).referenceCount ≠ 1 by omega]

@[simp] theorem setListener_setListener (l : Nat) (A B : DescriptorListener) :
    (s.setListener l A).setListener l B = s.setListener l B := by
  simp [World.setListener]

theorem listenerUnref_of_last (l : Nat) (hRefs : (s.listeners l).refs ≤ 1)
    (hProc : 0 < s.proc.referenceCount)
    (hWaiter : 0 < (s.waiters (s.listeners l).argument).referenceCount) :
    ∃ s', listenerUnref l s = .ok s' ∧ s'.ledger = s.ledger.destroyListener l ∧
      s'.stack = s.stack := by
  obtain ⟨s1, h1, hL1, hS1⟩ :=
    processUnref_of_pos (s.setListener l { s.listeners l with refs := 0, live := false }) hProc
  have hW1 : s1.waiters = s.waiters := by
    simpa [Ledger.unrefProcess] using congrArg Ledger.waiters hL1
  obtain ⟨s2, h2, hL2, hS2⟩ := processUnrefWaiter_of_pos s1 (s.listeners l).argument
    (by rw [hW1]; exact hWaiter)
  refine ⟨s2, ?_, by rw [hL2, hL1]; rfl, by rw [hS2, hS1]; rfl⟩
  simp only [listenerUnref, descriptorListenerUnref, hRefs, if_true, h1]
  exact h2

theorem listenerUnref_of_shared (l : Nat) (hRefs : 1 < (s.listeners l).refs) :
    listenerUnref l s =
      .ok (s.setListener l { s.listeners l with refs := (s.listeners l).refs - 1 }) := by
  simp [listenerUnref, descriptorListenerUnref, show ¬ (s.listeners l).refs ≤ 1 by omega]

theorem removeListener_of_attached {d l : Nat} (hAtt : (s.listeners l).attachedTo = some d)
    (hRefs : (s.listeners l).refs = 2) :
    removeListener d l s =
      .ok (s.setListener l { s.listeners l with attachedTo := none, refs := 1 }) := by
  simp only [removeListener, descriptorRemoveListener, hAtt, if_true]
  rw [show descriptorListenerUnref processUnref processUnrefWaiter = listenerUnref from rfl,
    listenerUnref_of_shared _ l (by simp [hRefs])]
  simp [hRefs]

/-- A side whose descriptor and listener are both set or both unset, and whose
listener is in the descriptor's table with the table's reference and its own. -/
def SideArmed (listeners : Nat → DescriptorListener) (d? l? : Option Nat) : Prop :=
  d?.isSome = l?.isSome ∧
    ∀ d l, d? = some d → l? = some l → (listeners l).attachedTo = some d ∧ (listeners l).refs = 2

/-- An armed side is detached by changing its listener alone. -/
theorem processDetachListener_of_armed {d? l? : Option Nat} (h : SideArmed s.listeners d? l?) :
    ∃ s', processDetachListener d? l? s = .ok s' ∧ s'.ledger = s.ledger.detach l? ∧
      s' = { s with listeners := s'.listeners } := by
  obtain ⟨hSome, hAtt⟩ := h
  rcases d? with _ | d <;> rcases l? with _ | l
  · exact ⟨s, rfl, rfl, rfl⟩
  · cases hSome
  · cases hSome
  · obtain ⟨hA, hR⟩ := hAtt d l rfl rfl
    refine ⟨descriptorListenerSetMonitorStatus
      (s.setListener l { s.listeners l with attachedTo := none, refs := 1 }) l dsNone .never,
      ?_, ?_, rfl⟩
    · simp only [processDetachListener, removeListener_of_attached s hA hR]
      rfl
    · simp [Ledger.detach, descriptorListenerSetMonitorStatus]

theorem processReleaseListener_of_last {l? : Option Nat} (h : s.ledger.CanRelease l?) :
    ∃ s', processReleaseListener l? s = .ok s' ∧ s'.ledger = s.ledger.release l? ∧
      s'.stack = s.stack := by
  rcases l? with _ | l
  · exact ⟨s, rfl, rfl, rfl⟩
  · obtain ⟨hR, hP, hW⟩ := h l rfl
    exact listenerUnref_of_last s l hR hP hW

theorem sideArmed_detach {L : Ledger} {d? l? k? : Option Nat} (h : SideArmed L.listeners d? l?)
    (hNe : ∀ a b, k? = some a → l? = some b → a ≠ b) :
    SideArmed (L.detach k?).listeners d? l? := by
  refine ⟨h.1, fun d l hd hl => ?_⟩
  rw [Ledger.detach_listeners_of_ne (fun a ha => hNe a l ha hl)]
  exact h.2 d l hd hl

/-- The first half of the callback on an armed waiter: both listeners leave
their descriptors, which changes listeners only, and `process_continue` resumes
the waiter's thread above the `notifyReturn` frame. -/
theorem processNotifyStatusChanged_of_armed (w : Nat) (hLive : (s.waiters w).live)
    (hTimer : SideArmed s.listeners (s.waiters w).timer (s.waiters w).timerListener)
    (hDescriptor : SideArmed s.listeners (s.waiters w).descriptor (s.waiters w).descriptorListener)
    (hDistinct : ∀ a b, (s.waiters w).timerListener = some a →
      (s.waiters w).descriptorListener = some b → a ≠ b) :
    ∃ s', processNotifyStatusChanged w s = .ok s' ∧ s'.ledger = s.ledger.notify w ∧
      (s'.stack = .notifyReturn w :: s.stack ∨
        ∃ t, s'.stack = .guest t :: .continueReturn :: .notifyReturn w :: s.stack) ∧
      ∃ X : Nat → DescriptorListener, s' = processContinue (s.waiters w).thread
        (({ s with listeners := X }.log (.notify w (s.waiters w).thread)).push
          (.notifyReturn w)) := by
  obtain ⟨s1, h1, hL1, hS1⟩ := processDetachListener_of_armed s hTimer
  have hW1 : s1.waiters = s.waiters := by rw [hS1]
  have hD1 :
      SideArmed s1.listeners (s1.waiters w).descriptor (s1.waiters w).descriptorListener := by
    have hList := congrArg Ledger.listeners hL1
    simp only [ledger_listeners] at hList
    rw [hList, hW1]
    exact sideArmed_detach hDescriptor hDistinct
  obtain ⟨s2, h2, hL2, hS2⟩ := processDetachListener_of_armed s1 hD1
  have hW2 : s2.waiters = s.waiters := by rw [hS2, hS1]
  have hLive1 : (s1.waiters w).live := by rw [hW1]; exact hLive
  have hLive2 : (s2.waiters w).live := by rw [hW2]; exact hLive
  refine ⟨processContinue (s.waiters w).thread
    ((s2.log (.notify w (s.waiters w).thread)).push (.notifyReturn w)), ?_, ?_, ?_,
    s2.listeners, by rw [hS2, hS1]⟩
  · rw [hW1] at h2
    simp only [processNotifyStatusChanged, readWaiter_of_live hLive, ProcessWaiter.get, h1,
      ok_bind, readWaiter_of_live hLive1, hW1, h2, readWaiter_of_live hLive2, hW2]
    rfl
  · rw [ledger_processContinue, ledger_push,
      ledger_log_of_waiter _ (e := .notify w (s.waiters w).thread) (w := w) rfl, hL2, hL1]
    simp [Ledger.notify, hW1]
  · have hS : s2.stack = s.stack := by rw [hS2, hS1]
    rcases processContinue_stack ((s2.log (.notify w (s.waiters w).thread)).push (.notifyReturn w))
      (s.waiters w).thread with h | ⟨t, h⟩
    · exact .inl (by rw [h]; simp [hS])
    · exact .inr ⟨t, by rw [h]; simp [hS]⟩

theorem readWaiter_release (w : Nat) (f : WaiterField)
    (h : (s.ledger.readWaiter w f).CanRelease ((s.waiters w).get f)) :
    ∃ s', processReleaseListener (s.readWaiter w f).1 (s.readWaiter w f).2 = .ok s' ∧
      s'.ledger = (s.ledger.readWaiter w f).release ((s.waiters w).get f) ∧
        s'.stack = s.stack := by
  rw [← ledger_readWaiter] at h ⊢
  rw [← stack_readWaiter s w f]
  exact processReleaseListener_of_last _ h

theorem processNotifyStatusChangedReturn_of_canRelease (w : Nat)
    (h1 : (s.ledger.readWaiter w .timerListener).CanRelease (s.waiters w).timerListener)
    (h2 : let L := (s.ledger.readWaiter w .timerListener).release (s.waiters w).timerListener
      (L.readWaiter w .descriptorListener).CanRelease (L.waiters w).descriptorListener) :
    ∃ s', processNotifyStatusChangedReturn w s = .ok s' ∧
      s'.ledger = s.ledger.notifyReturn w ∧ s'.stack = s.stack := by
  obtain ⟨s1, e1, hL1, hS1⟩ := readWaiter_release s w .timerListener h1
  have hW1 : s1.waiters = ((s.ledger.readWaiter w .timerListener).release
      (s.waiters w).timerListener).waiters := by
    rw [← ledger_waiters, hL1]; rfl
  obtain ⟨s2, e2, hL2, hS2⟩ := readWaiter_release s1 w .descriptorListener (by
    simpa only [hL1, ProcessWaiter.get, hW1] using h2)
  refine ⟨s2, ?_, ?_, by rw [hS2, hS1]⟩
  · show (processReleaseListener (s.readWaiter w .timerListener).1
      (s.readWaiter w .timerListener).2 >>= fun s1 =>
        processReleaseListener (s1.readWaiter w .descriptorListener).1
          (s1.readWaiter w .descriptorListener).2) = _
    rw [e1]
    exact e2
  · rw [hL2, hL1]
    simp only [Ledger.notifyReturn, ProcessWaiter.get, hW1, Ledger.readWaiter_waiters,
      ledger_waiters]

theorem ledger_processInstallListener (w d : Nat) (status : DescriptorStatus)
    (store : ProcessWaiter → Nat → ProcessWaiter) :
    (processInstallListener w d status store s).ledger = s.ledger.install w d status store := by
  simp only [processInstallListener, descriptorListenerNew, descriptorAddListener,
    descriptorListenerSetMonitorStatus, ledger_setListener, ledger_setWaiter, ledger_processRef,
    ledger_setNextListener]
  simp [Ledger.install, Ledger.setListener, Ledger.setWaiter, processRef]

@[simp] theorem stack_processInstallListener (w d : Nat) (status : DescriptorStatus)
    (store : ProcessWaiter → Nat → ProcessWaiter) :
    (processInstallListener w d status store s).stack = s.stack := rfl

theorem ledger_processListenForStatus (thread timeout descriptor : Option Nat)
    (status : DescriptorStatus) :
    (processListenForStatus thread timeout descriptor status s).ledger =
      s.ledger.listen thread timeout descriptor status := by
  rcases timeout with _ | a <;> rcases descriptor with _ | b
  · rfl
  all_goals rcases thread with _ | t <;>
    simp [processListenForStatus, Ledger.listen, armEvents, ledger_processInstallListener]

@[simp] theorem stack_processListenForStatus (thread timeout descriptor : Option Nat)
    (status : DescriptorStatus) :
    (processListenForStatus thread timeout descriptor status s).stack = s.stack := by
  rcases timeout with _ | a <;> rcases descriptor with _ | b
  · rfl
  all_goals rcases thread with _ | t <;> simp [processListenForStatus, threadRef, descriptorRef]

end Commute

end ShadowProcess
