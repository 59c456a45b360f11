import ShadowProcess.Wakeup

/-! # The protocol of one waiter

`process_listenForStatus` arms a waiter. The first of its listeners to fire runs
`_process_notifyStatusChanged`, which takes both listeners out of their tables
and calls `process_continue`; when that returns, the callback destroys the
listeners and with them the waiter. `WaiterMove` is this protocol as a machine
of three states whose moves are labelled by the worker's actions. Every step of
the worker moves every waiter by one move of the machine: a waiter is notified
only when one of its own listeners fires, and done only when its own callback
returns, so no action of another waiter, of the owners or of the guest touches
its phase.
-/

namespace ShadowProcess

set_option autoImplicit false

open World Ledger

/-- The moves of waiter `w` in world `s`: any action may leave its phase alone;
the firing of one of its listeners notifies it while armed; the return of its
callback, on top of the stack, retires it while notifying. -/
inductive WaiterMove (s : World) (w : Nat) : Action → Phase → Phase → Prop
  | stay (a : Action) (p : Phase) : WaiterMove s w a p p
  | fire {l : Nat} : l ∈ (s.waiters w).installed → WaiterMove s w (.fire l) .armed .notifying
  | ret {rest : List Frame} : s.stack = .notifyReturn w :: rest →
      WaiterMove s w .ret .notifying .done

/-- A waiter's phase is fixed by whether it is live and whether its callback is
on the stack. -/
theorem Ledger.WaiterOk.phase_eq {L L' : Ledger} {st st' : List Frame} {w : Nat}
    {p p' : Phase} (h : L.WaiterOk st w p) (h' : L'.WaiterOk st' w p')
    (hLive : (L'.waiters w).live = (L.waiters w).live)
    (hFrames : st'.count (.notifyReturn w) = st.count (.notifyReturn w)) : p' = p := by
  have h1 := h.live
  have h2 := h'.live
  have h3 := h.frames
  have h4 := h'.frames
  cases p <;> cases p' <;> simp_all

section Step

variable {s s' : World} {w : Nat} {p p' : Phase} (hI : s.ledger.Inv s.stack)
  (hI' : s'.ledger.Inv s'.stack) (hp : s.ledger.WaiterOk s.stack w p)
  (hp' : s'.ledger.WaiterOk s'.stack w p')
include hp hp'

/-- A step that leaves the waiter's record and its callback frames alone leaves
its phase. -/
theorem WaiterMove.of_same {a : Action} (hLive : (s'.waiters w).live = (s.waiters w).live)
    (hFrames : s'.stack.count (.notifyReturn w) = s.stack.count (.notifyReturn w)) :
    WaiterMove s w a p p' := by
  rw [hp.phase_eq hp' hLive hFrames]
  exact .stay a p

include hI hI' in
/-- A listener fires: an armed waiter whose listener it is becomes notifying;
every other waiter keeps its phase. -/
theorem WaiterMove.of_fire {l : Nat} (hCan : s.canFire l)
    (hL : s'.ledger = s.ledger.notify (s.listeners l).argument)
    (hS : s'.stack = .notifyReturn (s.listeners l).argument :: s.stack ∨
      ∃ t, s'.stack = .guest t :: .continueReturn :: .notifyReturn (s.listeners l).argument ::
        s.stack) :
    WaiterMove s w (.fire l) p p' := by
  have hWaiters : s'.waiters = s.waiters := by simpa using congrArg Ledger.waiters hL
  by_cases hlw : (s.listeners l).argument = w
  · subst hlw
    obtain ⟨-, hArmed⟩ := hI.armed_of_canFire hCan
    obtain rfl := hArmed.phase_eq hp rfl rfl
    have hMem : Frame.notifyReturn (s.listeners l).argument ∈ s'.stack := by
      rcases hS with hS | ⟨t, hS⟩ <;> simp [hS]
    obtain rfl := (hI'.phase_of_frame hMem).2.phase_eq hp' rfl rfl
    exact .fire (hI.owner l (lt_of_canFire hCan)).2
  · refine .of_same hp hp' (by rw [hWaiters]) ?_
    rcases hS with hS | ⟨t, hS⟩ <;> simp [hS, List.count_cons, hlw]

include hI in
/-- The callback of waiter `v` returns: `v` is done; every other waiter keeps
its phase. -/
theorem WaiterMove.of_notifyReturn {v : Nat} {rest : List Frame}
    (hSt : s.stack = .notifyReturn v :: rest) (hR : s.ledger.Retires s'.ledger v)
    (hS : s'.stack = rest) : WaiterMove s w .ret p p' := by
  by_cases hvw : v = w
  · subst hvw
    obtain rfl := (hI.phase_of_frame (by simp [hSt])).2.phase_eq hp rfl rfl
    have hDone := hp'.live
    rw [hR.waiter_self] at hDone
    cases p'
    · simp at hDone
    · simp at hDone
    · exact .ret hSt
  · refine .of_same hp hp' ?_ (by simp [hS, hSt, List.count_cons, hvw])
    have hW := congrArg ProcessWaiter.live (congrFun hR.waiters w)
    simpa [Function.update_noteq (Ne.symm hvw)] using hW

end Step

/-- Each step of the worker moves every waiter by one move of its protocol. -/
theorem step_waiterMove {s s' : World} {a : Action} (hI : s.ledger.Inv s.stack)
    (hI' : s'.ledger.Inv s'.stack) (hStep : step s a = some (.ok s')) {w : Nat}
    (hw : w < s.nextWaiter) {p p' : Phase} (hp : s.ledger.WaiterOk s.stack w p)
    (hp' : s'.ledger.WaiterOk s'.stack w p') :
    WaiterMove s w a p p' := by
  rcases step_waiter_cases hI hStep with h | ⟨l, rfl, hCan, hL, hS⟩ |
    ⟨t, timer, descriptor, status, rfl, rfl⟩ | ⟨v, rest, rfl, hSt, hRet, hS, -⟩
  · exact .of_same hp hp' (by rw [h.waiters]) (h.frames w)
  · exact .of_fire hI hI' hp hp' hCan hL hS
  · exact .of_same hp hp'
      (by rw [(processListenForStatus_frame s _ timer descriptor status).2.2.1 w hw]) (by simp)
  · exact .of_notifyReturn hI hp hp' hSt hRet hS

/-- Every step of the worker moves every waiter by one move of its protocol. A
waiter leaves the armed phase only when one of its own listeners fires, and
then becomes notifying; it leaves the notifying phase only when its own
callback, on top of the stack, returns, and then is done; no other action, of
another waiter, of an owner, of the scheduler or of the guest, changes its
phase. -/
theorem waiter_follows_protocol {s s' : World} {a : Action} (hR : Reachable s)
    (hStep : step s a = some (.ok s')) {w : Nat} (hw : w < s.nextWaiter) :
    ∃ p p', s.waiterEvents w = p.events (s.waiters w) w ∧
      s'.waiterEvents w = p'.events (s'.waiters w) w ∧ WaiterMove s w a p p' := by
  have hI := reachable_inv hR
  have hI' := reachable_inv (hR.step hStep)
  obtain ⟨p, hp⟩ := hI.waiter w hw
  obtain ⟨p', hp'⟩ := hI'.waiter w (lt_of_lt_of_le hw (step_keepsAttached hI hStep).nextWaiter)
  exact ⟨p, p', hp.events, hp'.events, step_waiterMove hI hI' hStep hw hp hp'⟩

/-- The timer of a timer-only waiter fires in the event loop: the waiter moves
from armed to notifying. -/
theorem waiter_follows_protocol_timerOnly :
    ∃ s s', Reachable s ∧ step s (.fire 0) = some (.ok s') ∧ 0 < s.nextWaiter ∧
      ∃ p p', s.waiterEvents 0 = p.events (s.waiters 0) 0 ∧
        s'.waiterEvents 0 = p'.events (s'.waiters 0) 0 ∧ WaiterMove s 0 (.fire 0) p p' := by
  have hR := reachable_run [.schedule 0, .runTask 0 3 4 "", .listen (some 7) none dsReadable,
      .yield, .ret, .ret]
    (@Reachable.boot ⟨"/data"⟩ 1 0 0 .preload "host" (some "app") (some "/bin/app") [] [] _ rfl)
    rfl
  exact ⟨_, _, hR, rfl, by decide, waiter_follows_protocol (a := .fire 0) hR rfl (by decide)⟩

end ShadowProcess
