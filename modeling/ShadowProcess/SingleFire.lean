import ShadowProcess.Run

/-! # A waiter is notified once

Every waiter `process_listenForStatus` built is armed, notifying or done, in
every reachable world: its events are those of its phase, so the callback runs
for it at most once and its references are released once. Only an armed
waiter's listeners can fire; when one does, the first half of the callback
detaches both listeners and calls `process_continue` with the waiter's thread,
and when that returns, the second half destroys the listeners and with them the
waiter. The one flaw is in the second half: a timer-only waiter is freed by the
unref of its timer listener, and the callback then reads its
`descriptorListener`.
-/

namespace ShadowProcess

set_option autoImplicit false

open World Ledger

namespace Ledger

variable {L : Ledger} {st : List Frame} {w : Nat} {p : Phase}

theorem WaiterOk.live_iff (hw : L.WaiterOk st w p) {l : Nat} (hl : l ∈ (L.waiters w).installed) :
    (L.listeners l).live ↔ p ≠ .done := by
  obtain ⟨-, -, d, hOk⟩ := hw.listener hl
  cases p <;> simp_all [Phase.ListenerOk]

/-- The waiter's count is the number of its listeners not yet destroyed. -/
theorem WaiterOk.referenceCount_eq (hw : L.WaiterOk st w p) :
    (L.waiters w).referenceCount =
      ((L.waiters w).installed.filter fun l => (L.listeners l).live).length := by
  rw [hw.refs]
  split_ifs with hp
  · simp [List.filter_eq_nil_iff.mpr fun l hl => by simpa [hp] using hw.live_iff hl]
  · rw [List.filter_eq_self.mpr fun l hl => by simpa [hp] using hw.live_iff hl]

theorem WaiterOk.referenceCount_eq_zero_iff (hw : L.WaiterOk st w p) :
    (L.waiters w).referenceCount = 0 ↔ p = .done := by
  have := List.length_pos.mpr hw.nonempty
  rw [hw.refs]
  split_ifs with hp
  · simp [hp]
  · simp only [hp, iff_false]
    omega

theorem WaiterOk.detached (hw : L.WaiterOk st w p) (hp : p ≠ .armed) {l : Nat}
    (hl : l ∈ (L.waiters w).installed) : (L.listeners l).attachedTo = none := by
  obtain ⟨-, -, d, hOk⟩ := hw.listener hl
  cases p
  · exact absurd rfl hp
  · exact hOk.1
  · exact hOk.1

end Ledger

/-! ## The two halves of the callback -/

theorem notify_attachedTo (L : Ledger) (w : Nat) {k : Nat} (hk : k ∈ (L.waiters w).installed) :
    ((L.notify w).listeners k).attachedTo = none := by
  rw [notify_listeners, if_pos hk]
  rfl

/-- The first half of the callback, run when listener `l` of armed waiter `w`
fires: every listener of `w` leaves its table, the notification is logged with
`waiter->thread`, and `process_continue` is called with that thread. -/
theorem Ledger.WaiterOk.fire {s : World} {w : Nat} (hw : s.ledger.WaiterOk s.stack w .armed)
    {l : Nat} (hl : l ∈ (s.waiters w).installed) (hPoint : s.atEventPoint) (hCan : s.canFire l) :
    ∃ s', step s (.fire l) = some (.ok s') ∧ s'.ledger = s.ledger.notify w ∧
      ∃ X : Nat → DescriptorListener, s' = processContinue (s.waiters w).thread
        (({ s with listeners := X }.log (.notify w (s.waiters w).thread)).push
          (.notifyReturn w)) := by
  have hArg : (s.listeners l).argument = w := by simpa using (hw.listener hl).2.1
  obtain ⟨s', hOk, hL, -, hEq⟩ := processNotifyStatusChanged_of_armed s w
    (by simpa using hw.live) hw.timer.sideArmed hw.descriptor.sideArmed hw.listeners_ne
  exact ⟨s', by simp [step, hPoint, hCan, hArg, hOk], hL, hEq⟩

/-- When the callback of waiter `w` returns, its second half retires the waiter,
whose listeners are already out of their tables. -/
theorem notifyReturn_ledger {s : World} (hI : s.ledger.Inv s.stack) {w : Nat} {rest : List Frame}
    (hSt : s.stack = .notifyReturn w :: rest) :
    ∃ s1, processNotifyStatusChangedReturn w (s.setStack rest) = .ok s1 ∧
      s.ledger.Retires s1.ledger w ∧ s1.stack = rest ∧
      ∀ l ∈ (s.waiters w).installed, (s.listeners l).attachedTo = none := by
  rw [hSt] at hI
  obtain ⟨-, hw⟩ := hI.phase_of_frame (List.mem_cons_self _ _)
  have hRefs := hw.installed_le_refs hI
  obtain ⟨h1, h2⟩ := hw.canRelease hRefs
  obtain ⟨s1, hOk, hL, hS⟩ :=
    processNotifyStatusChangedReturn_of_canRelease (s.setStack rest) w h1 h2
  exact ⟨s1, hOk, hL ▸ notifyReturn_retires hw hRefs, hS,
    fun l hl => hw.detached (by decide) hl⟩

/-- Every waiter `process_listenForStatus` built keeps to its protocol. In every
reachable world there is a phase whose events are exactly the waiter's: the
arming references and creation; then at most one notification, with the thread
`process_continue` resumes; then the release of the three references and the
free, each once. The waiter's count is the number of its live listeners and is
zero exactly when it is done; once notified its listeners are in no
descriptor's table, and only an armed waiter's listener can fire.

When one of its listeners fires, the callback succeeds: it takes every listener
of the waiter out of its table, logs the one notification, and calls
`process_continue(proc, waiter->thread)`, which resumes that thread (the main
thread for `NULL`) while the main thread runs and does nothing otherwise. When
the callback returns, the waiter's count is zero, its listeners are destroyed,
and it has released each reference once and been freed. -/
theorem waiter_notified_once {s : World} (hR : Reachable s) {w : Nat} (hw : w < s.nextWaiter) :
    (∃ p : Phase, s.waiterEvents w = p.events (s.waiters w) w ∧
      (s.waiters w).referenceCount =
        ((s.waiters w).installed.filter fun l => (s.listeners l).live).length ∧
      ((s.waiters w).referenceCount = 0 ↔ p = .done) ∧
      (p ≠ .armed → ∀ l ∈ (s.waiters w).installed, (s.listeners l).attachedTo = none) ∧
      (∀ l ∈ (s.waiters w).installed, s.canFire l → p = .armed)) ∧
    (∀ l ∈ (s.waiters w).installed, s.atEventPoint → s.canFire l →
      ∃ s', step s (.fire l) = some (.ok s') ∧
        (∀ k ∈ (s.waiters w).installed, (s'.listeners k).attachedTo = none) ∧
        (∀ m, s.proc.mainThread = some m → (s.threads m).running →
          s'.trace = s.trace ++ [.notify w (s.waiters w).thread,
            .threadResume ((s.waiters w).thread.getD m)] ∧
          s'.stack = .guest ((s.waiters w).thread.getD m) :: .continueReturn ::
            .notifyReturn w :: s.stack) ∧
        (processIsRunning s = false →
          s'.trace = s.trace ++ [.notify w (s.waiters w).thread] ∧
          s'.stack = .notifyReturn w :: s.stack)) ∧
    ∀ rest, s.stack = .notifyReturn w :: rest →
      ∃ s', step s .ret = some (.ok s') ∧ s'.stack = rest ∧
        (s'.waiters w).referenceCount = 0 ∧ (s'.waiters w).live = false ∧
        (∀ l ∈ (s.waiters w).installed, (s'.listeners l).live = false) ∧
        s'.waiterEvents w =
          s.waiterEvents w ++ releaseEvents (s.waiters w) w ++ staleReads (s.waiters w) w := by
  have hI := reachable_inv hR
  obtain ⟨p, hp⟩ := hI.waiter w hw
  have hFires (l : Nat) (hl : l ∈ (s.waiters w).installed) (hCan : s.canFire l) : p = .armed := by
    by_contra hArmed
    have hNone := hp.detached hArmed hl
    simp only [ledger_listeners] at hNone
    simp [canFire, hNone] at hCan
  refine ⟨⟨p, hp.events, hp.referenceCount_eq, hp.referenceCount_eq_zero_iff,
    fun hArmed l hl => hp.detached hArmed hl, hFires⟩, fun l hl hPoint hCan => ?_,
    fun rest hSt => ?_⟩
  · obtain rfl := hFires l hl hCan
    obtain ⟨s', hStep, hL, X, hEq⟩ := hp.fire hl hPoint hCan
    refine ⟨s', hStep, fun k hk => ?_, fun m hm hRun => ?_, fun hNot => ?_⟩
    · have hk' := congrArg (fun L => L.listeners k) hL
      simp only [ledger_listeners] at hk'
      rw [hk', notify_attachedTo _ _ (by simpa using hk)]
    · rw [hEq]
      simp [processContinue, hm, hRun, threadResume]
    · rw [hEq]
      rcases hMain : s.proc.mainThread with _ | m
      · simp [processContinue, hMain]
      · simp only [processIsRunning, hMain] at hNot
        simp [processContinue, hMain, hNot]
  · obtain ⟨s', hOk, hRet, hS, -⟩ := notifyReturn_ledger hI hSt
    have hW := congrFun hRet.waiters w
    have hE := congrFun hRet.events w
    simp only [ledger_waiters, ledger_events, Function.update_same] at hW hE
    refine ⟨s', by simp [step, hSt, hOk], hS, by rw [hW], by rw [hW], fun l hl => ?_, hE⟩
    have hX := hRet.listeners l
    simp only [ledger_listeners, ledger_waiters] at hX
    rw [hX, if_pos hl]
    rfl

/-- The guest arms a timer-only waiter and yields: back in the event loop, its
timer listener can fire. -/
theorem waiter_notified_once_timerOnly :
    ∃ s, Reachable s ∧ 0 < s.nextWaiter ∧ s.atEventPoint ∧ s.canFire 0 ∧
    (∃ p : Phase, s.waiterEvents 0 = p.events (s.waiters 0) 0 ∧
      (s.waiters 0).referenceCount =
        ((s.waiters 0).installed.filter fun l => (s.listeners l).live).length ∧
      ((s.waiters 0).referenceCount = 0 ↔ p = .done) ∧
      (p ≠ .armed → ∀ l ∈ (s.waiters 0).installed, (s.listeners l).attachedTo = none) ∧
      (∀ l ∈ (s.waiters 0).installed, s.canFire l → p = .armed)) ∧
    (∀ l ∈ (s.waiters 0).installed, s.atEventPoint → s.canFire l →
      ∃ s', step s (.fire l) = some (.ok s') ∧
        (∀ k ∈ (s.waiters 0).installed, (s'.listeners k).attachedTo = none) ∧
        (∀ m, s.proc.mainThread = some m → (s.threads m).running →
          s'.trace = s.trace ++ [.notify 0 (s.waiters 0).thread,
            .threadResume ((s.waiters 0).thread.getD m)] ∧
          s'.stack = .guest ((s.waiters 0).thread.getD m) :: .continueReturn ::
            .notifyReturn 0 :: s.stack) ∧
        (processIsRunning s = false →
          s'.trace = s.trace ++ [.notify 0 (s.waiters 0).thread] ∧
          s'.stack = .notifyReturn 0 :: s.stack)) ∧
    ∀ rest, s.stack = .notifyReturn 0 :: rest →
      ∃ s', step s .ret = some (.ok s') ∧ s'.stack = rest ∧
        (s'.waiters 0).referenceCount = 0 ∧ (s'.waiters 0).live = false ∧
        (∀ l ∈ (s.waiters 0).installed, (s'.listeners l).live = false) ∧
        s'.waiterEvents 0 =
          s.waiterEvents 0 ++ releaseEvents (s.waiters 0) 0 ++ staleReads (s.waiters 0) 0 := by
  have hR := reachable_run [.schedule 0, .runTask 0 3 4 "", .listen (some 7) none dsReadable,
      .yield, .ret, .ret]
    (@Reachable.boot ⟨"/data"⟩ 1 0 0 .preload "host" (some "app") (some "/bin/app") [] [] _ rfl)
    rfl
  exact ⟨_, hR, by decide, rfl, by decide, waiter_notified_once hR (by decide)⟩

/-- The guest arms a timer-only waiter during its first burst; the timer fires
in the event loop and the resumed guest yields. -/
def timerOnlyRun : List Action :=
  [.schedule 0, .runTask 0 3 4 "", .listen (some 7) none dsReadable, .yield, .ret, .ret, .fire 0,
    .yield, .ret, .ret]

/-- Which waiter fields the callback reads after the free: in a reachable
world, waiter `w` has a read of `f` after its free exactly when `f` is
`descriptorListener`, the waiter has no descriptor listener, and it was freed. -/
theorem waiter_read_after_free_iff {s : World} (hR : Reachable s) {w : Nat} (hw : w < s.nextWaiter)
    (f : WaiterField) :
    .useAfterFree w f ∈ s.waiterEvents w ↔
      f = .descriptorListener ∧ (s.waiters w).descriptorListener = none ∧ (s.waiters w).live = false := by
  obtain ⟨p, hp⟩ := (reachable_inv hR).waiter w hw
  rw [show s.waiterEvents w = _ from hp.events]
  have hLive := hp.live
  simp only [ledger_waiters] at hLive
  cases p <;> simp [hLive, Phase.events, armEvents, releaseEvents, staleReads, and_comm]

theorem waiter_read_after_free_iff_timerOnly :
    ∃ s, Reachable s ∧ 0 < s.nextWaiter ∧
      (.useAfterFree 0 .descriptorListener ∈ s.waiterEvents 0 ↔
        WaiterField.descriptorListener = .descriptorListener ∧
          (s.waiters 0).descriptorListener = none ∧ (s.waiters 0).live = false) := by
  have hR := reachable_run timerOnlyRun
    (@Reachable.boot ⟨"/data"⟩ 1 0 0 .preload "host" (some "app") (some "/bin/app") [] [] _ rfl)
    rfl
  exact ⟨_, hR, by decide, waiter_read_after_free_iff hR (by decide) .descriptorListener⟩

/-- `_process_notifyStatusChanged` reads `waiter->descriptorListener` after the
unref of the timer listener freed a timer-only waiter. -/
theorem timerOnly_waiter_read_after_free :
    ∃ s, Reachable s ∧ (s.waiters 0).timer = some 7 ∧ (s.waiters 0).descriptor = none ∧
      (s.waiters 0).live = false ∧ .useAfterFree 0 .descriptorListener ∈ s.waiterEvents 0 :=
  ⟨_, reachable_run timerOnlyRun
    (@Reachable.boot ⟨"/data"⟩ 1 0 0 .preload "host" (some "app") (some "/bin/app") [] [] _ rfl)
    rfl, by decide, by decide, by decide, by decide⟩

end ShadowProcess
