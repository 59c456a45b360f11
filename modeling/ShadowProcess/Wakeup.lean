import ShadowProcess.Teardown

/-! # Waking a waiter

`process_listenForStatus` leaves the guest blocked until one of the waiter's
listeners fires. No state of the worker strands such a guest: in every
reachable world, at every point where the descriptor layer delivers status
changes, each listener of a waiter not yet notified is in its descriptor's
table with an OFF-to-ON filter, so once its status is set the listener fires.
The callback then notifies the waiter, takes both listeners out of their
tables, and, while the process runs, resumes the waiter's thread.

The one exception is a listener that monitors no status, which
`process_listenForStatus` installs when its caller passes `DS_NONE`: it never
fires, and when it is the waiter's only listener, no run of the worker ever
notifies the waiter or frees the process.
-/

namespace ShadowProcess

set_option autoImplicit false

open World Ledger

/-- A waiter whose notification is not in the trace is armed. -/
theorem Ledger.Inv.armed_of_not_notified {s : World} (h : s.ledger.Inv s.stack) {w : Nat}
    (hw : w < s.nextWaiter) (hNot : .notify w (s.waiters w).thread ∉ s.trace) :
    s.ledger.WaiterOk s.stack w .armed := by
  obtain ⟨p, hp⟩ := h.waiter w hw
  have hEv : s.waiterEvents w = p.events (s.waiters w) w := hp.events
  cases p with
  | armed => exact hp
  | notifying | done =>
    refine absurd (List.mem_of_mem_filter (?_ : _ ∈ s.waiterEvents w)) hNot
    simp [hEv, Phase.events]

/-- Each listener of an armed waiter can fire once its status is set, and the
callback it runs is the waiter's. -/
theorem Ledger.WaiterOk.canFire {s : World} {w : Nat} (hw : s.ledger.WaiterOk s.stack w .armed)
    {l : Nat} (hl : l ∈ (s.waiters w).installed) (hMon : (s.listeners l).monitoring ≠ dsNone) :
    s.canFire l ∧ (s.listeners l).argument = w := by
  obtain ⟨hlt, hArg, d, hAtt, -, -, hFilter⟩ := hw.listener hl
  simp only [ledger_listeners, ledger_nextListener] at hlt hArg hAtt hFilter
  exact ⟨by simp [World.canFire, hlt, hAtt, hFilter, hMon], hArg⟩

/-- In every reachable world where the descriptor layer delivers status changes
(the event loop, or guest code), each listener of a waiter not yet notified
fires once its status is set. The callback succeeds: it notifies the waiter once,
with the waiter's thread; it takes every listener of the waiter out of its
descriptor's table; and while the main thread runs it resumes the waiter's
thread (`thread_resume(thread ? thread : proc->mainThread)`), whose guest code
is then on top of the stack. -/
theorem waiter_wakes {s : World} (hR : Reachable s) (hPoint : s.atEventPoint) {w : Nat}
    (hw : w < s.nextWaiter) (hNot : .notify w (s.waiters w).thread ∉ s.trace) {l : Nat}
    (hl : l ∈ (s.waiters w).installed) (hMon : (s.listeners l).monitoring ≠ dsNone) :
    ∃ s', step s (.fire l) = some (.ok s') ∧
      s'.waiterEvents w = s.waiterEvents w ++ [.notify w (s.waiters w).thread] ∧
      (∀ k ∈ (s.waiters w).installed, (s'.listeners k).attachedTo = none) ∧
      ∀ m, s.proc.mainThread = some m → (s.threads m).running →
        s'.stack.head? = some (.guest ((s.waiters w).thread.getD m)) := by
  have hArmed := (reachable_inv hR).armed_of_not_notified hw hNot
  obtain ⟨s', hStep, hL, X, hEq⟩ := hArmed.fire hl hPoint (hArmed.canFire hl hMon).1
  refine ⟨s', hStep, ?_, fun k hk => ?_, fun m hm hRun => ?_⟩
  · simpa [notify_events] using congrArg (fun L => L.events w) hL
  · have hk' := congrArg (fun L => L.listeners k) hL
    simp only [ledger_listeners] at hk'
    rw [hk', notify_attachedTo _ _ (by simpa using hk)]
  · rw [hEq]
    simp [processContinue, hm, hRun]

/-- The guest arms a timer-only waiter and yields; back in the event loop the
timer fires and the guest is resumed. -/
theorem waiter_wakes_timerOnly :
    ∃ s, Reachable s ∧ s.atEventPoint ∧ 0 < s.nextWaiter ∧
      .notify 0 (s.waiters 0).thread ∉ s.trace ∧ 0 ∈ (s.waiters 0).installed ∧
      (s.listeners 0).monitoring ≠ dsNone ∧
      ∃ s', step s (.fire 0) = some (.ok s') ∧
        s'.waiterEvents 0 = s.waiterEvents 0 ++ [.notify 0 (s.waiters 0).thread] ∧
        (∀ k ∈ (s.waiters 0).installed, (s'.listeners k).attachedTo = none) ∧
        ∀ m, s.proc.mainThread = some m → (s.threads m).running →
          s'.stack.head? = some (.guest ((s.waiters 0).thread.getD m)) := by
  have hR := reachable_run [.schedule 0, .runTask 0 3 4 "", .listen (some 7) none dsReadable,
      .yield, .ret, .ret]
    (@Reachable.boot ⟨"/data"⟩ 1 0 0 .preload "host" (some "app") (some "/bin/app") [] [] _ rfl)
    rfl
  exact ⟨_, hR, rfl, by decide, by decide, by decide, by decide,
    waiter_wakes hR rfl (by decide) (by decide) (by decide) (by decide)⟩

/-! ## A listener that monitors no status

`process_listenForStatus` passes the caller's `status` to the descriptor
listener unchecked. A listener that monitors `DS_NONE` sees no OFF-to-ON edge,
so it never fires; when it is its waiter's only listener (no timeout), nothing
ever takes it out of its table: the waiter is never notified, and the reference
the listener holds keeps the process from being freed.
-/

/-- A listener in a table belongs to an armed waiter, and is live. -/
theorem Ledger.Inv.armed_of_inTable {L : Ledger} {st : List Frame} (h : L.Inv st) {l : Nat}
    (hl : l < L.nextListener) (hAtt : (L.listeners l).attachedTo.isSome) :
    (L.listeners l).argument < L.nextWaiter ∧ L.WaiterOk st (L.listeners l).argument .armed ∧
      (L.listeners l).live := by
  obtain ⟨hw, hMem⟩ := h.owner l hl
  obtain ⟨p, hp⟩ := h.waiter _ hw
  obtain ⟨-, -, d, hOk⟩ := hp.listener hMem
  cases p with
  | armed => exact ⟨hw, hp, hOk.2.2.1⟩
  | notifying | done => simp [hOk.1] at hAtt

/-- `process_listenForStatus` leaves the waiters and the listeners it finds as
they are, and numbers the new ones after them. -/
theorem processListenForStatus_frame (s : World) (thread timer descriptor : Option Nat)
    (status : DescriptorStatus) :
    s.nextWaiter ≤ (processListenForStatus thread timer descriptor status s).nextWaiter ∧
      s.nextListener ≤ (processListenForStatus thread timer descriptor status s).nextListener ∧
      (∀ w < s.nextWaiter,
        (processListenForStatus thread timer descriptor status s).waiters w = s.waiters w) ∧
      ∀ l < s.nextListener,
        (processListenForStatus thread timer descriptor status s).listeners l = s.listeners l := by
  have hL := ledger_processListenForStatus s thread timer descriptor status
  by_cases hNone : (timer.isNone && descriptor.isNone) = true
  · rw [Ledger.listen, if_pos hNone] at hL
    have hW := congrArg Ledger.waiters hL
    have hX := congrArg Ledger.listeners hL
    have hNW := congrArg Ledger.nextWaiter hL
    have hN := congrArg Ledger.nextListener hL
    simp only [ledger_waiters, ledger_listeners, ledger_nextWaiter, ledger_nextListener]
      at hW hX hNW hN
    exact ⟨hNW.ge, hN.ge, fun w _ => by rw [hW], fun l _ => by rw [hX]⟩
  have hA := listen_arms s.ledger thread timer descriptor status (Bool.eq_false_iff.mpr hNone)
  rw [← hL] at hA
  refine ⟨?_, ?_, fun w hw => ?_, fun l hl => by simpa using hA.old l hl⟩
  · have := hA.nextWaiter
    simp only [ledger_nextWaiter] at this
    omega
  · have := hA.nextListener
    simp only [ledger_nextListener] at this
    omega
  · simpa [Function.update_noteq (Nat.ne_of_lt hw)] using congrFun hA.waiters w

theorem World.lt_of_canFire {s : World} {l : Nat} (hCan : s.canFire l) : l < s.nextListener := by
  simp only [canFire, Bool.and_eq_true, decide_eq_true_eq] at hCan
  exact hCan.1.1.1

/-- A step that leaves every waiter and listener as it was, and every callback
frame of `_process_notifyStatusChanged` on the stack. -/
structure World.LeavesWaiters (s s' : World) : Prop where
  waiters : s'.waiters = s.waiters
  listeners : s'.listeners = s.listeners
  nextWaiter : s'.nextWaiter = s.nextWaiter
  nextListener : s'.nextListener = s.nextListener
  frames : ∀ w, s'.stack.count (.notifyReturn w) = s.stack.count (.notifyReturn w)

theorem World.LeavesWaiters.of_ledger {s s' : World} {L : Ledger} (hL : s'.ledger = L)
    (hS : L.waiters = s.waiters ∧ L.listeners = s.listeners ∧ L.nextWaiter = s.nextWaiter ∧
      L.nextListener = s.nextListener)
    (hF : ∀ w, s'.stack.count (.notifyReturn w) = s.stack.count (.notifyReturn w)) :
    s.LeavesWaiters s' := by
  subst hL
  exact ⟨hS.1, hS.2.1, hS.2.2.1, hS.2.2.2, hF⟩

/-- What a step does to the waiters and listeners: nothing; or a listener fires
and its callback takes its waiter's listeners out of their tables, above a new
callback frame; or the guest arms a new waiter; or the callback of a waiter
returns and retires it. -/
theorem step_waiter_cases {s s' : World} {a : Action} (hI : s.ledger.Inv s.stack)
    (hStep : step s a = some (.ok s')) :
    s.LeavesWaiters s' ∨
      (∃ l, a = .fire l ∧ s.canFire l ∧
        s'.ledger = s.ledger.notify (s.listeners l).argument ∧
        (s'.stack = .notifyReturn (s.listeners l).argument :: s.stack ∨
          ∃ t, s'.stack = .guest t :: .continueReturn :: .notifyReturn (s.listeners l).argument ::
            s.stack)) ∨
      (∃ t timer descriptor status, a = .listen timer descriptor status ∧
        s' = processListenForStatus (some t) timer descriptor status s) ∨
      ∃ v rest, a = .ret ∧ s.stack = .notifyReturn v :: rest ∧
        s.ledger.Retires s'.ledger v ∧ s'.stack = rest ∧
        ∀ l ∈ (s.waiters v).installed, (s.listeners l).attachedTo = none := by
  generalize hr : (Except.ok s' : Except String World) = r at hStep
  cases step_eq_some_iff.mp hStep with
  | ownerRef =>
    cases hr
    exact .inl (.of_ledger rfl ⟨rfl, rfl, rfl, rfl⟩ fun _ => rfl)
  | yield t rest hSt | exit t rest _ hSt =>
    cases hr
    exact .inl (.of_ledger rfl ⟨rfl, rfl, rfl, rfl⟩ fun _ => by simp [hSt, List.count_cons])
  | resume =>
    cases hr
    refine .inl (.of_ledger (ledger_processContinue s none) ⟨rfl, rfl, rfl, rfl⟩ fun _ => ?_)
    rcases processContinue_stack s none with hS | ⟨t, hS⟩ <;> simp [hS, List.count_cons]
  | retStart rest hSt =>
    cases hr
    exact .inl (.of_ledger (ledger_processStartReturn _) ⟨rfl, rfl, rfl, rfl⟩
      fun _ => by simp [hSt, List.count_cons])
  | retContinue rest hSt =>
    cases hr
    exact .inl (.of_ledger (ledger_processContinueReturn _) ⟨rfl, rfl, rfl, rfl⟩
      fun _ => by simp [hSt, List.count_cons])
  | schedule now =>
    cases hr
    have hF : (processSchedule now s).listeners = s.listeners ∧
        (processSchedule now s).nextListener = s.nextListener := by
      unfold processSchedule
      dsimp only
      split_ifs <;> exact ⟨rfl, rfl⟩
    obtain ⟨-, -, hNW, hW⟩ := mainView_processSchedule now s
    exact .inl ⟨hW, hF.1, hNW, hF.2, fun _ => by simp⟩
  | ownerUnref hEmpty hO =>
    have hPos : 0 < (s.setOwners (s.owners - 1)).proc.referenceCount := by
      have := hI.refs; simp at this ⊢; omega
    obtain ⟨s1, hOk, hL, hS⟩ := processUnref_of_pos _ hPos
    rw [hOk] at hr
    cases hr
    exact .inl (.of_ledger hL ⟨rfl, rfl, rfl, rfl⟩ fun _ => by rw [hS]; rfl)
  | retTask t rest hSt =>
    obtain ⟨s1, hOk, hL, hS⟩ :=
      processUnref_of_pos (s.setStack rest) (hI.refs_pos (by simp [hSt]))
    rw [hOk] at hr
    cases hr
    exact .inl (.of_ledger hL ⟨rfl, rfl, rfl, rfl⟩ fun _ => by simp [hS, hSt, List.count_cons])
  | runTask i t fdOut fdErr err hEmpty hT =>
    cases hK : t.kind <;> simp only [processRunTask, hK] at hr
    · obtain ⟨hL, hS⟩ := processStart_ok _ hr.symm
      refine .inl (.of_ledger hL ⟨rfl, rfl, rfl, rfl⟩ fun _ => ?_)
      rcases hS with rfl | ⟨u, hS⟩ <;> simp [hEmpty, List.count_cons, *]
    · cases hr
      exact .inl (.of_ledger (ledger_processStop _) ⟨rfl, rfl, rfl, rfl⟩
        fun _ => by simp [hEmpty])
  | fire l hPoint hCan =>
    obtain ⟨s1, hOk, hL, hS⟩ := notify_ledger hI hCan
    rw [hOk] at hr
    cases hr
    exact .inr (.inl ⟨l, rfl, hCan, hL, hS⟩)
  | listen t rest timer descriptor status hSt =>
    cases hr
    exact .inr (.inr (.inl ⟨t, timer, descriptor, status, rfl, rfl⟩))
  | retNotify v rest hSt =>
    obtain ⟨s1, hOk, hRet, hS, hOut⟩ := notifyReturn_ledger hI hSt
    rw [hOk] at hr
    cases hr
    exact .inr (.inr (.inr ⟨v, rest, rfl, hSt, hRet, hS, hOut⟩))

/-- What a step by `a` from `s` to `s'` does to the listeners: no waiter or
listener is renumbered, no waiter changes its listeners, and a listener in a
table stays as it was unless `a` fires a listener of the same waiter. -/
structure World.KeepsAttached (s s' : World) (a : Action) : Prop where
  nextWaiter : s.nextWaiter ≤ s'.nextWaiter
  nextListener : s.nextListener ≤ s'.nextListener
  installed : ∀ w < s.nextWaiter, (s'.waiters w).installed = (s.waiters w).installed
  attached : ∀ l < s.nextListener, (s.listeners l).attachedTo.isSome →
    s'.listeners l = s.listeners l ∨
      ∃ k, a = .fire k ∧ (s.listeners k).argument = (s.listeners l).argument

namespace World.KeepsAttached

variable {s s' : World} {a : Action}

theorem of_leaves (h : s.LeavesWaiters s') : s.KeepsAttached s' a :=
  ⟨h.nextWaiter.ge, h.nextListener.ge, fun w _ => by rw [h.waiters],
    fun l _ _ => .inl (by rw [h.listeners])⟩

/-- The first half of a callback detaches the listeners of the fired one's waiter only. -/
theorem notify (hI : s.ledger.Inv s.stack) {k : Nat} (hk : k < s.nextListener)
    (hL : s'.ledger = s.ledger.notify (s.listeners k).argument) : s.KeepsAttached s' (.fire k) := by
  refine ⟨by simpa using (congrArg Ledger.nextWaiter hL).ge, ?_, fun w _ => ?_, fun l _ _ => ?_⟩
  · simpa using (congrArg Ledger.nextListener hL).ge
  · simpa using congrArg (fun L => (L.waiters w).installed) hL
  · have hEq := congrArg (fun L => L.listeners l) hL
    simp only [ledger_listeners, notify_listeners, ledger_waiters] at hEq
    split_ifs at hEq with hMem
    · obtain ⟨hw, -⟩ := hI.owner k hk
      obtain ⟨p, hp⟩ := hI.waiter _ hw
      exact .inr ⟨k, rfl, (hp.listener hMem).2.1.symm⟩
    · exact .inl hEq

/-- The second half of a callback destroys listeners already out of their tables. -/
theorem retire {w : Nat} (hR : s.ledger.Retires s'.ledger w)
    (hOut : ∀ l ∈ (s.waiters w).installed, (s.listeners l).attachedTo = none) :
    s.KeepsAttached s' a := by
  refine ⟨by simpa using hR.nextWaiter.ge, by simpa using hR.nextListener.ge,
    fun v _ => by simpa using hR.installed v,
    fun l _ hAtt => .inl ?_⟩
  have hEq := hR.listeners l
  simp only [ledger_listeners, ledger_waiters] at hEq
  rw [hEq, if_neg fun hMem => by simp [hOut l hMem] at hAtt]

/-- `process_listenForStatus` adds a waiter and listeners, numbered after the old ones. -/
theorem listen (thread timer descriptor : Option Nat) (status : DescriptorStatus) :
    s.KeepsAttached (processListenForStatus thread timer descriptor status s) a := by
  obtain ⟨hNW, hN, hW, hL⟩ := processListenForStatus_frame s thread timer descriptor status
  exact ⟨hNW, hN, fun w hw => by rw [hW w hw], fun l hl _ => .inl (hL l hl)⟩

end World.KeepsAttached

theorem step_keepsAttached {s s' : World} {a : Action} (hI : s.ledger.Inv s.stack)
    (hStep : step s a = some (.ok s')) : s.KeepsAttached s' a := by
  rcases step_waiter_cases hI hStep with h | ⟨l, rfl, hCan, hL, -⟩ |
    ⟨t, timer, descriptor, status, rfl, rfl⟩ | ⟨v, rest, -, -, hRet, -, hOut⟩
  · exact .of_leaves h
  · exact .notify hI (lt_of_canFire hCan) hL
  · exact .listen _ _ _ _
  · exact .retire hRet hOut

/-- A silent listener that is its waiter's only one: in a table, monitoring no status. -/
structure World.Silent (s : World) (l : Nat) (X : DescriptorListener) : Prop where
  below : l < s.nextListener
  listener : s.listeners l = X
  attached : X.attachedTo.isSome
  monitoring : X.monitoring = dsNone
  sole : (s.waiters X.argument).installed = [l]

theorem World.Silent.step {s s' : World} {a : Action} {l : Nat} {X : DescriptorListener}
    (hI : s.ledger.Inv s.stack) (h : s.Silent l X) (hStep : step s a = some (.ok s')) :
    s'.Silent l X := by
  have hK := step_keepsAttached hI hStep
  have hArg : X.argument < s.nextWaiter := by
    have := (hI.owner l h.below).1
    rwa [ledger_listeners, h.listener] at this
  refine ⟨lt_of_lt_of_le h.below hK.nextListener, ?_, h.attached, h.monitoring,
    (hK.installed _ hArg).trans h.sole⟩
  rcases hK.attached l h.below (h.listener ▸ h.attached) with hEq | ⟨k, rfl, hk⟩
  · exact hEq.trans h.listener
  · exfalso
    have hCan : s.canFire k := by
      generalize hr : (Except.ok s' : Except String World) = r at hStep
      cases step_eq_some_iff.mp hStep with
      | fire _ _ hCan => exact hCan
    have hkl : k = l := by
      have hMem := (hI.owner k (lt_of_canFire hCan)).2
      simp only [ledger_listeners, ledger_waiters, hk, h.listener, h.sole] at hMem
      simpa using hMem
    subst hkl
    simp [canFire, h.listener, h.monitoring] at hCan

theorem World.Silent.run {s s' : World} {l : Nat} {X : DescriptorListener} (hR : Reachable s)
    (h : s.Silent l X) (as : List Action) (hRun : run s as = some (.ok s')) : s'.Silent l X := by
  induction as generalizing s with
  | nil =>
    cases hRun
    exact h
  | cons a as ih =>
    simp only [ShadowProcess.run] at hRun
    split at hRun
    · rename_i s1 hStep
      exact ih (hR.step hStep) (h.step (reachable_inv hR) hStep) hRun
    · rename_i hNot
      exact absurd hRun (hNot s')

/-- A waiter whose only listener monitors no status is never notified, in any
run of the worker: the listener stays in its descriptor's table and never
fires, and the reference it holds keeps the process from `_process_free`. -/
theorem silent_waiter_never_woken {s : World} (hR : Reachable s) {l : Nat}
    (hl : l < s.nextListener) (hAtt : (s.listeners l).attachedTo.isSome)
    (hSilent : (s.listeners l).monitoring = dsNone)
    (hSole : (s.waiters (s.listeners l).argument).installed = [l]) (as : List Action) {s' : World}
    (hRun : run s as = some (.ok s')) :
    s'.listeners l = s.listeners l ∧ s'.canFire l = false ∧
      (∀ t, .notify (s.listeners l).argument t ∉ s'.trace) ∧ .processFree ∉ s'.trace := by
  have h := World.Silent.run hR ⟨hl, rfl, hAtt, hSilent, hSole⟩ as hRun
  have hI := reachable_inv (reachable_run as hR hRun)
  obtain ⟨-, hArmed, hLive⟩ :=
    hI.armed_of_inTable (l := l) h.below (by simpa [h.listener] using hAtt)
  simp only [ledger_listeners, h.listener] at hArmed hLive
  refine ⟨h.listener, by simp [canFire, h.listener, hSilent], fun t hMem => ?_, fun hFree => ?_⟩
  · have hEv : s'.waiterEvents (s.listeners l).argument =
        armEvents (s'.waiters (s.listeners l).argument) (s.listeners l).argument := hArmed.events
    have hIn :
        Event.notify (s.listeners l).argument t ∈ s'.waiterEvents (s.listeners l).argument :=
      List.mem_filter.mpr ⟨hMem, by simp [Event.waiter?]⟩
    simp [hEv, armEvents] at hIn
  · obtain ⟨-, -, hNone, -⟩ := hI.empty_of_freed hFree
    have := liveListeners_pos (L := s'.ledger) h.below (by simpa [h.listener] using hLive)
    omega

/-- The guest waits on descriptor 9 for no status and without a timeout; it
yields, the start task returns and the owner drops its reference: the process
is not freed. -/
theorem silent_waiter_never_woken_dsNone :
    ∃ s s', Reachable s ∧ 0 < s.nextListener ∧ (s.listeners 0).attachedTo.isSome ∧
      (s.listeners 0).monitoring = dsNone ∧ (s.waiters (s.listeners 0).argument).installed = [0] ∧
      run s [.yield, .ret, .ret, .ownerUnref] = some (.ok s') ∧
      s'.listeners 0 = s.listeners 0 ∧ s'.canFire 0 = false ∧
      (∀ t, .notify (s.listeners 0).argument t ∉ s'.trace) ∧ .processFree ∉ s'.trace := by
  have hR := reachable_run [.schedule 0, .runTask 0 3 4 "", .listen none (some 9) dsNone]
    (@Reachable.boot ⟨"/data"⟩ 1 0 0 .preload "host" (some "app") (some "/bin/app") [] [] _ rfl)
    rfl
  exact ⟨_, _, hR, by decide, by decide, by decide, by decide, rfl,
    silent_waiter_never_woken hR (by decide) (by decide) (by decide) (by decide)
      [.yield, .ret, .ret, .ownerUnref] rfl⟩

end ShadowProcess
