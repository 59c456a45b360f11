import ShadowProcess.Lifecycle

/-! # Progress and the end of a process

From every reachable world the worker gets back to its event loop: each guest
on the stack yields and each suspended C function returns, innermost first, and
none of these steps aborts, so the assertions of `process_unref` and
`_process_unrefWaiter` hold on the way out. Once `_process_free` has run nothing
can happen to the process any more: no owner holds it, no task or listener is
left, and no call of `process.c` is on the stack.
-/

namespace ShadowProcess

set_option autoImplicit false

open World

/-! ## Unwinding the stack -/

/-- The step that takes frame `f` off the stack: a guest yields, a C function
returns. -/
def Frame.unwind : Frame → Action
  | .guest _ => .yield
  | _ => .ret

/-- The top frame comes off the stack, and the step does not abort. -/
theorem step_unwind {s : World} (h : s.ledger.Inv s.stack) {f : Frame} {rest : List Frame}
    (hSt : s.stack = f :: rest) :
    ∃ s', step s f.unwind = some (.ok s') ∧ s'.stack = rest := by
  cases f with
  | guest t => exact ⟨s.setStack rest, by simp [step, hSt, Frame.unwind], rfl⟩
  | task t =>
    obtain ⟨s', hOk, -, hS⟩ :=
      processUnref_of_pos (s.setStack rest) (h.refs_pos (by simp [hSt]))
    exact ⟨s', by simp [step, hSt, Frame.unwind, hOk], hS⟩
  | startReturn =>
    exact ⟨_, by simp [step, hSt, Frame.unwind], processStartReturn_stack (s.setStack rest)⟩
  | continueReturn =>
    exact ⟨_, by simp [step, hSt, Frame.unwind], processContinueReturn_stack (s.setStack rest)⟩
  | notifyReturn w =>
    obtain ⟨s', hOk, -⟩ := notifyReturn_inv (s := s.setStack rest) (hSt ▸ h)
    exact ⟨s', by simp [step, hSt, Frame.unwind, hOk],
      (freesAtMost_processNotifyStatusChangedReturn _ w hOk).1⟩

theorem run_unwind (st : List Frame) {s : World} (h : s.ledger.Inv s.stack) (hSt : s.stack = st) :
    ∃ s', run s (st.map Frame.unwind) = some (.ok s') ∧ s'.stack = [] := by
  induction st generalizing s with
  | nil => exact ⟨s, rfl, hSt⟩
  | cons f rest ih =>
    obtain ⟨s1, hStep, hS1⟩ := step_unwind h hSt
    obtain ⟨s', hRun, hNil⟩ := ih (step_inv h hStep) hS1
    exact ⟨s', by simp [run, hStep, hRun], hNil⟩

/-- From every reachable world the worker gets back to its event loop, one step
a frame: each guest yields, each suspended C function returns, and none of these
steps aborts. -/
theorem unwinds_to_event_loop {s : World} (hR : Reachable s) :
    ∃ s', run s (s.stack.map Frame.unwind) = some (.ok s') ∧ s'.stack = [] :=
  run_unwind _ (reachable_inv hR) rfl

/-- Inside the start task's first burst: the guest yields, then `_process_start`
and the task return. -/
theorem unwinds_to_event_loop_startTask :
    ∃ s, Reachable s ∧ s.stack.length = 3 ∧
      ∃ s', run s (s.stack.map Frame.unwind) = some (.ok s') ∧ s'.stack = [] := by
  have hR := reachable_run [.schedule 0, .runTask 0 3 4 ""]
    (@Reachable.boot ⟨"/data"⟩ 1 0 0 .preload "host" (some "app") (some "/bin/app") [] [] _ rfl)
    rfl
  exact ⟨_, hR, by decide, unwinds_to_event_loop hR⟩

/-! ## After the free -/

theorem Ledger.Inv.live_of_canFire {s : World} (h : s.ledger.Inv s.stack) {l : Nat}
    (hCan : s.canFire l) : l < s.nextListener ∧ (s.listeners l).live := by
  have hlt : l < s.nextListener := by
    simp only [canFire, Bool.and_eq_true, decide_eq_true_eq] at hCan
    exact hCan.1.1.1
  obtain ⟨-, hArmed⟩ := h.armed_of_canFire hCan
  obtain ⟨-, -, d, -, -, hLive, -⟩ := hArmed.listener (h.owner l hlt).2
  exact ⟨hlt, hLive⟩

/-- A freed process has no holder left and nothing of it is on the stack. -/
theorem Ledger.Inv.empty_of_freed {s : World} (h : s.ledger.Inv s.stack)
    (hFree : .processFree ∈ s.trace) :
    s.owners = 0 ∧ s.tasks = [] ∧ s.ledger.liveListeners = 0 ∧ s.stack = [] := by
  have hRefs : s.proc.referenceCount = 0 := by
    have hPos := List.count_pos_iff.mpr hFree
    have hFrees := h.frees
    simp only [ledger_refs] at hFrees
    by_contra hNe
    rw [if_neg hNe] at hFrees
    exact absurd hFrees (by simpa using Nat.pos_iff_ne_zero.mp hPos)
  have hHolders := h.refs
  simp only [ledger_refs, hRefs, ledger_owners, ledger_queued] at hHolders
  refine ⟨by omega, List.eq_nil_of_length_eq_zero (by omega), by omega, ?_⟩
  by_contra hNe
  have := h.refs_pos hNe
  simp only [ledger_refs, hRefs] at this
  omega

theorem step_eq_none_of_freed {s : World} (h : s.ledger.Inv s.stack)
    (hFree : .processFree ∈ s.trace) (a : Action) : step s a = none := by
  obtain ⟨hO, hT, hL, hSt⟩ := h.empty_of_freed hFree
  rcases hs : step s a with _ | r
  · rfl
  exfalso
  cases step_eq_some_iff.mp hs with
  | ownerRef _ hPos | ownerUnref _ hPos | schedule _ _ hPos | resume _ hPos => omega
  | runTask i t _ _ _ _ hTi => simp [hT] at hTi
  | fire l _ hCan =>
    obtain ⟨hlt, hLive⟩ := h.live_of_canFire hCan
    have := Ledger.liveListeners_pos (L := s.ledger) hlt hLive
    omega
  | listen _ _ _ _ _ hS | yield _ _ hS | exit _ _ _ hS | retTask _ _ hS | retStart _ hS
  | retContinue _ hS | retNotify _ _ hS => simp [hSt] at hS

/-- Once `_process_free` has run, no action of any party is possible: the
owners hold no reference, no task is queued, no listener of the process can
fire, and no call of `process.c` is on the stack. -/
theorem no_step_after_free {s : World} (hR : Reachable s) (hFree : .processFree ∈ s.trace)
    (a : Action) : step s a = none :=
  step_eq_none_of_freed (reachable_inv hR) hFree a

/-- The owner drops its reference to a process it never scheduled. -/
theorem no_step_after_free_dropped :
    ∃ s, Reachable s ∧ .processFree ∈ s.trace ∧ ∀ a, step s a = none := by
  have hR := reachable_run [.ownerUnref]
    (@Reachable.boot ⟨"/data"⟩ 1 0 0 .preload "host" (some "app") (some "/bin/app") [] [] _ rfl)
    rfl
  exact ⟨_, hR, by decide, no_step_after_free hR (by decide)⟩

end ShadowProcess
