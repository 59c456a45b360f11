import ShadowProcess.Run

/-! # The process's references

In every reachable world the process's count is the number of its holders:
owners, tasks not yet freed, listeners not yet destroyed. So the assertion in
`process_unref` never fails, and `_process_free` has run exactly when the count
is zero, when nothing holds the process any more.
-/

namespace ShadowProcess

set_option autoImplicit false

open World Ledger

/-- `_process_free` of a process whose main thread runs: the thread is
terminated, then released. -/
theorem processFree_trace_of_running (s : World) {t : Nat} (hMain : s.proc.mainThread = some t)
    (hRunning : (s.threads t).running) :
    ∃ rest, (processFree s).trace =
      s.trace ++ .threadTerminate t .free :: .threadUnref t .free :: rest := by
  simp only [processFree, hMain, hRunning, if_true]
  split_ifs <;> simp [threadTerminate, threadUnref]

/-- The process's count, in every reachable world, is its owners plus its tasks
not yet freed plus its listeners not yet destroyed; `_process_free` has run once
if the count is zero and never otherwise, so never while anything holds the
process; no step aborts except `_process_start` in a start task, so the
assertion of `process_unref` never fails; and `_process_free` terminates a
running main thread before releasing it. -/
theorem process_references {s : World} (hR : Reachable s) :
    s.proc.referenceCount = (s.owners + s.liveTasks + s.liveListeners : Nat) ∧
      s.trace.count .processFree = (if s.proc.referenceCount = 0 then 1 else 0) ∧
      (s.trace.count .processFree = 1 → s.owners = 0 ∧ s.liveTasks = 0 ∧ s.liveListeners = 0) ∧
      (∀ a e, step s a = some (.error e) → ∃ i fdOut fdErr err t, a = .runTask i fdOut fdErr err ∧
        s.tasks[i]? = some t ∧ t.kind = .start ∧
        processStart fdOut fdErr err ((s.setTasks (s.tasks.eraseIdx i)).push (.task t)) = .error e) ∧
      (∀ t, s.proc.mainThread = some t → (s.threads t).running →
        ∃ rest, (processFree s).trace = s.trace ++ .threadTerminate t .free :: .threadUnref t .free :: rest) := by
  have h := reachable_inv hR
  have hRefs : s.proc.referenceCount = (s.owners + s.liveTasks + s.liveListeners : Nat) := by
    rw [show s.proc.referenceCount = s.ledger.refs from rfl, h.refs]
    simp [World.liveTasks, Nat.add_assoc]
    rfl
  refine ⟨hRefs, h.frees, fun hFree => ?_, fun a e hStep => step_spec h hStep,
    fun t hMain hRunning => processFree_trace_of_running s hMain hRunning⟩
  have hZero : s.proc.referenceCount = 0 := by
    by_contra hNe
    have hNone : s.ledger.frees = 0 := by rw [h.frees, ledger_refs, if_neg hNe]
    exact Nat.zero_ne_one (hNone.symm.trans hFree)
  omega

theorem process_references_startRun :
    ∃ s, Reachable s ∧
      s.proc.referenceCount = (s.owners + s.liveTasks + s.liveListeners : Nat) ∧
      s.trace.count .processFree = (if s.proc.referenceCount = 0 then 1 else 0) ∧
      (s.trace.count .processFree = 1 → s.owners = 0 ∧ s.liveTasks = 0 ∧ s.liveListeners = 0) ∧
      (∀ a e, step s a = some (.error e) → ∃ i fdOut fdErr err t, a = .runTask i fdOut fdErr err ∧
        s.tasks[i]? = some t ∧ t.kind = .start ∧
        processStart fdOut fdErr err ((s.setTasks (s.tasks.eraseIdx i)).push (.task t)) = .error e) ∧
      (∀ t, s.proc.mainThread = some t → (s.threads t).running →
        ∃ rest, (processFree s).trace = s.trace ++ .threadTerminate t .free :: .threadUnref t .free :: rest) := by
  have hR := reachable_run startRun
    (@Reachable.boot ⟨"/data"⟩ 1 0 0 .preload "host" (some "app") (some "/bin/app") [] [] _ rfl)
    rfl
  exact ⟨_, hR, process_references hR⟩

end ShadowProcess
