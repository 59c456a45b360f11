import ShadowProcess.ThreadIds
import Mathlib.Data.List.Nodup
import Mathlib.Algebra.BigOperators.Group.List
import Mathlib.Algebra.Order.Ring.Nat

/-! # Thread references

`process.c` takes references on threads in two places: `thread_new` gives
`_process_start` the reference it keeps in `proc->mainThread`, and
`process_listenForStatus` takes one for the waiter of a blocked thread. The
process releases its reference in `_process_check`, `process_stop` or
`_process_free`, a waiter in `_process_unrefWaiter`. In every reachable world
each thread has had as many references taken as released, plus one for each
current holder: no reference is released twice and none outlives its holder.

The count is assembled from what is already known of the two kinds of holder:
the main-thread view for the process's references, and the phase of each
waiter for the waiters'.

A waiter's reference keeps its thread alive past a restart: when a listener
armed by the main thread of an earlier start fires, `process_continue` resumes
that thread, which no longer runs and which the process has released.
-/

namespace ShadowProcess

set_option autoImplicit false

open World

namespace Event

/-- `e` takes a reference on thread `t`: the one `thread_new` returns, or a
waiter's `thread_ref`, the only `thread_ref` that `process.c` makes. -/
def acquires (t : Nat) : Event → Bool
  | .threadNew u _ | .threadRef u (.waiter _) => u == t
  | _ => false

/-- `e` is a `thread_unref` of thread `t`. -/
def drops (t : Nat) : Event → Bool
  | .threadUnref u _ => u == t
  | _ => false

/-- Outside the waiters, a reference is taken only by `thread_new`. -/
theorem acquires_and_not_waiter (t : Nat) (e : Event) :
    (e.acquires t && !e.waiter?.isSome) = (e.threadNew? == some t) := by
  cases e with
  | threadRef u site => cases site <;> simp [acquires, threadNew?, waiter?]
  | threadNew u m => simp [acquires, threadNew?, waiter?]
  | _ => rfl

/-- Outside the waiters, a reference is dropped only by the process. -/
theorem drops_and_not_waiter (t : Nat) (e : Event) :
    (e.drops t && !e.waiter?.isSome) = e.releases t := by
  cases e with
  | threadUnref u site => cases site <;> simp [drops, releases, waiter?]
  | _ => rfl

end Event

/-- The holders of a reference on thread `t`: the process while `t` is its main
thread, and each waiter not yet freed that records `t`. -/
def World.threadHolders (s : World) (t : Nat) : Nat :=
  (if s.proc.mainThread = some t then 1 else 0) +
    (List.range s.nextWaiter).countP fun w => (s.waiters w).live && (s.waiters w).thread == some t

/-! ## Counting the waiters' events -/

theorem countP_split {α : Type} (l : List α) (p r : α → Bool) :
    l.countP p = l.countP (fun a => p a && r a) + l.countP (fun a => p a && !r a) := by
  rw [List.countP_eq_countP_filter_add l p r, List.countP_filter, List.countP_filter]

/-- The events of the waiters below `n + 1` are those below `n` and those of `n`. -/
theorem countP_waiter_succ (l : List Event) (q : Event → Bool) (n : Nat) :
    l.countP (fun e => q e && e.waiter?.any (· < n + 1)) =
      l.countP (fun e => q e && e.waiter?.any (· < n)) +
        (l.filter fun e => e.waiter? = some n).countP q := by
  rw [countP_split _ _ fun e => e.waiter?.any (· < n), List.countP_filter]
  congr 1 <;> refine List.countP_congr fun e _ => ?_ <;> rcases e.waiter? with _ | v <;>
    by_cases hq : q e <;> simp [hq] <;> omega

theorem Ledger.Inv.waiter_lt {s : World} (h : s.ledger.Inv s.stack) {e : Event}
    (he : e ∈ s.trace) {w : Nat} (hw : e.waiter? = some w) : w < s.nextWaiter := by
  by_contra hLt
  have hNil := (h.fresh w (Nat.le_of_not_lt hLt)).1
  simp only [ledger_events, waiterEvents] at hNil
  exact List.filter_eq_nil_iff.mp hNil e he (by simp [hw])

/-- Every waiter event of the trace belongs to a waiter already built. -/
theorem Ledger.Inv.countP_isSome {s : World} (h : s.ledger.Inv s.stack) (q : Event → Bool) :
    s.trace.countP (fun e => q e && e.waiter?.isSome) =
      s.trace.countP (fun e => q e && e.waiter?.any (· < s.nextWaiter)) := by
  refine List.countP_congr fun e he => ?_
  rcases hw : e.waiter? with _ | w
  · simp
  · simp [h.waiter_lt he hw]

theorem countP_eq_sum_ite {α : Type} (l : List α) (q : α → Bool) :
    l.countP q = (l.map fun a => if q a then 1 else 0).sum := by
  induction l with
  | nil => rfl
  | cons a l ih => by_cases h : q a <;> simp [List.countP_cons, h, ih, Nat.add_comm]

/-- The balances of the waiters below `n`, for one kind of reference, add up. -/
theorem World.balance_below (s : World) (acq drp : Event → Bool) (held : Nat → Nat) :
    ∀ n, (∀ w < n, (s.waiterEvents w).countP acq = (s.waiterEvents w).countP drp + held w) →
      s.trace.countP (fun e => acq e && e.waiter?.any (· < n)) =
        s.trace.countP (fun e => drp e && e.waiter?.any (· < n)) + ((List.range n).map held).sum
  | 0, _ => by
    have hNone (o : Option Nat) : o.any (fun _ => false) = false := by cases o <;> rfl
    simp [hNone]
  | n + 1, hw => by
    have hn := hw n (Nat.lt_succ_self n)
    simp only [waiterEvents] at hn
    rw [countP_waiter_succ, countP_waiter_succ, List.sum_range_succ,
      World.balance_below s acq drp held n fun v hv => hw v (Nat.lt_succ_of_lt hv), hn]
    omega

/-! ## The waiters' references -/

theorem countP_armEvents (W : ProcessWaiter) (w t : Nat) :
    (armEvents W w).countP (Event.acquires t) = (if W.thread = some t then 1 else 0) ∧
      (armEvents W w).countP (Event.drops t) = 0 := by
  cases W with
  | mk thread timer _ descriptor =>
    rcases thread with _ | u <;> rcases timer <;> rcases descriptor <;>
      simp [armEvents, Event.acquires, Event.drops, List.countP_cons]

theorem countP_releaseEvents (W : ProcessWaiter) (w t : Nat) :
    (releaseEvents W w).countP (Event.acquires t) = 0 ∧
      (releaseEvents W w).countP (Event.drops t) = if W.thread = some t then 1 else 0 := by
  cases W with
  | mk thread timer _ descriptor =>
    rcases thread with _ | u <;> rcases timer <;> rcases descriptor <;>
      simp [releaseEvents, Event.acquires, Event.drops, List.countP_cons]

/-- A waiter's events take as many references of one kind as they drop, plus
the `n` its arming took while it is live. -/
theorem Ledger.WaiterOk.balance {L : Ledger} {st : List Frame} {w : Nat} {p : Phase}
    (h : L.WaiterOk st w p) {acq drp : Event → Bool} {n : Nat}
    (hArm : (armEvents (L.waiters w) w).countP acq = n ∧
      (armEvents (L.waiters w) w).countP drp = 0)
    (hRel : (releaseEvents (L.waiters w) w).countP acq = 0 ∧
      (releaseEvents (L.waiters w) w).countP drp = n)
    (hNotify : acq (.notify w (L.waiters w).thread) = false ∧
      drp (.notify w (L.waiters w).thread) = false)
    (hStale : ∀ f, acq (.useAfterFree w f) = false ∧ drp (.useAfterFree w f) = false) :
    (L.events w).countP acq = (L.events w).countP drp + if (L.waiters w).live then n else 0 := by
  have hS (q : Event → Bool) (hq : ∀ f, q (.useAfterFree w f) = false) :
      (staleReads (L.waiters w) w).countP q = 0 := by
    unfold staleReads
    split <;> simp [hq]
  rw [h.events, h.live]
  cases p <;> simp [Phase.events, hArm, hRel, hNotify, hS acq fun f => (hStale f).1,
    hS drp fun f => (hStale f).2]

/-- A waiter holds a reference on its thread from its creation to its free. -/
theorem Ledger.WaiterOk.thread_balance {L : Ledger} {st : List Frame} {w : Nat} {p : Phase}
    (h : L.WaiterOk st w p) (t : Nat) :
    (L.events w).countP (Event.acquires t) =
      (L.events w).countP (Event.drops t) +
        if (L.waiters w).live && (L.waiters w).thread == some t then 1 else 0 := by
  rw [h.balance (countP_armEvents _ w t) (countP_releaseEvents _ w t) ⟨rfl, rfl⟩
    fun _ => ⟨rfl, rfl⟩]
  cases (L.waiters w).live <;> simp

/-- The waiters below `n` hold as many references on `t` as they took and did
not release. -/
theorem Ledger.Inv.thread_balance_below {s : World} (h : s.ledger.Inv s.stack) (t : Nat)
    (n : Nat) (hn : n ≤ s.nextWaiter) :
    s.trace.countP (fun e => e.acquires t && e.waiter?.any (· < n)) =
      s.trace.countP (fun e => e.drops t && e.waiter?.any (· < n)) +
        (List.range n).countP fun w => (s.waiters w).live && (s.waiters w).thread == some t := by
  rw [countP_eq_sum_ite (List.range n)]
  refine s.balance_below _ _ _ n fun w hw => ?_
  simpa using (h.waiter w (lt_of_lt_of_le hw hn)).choose_spec.thread_balance t

/-! ## The process's references -/

theorem countP_threadNew {s : World} (hT : s.mainView.ThreadsOk) (t : Nat) :
    s.trace.countP (fun e => e.threadNew? == some t) =
      if t < s.proc.threadIDCounter then 1 else 0 := by
  have hMade := hT.made
  rw [mainView_events, filterMap_threadNew_lifecycle, mainView_threadIDCounter] at hMade
  have hCount : s.trace.countP (fun e => e.threadNew? == some t) =
      (s.trace.filterMap Event.threadNew?).count t := by
    rw [List.count, List.countP_filterMap]
    exact List.countP_congr fun e _ => by rcases e.threadNew? <;> simp
  rw [hCount, hMade]
  split_ifs with ht
  · exact List.count_eq_one_of_mem (List.nodup_range _) (List.mem_range.mpr ht)
  · exact List.count_eq_zero_of_not_mem (by simpa using ht)

theorem countP_releases (s : World) (t : Nat) :
    s.trace.countP (Event.releases t) = s.mainView.released t := by
  rw [MainView.released, mainView_events, List.countP_filter]
  exact List.countP_congr fun e _ => by
    cases hr : e.releases t
    · simp
    · simp [Event.isLifecycle_of_releases hr]

/-- The references on `t` balance against its holders, in every world that
satisfies the waiter, main-thread and thread-id invariants. -/
theorem World.thread_balance {s : World} (hI : s.ledger.Inv s.stack)
    (hv : s.mainView.Inv s.stack) (hT : s.mainView.ThreadsOk) (t : Nat) :
    s.trace.countP (Event.acquires t) = s.trace.countP (Event.drops t) + s.threadHolders t := by
  rw [countP_split _ (Event.acquires t) fun e => e.waiter?.isSome,
    countP_split _ (Event.drops t) fun e => e.waiter?.isSome, hI.countP_isSome, hI.countP_isSome,
    hI.thread_balance_below t _ le_rfl]
  simp only [Event.acquires_and_not_waiter, Event.drops_and_not_waiter, countP_threadNew hT,
    countP_releases, hv.released t, mainView_threadIDCounter, mainView_mainThread,
    World.threadHolders]
  have hMain : (if t < s.proc.threadIDCounter then 1 else 0) =
      (if t < s.proc.threadIDCounter ∧ s.proc.mainThread ≠ some t then 1 else 0) +
        if s.proc.mainThread = some t then 1 else 0 := by
    by_cases hm : s.proc.mainThread = some t
    · simpa [hm] using hv.mainBelow t hm
    · simp [hm]
  omega

/-- Every thread has had as many references taken as released, plus one for
each current holder: the process while it is the main thread, and each waiter
not yet freed that records it. So `process.c` never releases a thread reference
it does not hold, and every reference it took is released once its holder is
gone. -/
theorem thread_references {s : World} (hR : Reachable s) (t : Nat) :
    s.trace.countP (Event.acquires t) = s.trace.countP (Event.drops t) + s.threadHolders t :=
  World.thread_balance (reachable_inv hR) (reachable_mainOk hR).view (reachable_threadsOk hR) t

/-- The guest blocks on a timer and exits; the process restarts and its new
guest yields. The first main thread is then held by its waiter alone. -/
def restartWaitRun : List Action :=
  [.schedule 0, .schedule 0, .runTask 0 3 4 "", .listen (some 7) none dsReadable, .exit 0, .ret,
    .ret, .runTask 0 5 6 "", .yield, .ret, .ret]

theorem thread_references_restartWaitRun :
    ∃ s, Reachable s ∧ s.proc.mainThread = some 1 ∧ s.threadHolders 0 = 1 ∧
      s.trace.countP (Event.acquires 0) = s.trace.countP (Event.drops 0) + s.threadHolders 0 := by
  have hR := reachable_run restartWaitRun
    (@Reachable.boot ⟨"/data"⟩ 1 0 0 .preload "host" (some "app") (some "/bin/app") [] [] _ rfl)
    rfl
  exact ⟨_, hR, by decide, by decide, thread_references hR 0⟩

/-! ## Resumed threads are held -/

namespace MainView

variable {v : MainView} {u : Nat}

@[simp] theorem count_resume_logReturnCode (code : Int) :
    (v.logReturnCode code).events.count (.threadResume u) = v.events.count (.threadResume u) := by
  unfold logReturnCode returnCodeEvents
  split_ifs <;> simp [List.count_cons]

theorem count_resume_check :
    v.check.events.count (.threadResume u) = v.events.count (.threadResume u) := by
  unfold check
  split
  · split
    · rfl
    · simp [List.count_cons]
  · rfl

theorem count_resume_stop :
    v.stop.events.count (.threadResume u) = v.events.count (.threadResume u) := by
  unfold stop
  split
  · simp [List.count_cons]
  · rfl

theorem count_resume_free :
    v.free.events.count (.threadResume u) = v.events.count (.threadResume u) := by
  unfold free
  split
  · split <;> simp [List.count_cons]
  · rfl

end MainView

/-- A view step that adds a resume of `u` resumes a thread `resumable` allows. -/
theorem ViewStep.resumable_of_count {resumable : Nat → Prop} {v v' : MainView}
    (hs : ViewStep resumable v v') {u : Nat}
    (hNew : v.events.count (.threadResume u) < v'.events.count (.threadResume u)) :
    resumable u := by
  cases hs with
  | resume ht =>
    rename_i t
    obtain rfl : t = u := by
      by_contra hNe
      simp [List.count_singleton, hNe] at hNew
    exact ht
  | check => exact absurd MainView.count_resume_check hNew.ne'
  | stop => exact absurd MainView.count_resume_stop hNew.ne'
  | free => exact absurd MainView.count_resume_free hNew.ne'
  | _ => simp [List.count_cons] at hNew

theorem World.threadHolders_pos {s : World} {t : Nat} (h : s.Holds t) : 0 < s.threadHolders t := by
  rcases h with hMain | ⟨w, hw, hLive, hT⟩
  · simp only [World.threadHolders, hMain, if_true]
    omega
  · have : 0 < (List.range s.nextWaiter).countP
        fun w => (s.waiters w).live && (s.waiters w).thread == some t :=
      List.countP_pos_iff.mpr ⟨w, List.mem_range.mpr hw, by simp [hLive, hT]⟩
    simp only [World.threadHolders]
    omega

/-- A step that calls `thread_resume` on `u` is one `World.Resumes` allows. -/
theorem resumes_of_count {s s' : World} {a : Action} (hR : Reachable s)
    (hStep : step s a = some (.ok s')) {u : Nat}
    (hNew : s.trace.count (.threadResume u) < s'.trace.count (.threadResume u)) : s.Resumes a u :=
  (step_viewStep (reachable_inv hR) (reachable_mainOk hR) hStep).resumable_of_count
    (by simpa only [mainView_events,
      List.count_filter (rfl : Event.isLifecycle (.threadResume u) = true)] using hNew)

/-- A step resumes only a thread that is held when the step begins: the main
thread, or the thread of the waiter whose listener fired, not yet freed. So the
thread still has a reference that `process.c` took and has not released. -/
theorem resumes_held_thread {s s' : World} {a : Action} (hR : Reachable s)
    (hStep : step s a = some (.ok s')) (u : Nat)
    (hNew : s.trace.count (.threadResume u) < s'.trace.count (.threadResume u)) :
    s.Holds u ∧ s.trace.countP (Event.drops u) < s.trace.countP (Event.acquires u) := by
  have hM := reachable_mainOk hR
  have hHolds : s.Holds u := (resumes_of_count hR hStep hNew).holds
  have hPos := World.threadHolders_pos hHolds
  rw [World.thread_balance (reachable_inv hR) hM.view (reachable_threadsOk hR) u]
  exact ⟨hHolds, by omega⟩

/-- After the restart the timer of the first main thread's waiter expires: its
callback resumes that thread, which the waiter still holds. -/
theorem resumes_held_thread_restart :
    ∃ s s', Reachable s ∧ step s (.fire 0) = some (.ok s') ∧ s.proc.mainThread = some 1 ∧
      (s.threads 0).running = false ∧
      s.trace.count (.threadResume 0) < s'.trace.count (.threadResume 0) ∧
      s.Holds 0 ∧ s.trace.countP (Event.drops 0) < s.trace.countP (Event.acquires 0) := by
  have hR := reachable_run restartWaitRun
    (@Reachable.boot ⟨"/data"⟩ 1 0 0 .preload "host" (some "app") (some "/bin/app") [] [] _ rfl)
    rfl
  exact ⟨_, _, hR, rfl, by decide, by decide, by decide,
    resumes_held_thread (a := .fire 0) hR rfl 0 (by decide)⟩

/-- A thread other than the main thread is resumed only by the callback of a
listener whose waiter was armed on it, while the main thread runs. Such a thread
was made before the main thread, it no longer runs (its guest exited or it was
terminated), and `process.c` has already dropped the reference it held on it as
a main thread: it is the main thread of an earlier start, resumed after a
restart. -/
theorem resumes_released_thread {s s' : World} {a : Action} (hR : Reachable s)
    (hStep : step s a = some (.ok s')) {u : Nat}
    (hNew : s.trace.count (.threadResume u) < s'.trace.count (.threadResume u))
    (hOther : s.proc.mainThread ≠ some u) :
    ∃ l m, a = .fire l ∧ (s.waiters (s.listeners l).argument).thread = some u ∧
      s.proc.mainThread = some m ∧ (s.threads m).running ∧ u < m ∧
      (s.threads u).running = false ∧ s.trace.countP (Event.releases u) = 1 := by
  have hM := reachable_mainOk hR
  obtain ⟨m, hm, hRun, ⟨-, rfl⟩ | ⟨l, rfl, hw, -, hT⟩⟩ := resumes_of_count hR hStep hNew
  · exact absurd hm hOther
  rcases hTh : (s.waiters (s.listeners l).argument).thread with _ | v
  · simp only [hTh, Option.getD_none] at hT
    exact absurd (hT ▸ hm) hOther
  simp only [hTh, Option.getD_some] at hT
  subst hT
  have hBelow := hM.waiterBelow _ hw v hTh
  have hLatest : m + 1 = s.proc.threadIDCounter := reachable_mainLatest hR m hm
  have hvm : v ≠ m := fun h => hOther (h ▸ hm)
  refine ⟨l, m, rfl, hTh, hm, hRun, by omega, ?_, ?_⟩
  · by_contra hv
    exact hOther (reachable_onlyMainRuns hR v (by simpa using hv))
  · rw [countP_releases, hM.view.released v, if_pos ⟨hBelow, hOther⟩]

/-- After the restart the timer armed by the first main thread expires: its
callback resumes that thread, which the process released when its guest exited. -/
theorem resumes_released_thread_restart :
    ∃ s s', Reachable s ∧ step s (.fire 0) = some (.ok s') ∧
      s.trace.count (.threadResume 0) < s'.trace.count (.threadResume 0) ∧
      s.proc.mainThread ≠ some 0 ∧
      ∃ l m, Action.fire 0 = .fire l ∧ (s.waiters (s.listeners l).argument).thread = some 0 ∧
        s.proc.mainThread = some m ∧ (s.threads m).running ∧ 0 < m ∧
        (s.threads 0).running = false ∧ s.trace.countP (Event.releases 0) = 1 := by
  have hR := reachable_run restartWaitRun
    (@Reachable.boot ⟨"/data"⟩ 1 0 0 .preload "host" (some "app") (some "/bin/app") [] [] _ rfl)
    rfl
  exact ⟨_, _, hR, rfl, by decide, by decide,
    resumes_released_thread (a := .fire 0) hR rfl (by decide) (by decide)⟩

end ShadowProcess
