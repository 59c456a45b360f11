import ShadowProcess.Lifecycle

/-! # Thread ids

`_process_start` makes each main thread with the id `threadIDCounter++`, and no
other function of `process.c` makes a thread. So the threads made are `0, 1, …`
in the order they were made, each once, and every thread the process runs,
resumes, terminates or releases, every guest that exits, and every thread a
waiter holds is one of them. The main thread is the last thread made, and it is
the only thread that runs. `ViewStep` says once what a step of the worker can
do to the main-thread view; these facts follow from it one view operation at a
time.
-/

namespace ShadowProcess

set_option autoImplicit false

open World

namespace Event

/-- The thread an event names, if any. -/
def thread? : Event → Option Nat
  | .threadNew t _ | .threadRun t .. | .threadResume t | .guestExit t _
  | .threadTerminate t _ | .threadRef t _ | .threadUnref t _ => some t
  | .notify _ thread => thread
  | _ => none

/-- The thread a `thread_new` event made. -/
def threadNew? : Event → Option Nat
  | .threadNew t _ => some t
  | _ => none

end Event

/-! ## What a step does to the view -/

/-- Thread `t` is held: it is the main thread, or a waiter not yet freed records it. -/
def World.Holds (s : World) (t : Nat) : Prop :=
  s.proc.mainThread = some t ∨
    ∃ w < s.nextWaiter, (s.waiters w).live ∧ (s.waiters w).thread = some t

theorem World.MainOk.lt_of_holds {s : World} (h : s.MainOk) {t : Nat} (ht : s.Holds t) :
    t < s.proc.threadIDCounter :=
  ht.elim (h.view.mainBelow t) fun ⟨w, hw, _, hT⟩ => h.waiterBelow w hw t hT

/-- Step `a` from `s` resumes thread `t`: the main thread `m` runs, and `a` is the
owner's `process_continue(proc, NULL)`, which resumes `m`, or the firing of a
listener of a waiter not yet freed, whose callback resumes the waiter's thread
(`m` when the waiter has none). -/
def World.Resumes (s : World) (a : Action) (t : Nat) : Prop :=
  ∃ m, s.proc.mainThread = some m ∧ (s.threads m).running ∧
    (a = .resume ∧ t = m ∨
      ∃ l, a = .fire l ∧ (s.listeners l).argument < s.nextWaiter ∧
        (s.waiters (s.listeners l).argument).live ∧
        (s.waiters (s.listeners l).argument).thread.getD m = t)

theorem World.Resumes.holds {s : World} {a : Action} {t : Nat} (h : s.Resumes a t) : s.Holds t := by
  obtain ⟨m, hm, -, ⟨-, rfl⟩ | ⟨l, -, hw, hLive, hT⟩⟩ := h
  · exact .inl hm
  · rcases hTh : (s.waiters (s.listeners l).argument).thread with _ | u
    · simp only [hTh, Option.getD_none] at hT
      exact hT ▸ .inl hm
    · simp only [hTh, Option.getD_some] at hT
      exact .inr ⟨_, hw, hLive, hT ▸ hTh⟩

/-- What one step of the worker can do to the main-thread view: nothing, resume
a thread that `resumable` allows, start a main thread, end the burst of a
thread already made by its exit, or run `_process_check`, `process_stop` or
`_process_free`. -/
inductive ViewStep (resumable : Nat → Prop) (v : MainView) : MainView → Prop
  | same : ViewStep resumable v v
  | resume {t : Nat} : resumable t → ViewStep resumable v (v.log (.threadResume t))
  | start (method : InterposeMethod) (argv envv : List String) (stderrFD stdoutFD : Int) :
      v.mainThread = none → ViewStep resumable v (v.start method argv envv stderrFD stdoutFD)
  | exit {t : Nat} (code : Int) : t < v.threadIDCounter → ViewStep resumable v (v.exit t code)
  | check : ViewStep resumable v v.check
  | stop : ViewStep resumable v v.stop
  | free : ViewStep resumable v v.free

theorem ViewStep.of_freesAtMost {resumable : Nat → Prop} {s s1 s' : World}
    (h : s1.FreesAtMost s') (hv : s1.mainView = s.mainView) :
    ViewStep resumable s.mainView s'.mainView := by
  rcases h.2.2.2 with ⟨hv', -⟩ | ⟨hv', -⟩
  · rw [hv', hv]
    exact .same
  · rw [hv', hv]
    exact .free

theorem viewStep_runTask {resumable : Nat → Prop} {s s' : World} {i : Nat} {t : Task}
    {fdOut fdErr : Int} {err : String}
    (hr : processRunTask t.kind fdOut fdErr err ((s.setTasks (s.tasks.eraseIdx i)).push (.task t)) =
      .ok s') : ViewStep resumable s.mainView s'.mainView := by
  cases hK : t.kind <;> simp only [processRunTask, hK] at hr
  · rcases processStart_cases _ hr with ⟨rfl, -⟩ | ⟨hNone, ⟨method, hv⟩, -, -, -⟩
    · exact .same
    · rw [hv]
      exact .start _ _ _ _ _ hNone
  · cases hr
    rw [mainView_processStop]
    exact .stop

/-- A listener fires: its callback resumes the waiter's thread or the main thread. -/
theorem viewStep_fire {s s' : World} (hI : s.ledger.Inv s.stack) {l : Nat}
    (hCan : s.canFire l) (hr : processNotifyStatusChanged (s.listeners l).argument s = .ok s') :
    ViewStep (s.Resumes (.fire l)) s.mainView s'.mainView := by
  obtain ⟨hw, hArmed⟩ := hI.armed_of_canFire hCan
  obtain ⟨s'', hOk, -, -, X, rfl⟩ := processNotifyStatusChanged_of_armed s _
    (by simpa using hArmed.live) hArmed.timer.sideArmed hArmed.descriptor.sideArmed
    hArmed.listeners_ne
  rw [hOk] at hr
  cases hr
  set w := (s.listeners l).argument
  set s2 := ({ s with listeners := X }.log (.notify w (s.waiters w).thread)).push
    (.notifyReturn w)
  have h2 : s2.mainView = s.mainView := by simp [s2, Event.isLifecycle]
  rcases processContinue_cases s2 (s.waiters w).thread with ⟨hEq, -⟩ |
    ⟨m, hMain, hRun, hv, -, -, -⟩
  · rw [hEq, h2]
    exact .same
  · rw [hv, h2]
    exact .resume ⟨m, hMain, hRun, .inr ⟨l, rfl, hw, by simpa using hArmed.live, rfl⟩⟩

/-- Each step changes the main-thread view by one `ViewStep`, and resumes only
the threads `World.Resumes` names. -/
theorem step_viewStep {s s' : World} {a : Action} (hI : s.ledger.Inv s.stack) (h : s.MainOk)
    (hStep : step s a = some (.ok s')) : ViewStep (s.Resumes a) s.mainView s'.mainView := by
  generalize hr : (Except.ok s' : Except String World) = r at hStep
  cases step_eq_some_iff.mp hStep with
  | ownerRef =>
    cases hr
    simpa using ViewStep.same
  | ownerUnref => exact .of_freesAtMost (freesAtMost_processUnref _ hr.symm) rfl
  | schedule now =>
    cases hr
    rw [(mainView_processSchedule now s).1]
    exact .same
  | runTask i t fdOut fdErr err hEmpty hT => exact viewStep_runTask hr.symm
  | resume =>
    cases hr
    rcases processContinue_cases s none with ⟨hEq, -⟩ | ⟨m, hMain, hRun, hv, -, -, -⟩
    · rw [hEq]
      exact .same
    · rw [hv]
      exact .resume ⟨m, hMain, hRun, .inl ⟨rfl, rfl⟩⟩
  | fire l hPoint hCan => exact viewStep_fire hI hCan hr.symm
  | listen t rest timer descriptor status hSt =>
    cases hr
    rw [mainView_processListenForStatus]
    exact .same
  | yield t rest hSt =>
    cases hr
    exact .same
  | exit t rest code hSt =>
    cases hr
    rw [mainView_threadExit]
    exact .exit code (h.view.guestBelow t (by simp [hSt]))
  | retTask t rest hSt => exact .of_freesAtMost (freesAtMost_processUnref _ hr.symm) rfl
  | retStart rest hSt =>
    cases hr
    rw [mainView_processStartReturn]
    exact .check
  | retContinue rest hSt =>
    cases hr
    rw [mainView_processContinueReturn]
    exact .check
  | retNotify w rest hSt =>
    exact .of_freesAtMost (freesAtMost_processNotifyStatusChangedReturn _ w hr.symm) rfl

/-! ## Thread ids on the view -/

namespace MainView

/-- The threads made are `0, 1, …` in order, and every event of the view names
one of them. -/
structure ThreadsOk (v : MainView) : Prop where
  made : v.events.filterMap Event.threadNew? = List.range v.threadIDCounter
  below : ∀ e ∈ v.events, ∀ t, e.thread? = some t → t < v.threadIDCounter

variable {v : MainView}

/-- Events that make no thread and name only threads already made. -/
theorem ThreadsOk.append (h : v.ThreadsOk) {v' : MainView} {new : List Event}
    (hc : v'.threadIDCounter = v.threadIDCounter) (hEv : v'.events = v.events ++ new)
    (hn : ∀ e ∈ new, e.threadNew? = none)
    (ht : ∀ e ∈ new, ∀ t, e.thread? = some t → t < v.threadIDCounter) : v'.ThreadsOk where
  made := by
    rw [hEv, hc, List.filterMap_append, h.made, List.filterMap_eq_nil_iff.mpr hn, List.append_nil]
  below e he t het := by
    rw [hEv, List.mem_append] at he
    rw [hc]
    exact he.elim (fun he => h.below e he t het) (fun he => ht e he t het)

theorem returnCodeEvents_thread {code : Int} {name : String} {e : Event}
    (he : e ∈ returnCodeEvents code name) : e.thread? = none ∧ e.threadNew? = none := by
  unfold returnCodeEvents at he
  split at he
  · rw [List.mem_singleton] at he
    subst he
    exact ⟨rfl, rfl⟩
  · simp only [List.mem_cons, List.mem_singleton, List.mem_nil_iff, or_false] at he
    rcases he with rfl | rfl <;> exact ⟨rfl, rfl⟩

theorem ThreadsOk.logReturnCode (h : v.ThreadsOk) (code : Int) :
    (v.logReturnCode code).ThreadsOk := by
  unfold MainView.logReturnCode
  split
  · exact h
  · refine h.append rfl rfl (fun e he => (returnCodeEvents_thread he).2) fun e he t het => ?_
    rw [(returnCodeEvents_thread he).1] at het
    cases het

theorem ThreadsOk.terminate (h : v.ThreadsOk) {t : Nat} (ht : t < v.threadIDCounter)
    (site : Site) : (v.terminate t site).ThreadsOk :=
  h.append rfl rfl (by simp [Event.threadNew?]) (by simp [Event.thread?, ht])

theorem ThreadsOk.release (h : v.ThreadsOk) {t : Nat} (ht : t < v.threadIDCounter)
    (site : Site) : (v.release t site).ThreadsOk :=
  h.append rfl rfl (by simp [Event.threadNew?]) (by simp [Event.thread?, ht])

theorem ThreadsOk.check (h : v.ThreadsOk)
    (hMain : ∀ m, v.mainThread = some m → m < v.threadIDCounter) : v.check.ThreadsOk := by
  unfold MainView.check
  split
  · rename_i m hm
    split
    · exact h
    · exact ((h.logReturnCode _).terminate (by simpa using hMain m hm) _).release
        (by simpa using hMain m hm) _
  · exact h

theorem ThreadsOk.stop (h : v.ThreadsOk)
    (hMain : ∀ m, v.mainThread = some m → m < v.threadIDCounter) : v.stop.ThreadsOk := by
  unfold MainView.stop
  split
  · rename_i m hm
    exact (h.terminate (hMain m hm) _).release (hMain m hm) _
  · exact h

theorem ThreadsOk.free (h : v.ThreadsOk)
    (hMain : ∀ m, v.mainThread = some m → m < v.threadIDCounter) : v.free.ThreadsOk := by
  unfold MainView.free
  split
  · rename_i m hm
    split
    · exact (h.terminate (hMain m hm) _).release (hMain m hm) _
    · exact h.release (hMain m hm) _
  · exact h

/-- `_process_start` makes thread `threadIDCounter` and runs it. -/
theorem ThreadsOk.start (h : v.ThreadsOk) (method : InterposeMethod) (argv envv : List String)
    (stderrFD stdoutFD : Int) : (v.start method argv envv stderrFD stdoutFD).ThreadsOk where
  made := by
    simp [List.filterMap_append, h.made, List.range_succ, Event.threadNew?]
  below e he t het := by
    simp only [start_events, List.mem_append, List.mem_cons, List.mem_nil_iff, or_false] at he
    rcases he with he | rfl | rfl
    · exact Nat.lt_succ_of_lt (h.below e he t het)
    all_goals
      simp only [Event.thread?, Option.some.injEq] at het
      simp [← het]

theorem ThreadsOk.viewStep (h : v.ThreadsOk)
    (hMain : ∀ m, v.mainThread = some m → m < v.threadIDCounter) {resumable : Nat → Prop}
    (hRes : ∀ t, resumable t → t < v.threadIDCounter) {v' : MainView}
    (hs : ViewStep resumable v v') : v'.ThreadsOk := by
  cases hs with
  | same => exact h
  | resume ht =>
    exact h.append rfl rfl (by simp [Event.threadNew?]) (by simp [Event.thread?, hRes _ ht])
  | start method argv envv e o _ => exact h.start method argv envv e o
  | exit code ht =>
    exact h.append rfl rfl (by simp [Event.threadNew?]) (by simp [Event.thread?, ht])
  | check => exact h.check hMain
  | stop => exact h.stop hMain
  | free => exact h.free hMain

end MainView

theorem reachable_threadsOk {s : World} (hR : Reachable s) : s.mainView.ThreadsOk := by
  induction hR with
  | boot h =>
    obtain ⟨_, _, -, -, rfl⟩ := processNew_eq_ok h
    exact ⟨by simp [newProcessWorld, Event.isLifecycle],
      by simp [newProcessWorld, Event.isLifecycle]⟩
  | step hR hStep ih =>
    have h := reachable_mainOk hR
    exact ih.viewStep h.view.mainBelow (fun t ht => h.lt_of_holds ht.holds)
      (step_viewStep (reachable_inv hR) h hStep)

/-- The main thread is the last thread made: `_process_start` takes it from
`threadIDCounter++`, and only when there is no main thread. -/
def MainView.MainLatest (v : MainView) : Prop :=
  ∀ m, v.mainThread = some m → m + 1 = v.threadIDCounter

theorem MainView.MainLatest.viewStep {v v' : MainView} (h : v.MainLatest)
    {resumable : Nat → Prop} (hs : ViewStep resumable v v') : v'.MainLatest := by
  cases hs with
  | same | resume _ | exit _ _ => exact h
  | start => intro m hm; simp_all
  | check =>
    intro m hm
    rcases MainView.check_mainThread v with hc | hc <;> rw [hc] at hm
    · simpa using h m hm
    · cases hm
  | stop => intro m hm; simp at hm
  | free => intro m hm; simp at hm

theorem reachable_mainLatest {s : World} (hR : Reachable s) : s.mainView.MainLatest := by
  induction hR with
  | boot h =>
    obtain ⟨_, _, -, -, rfl⟩ := processNew_eq_ok h
    intro m hm
    simp [newProcessWorld] at hm
  | step hR hStep ih =>
    exact ih.viewStep (step_viewStep (reachable_inv hR) (reachable_mainOk hR) hStep)

/-- Only the main thread runs: `_process_check`, `process_stop` and
`_process_free` clear `proc->mainThread` only once it has stopped, and
`_process_start` runs a thread only when there is none. -/
def MainView.OnlyMainRuns (v : MainView) : Prop :=
  ∀ t, (v.threads t).running → v.mainThread = some t

namespace MainView.OnlyMainRuns

variable {v : MainView}

theorem logReturnCode (h : v.OnlyMainRuns) (code : Int) : (v.logReturnCode code).OnlyMainRuns := by
  intro t ht
  simp only [logReturnCode_threads, logReturnCode_mainThread] at ht ⊢
  exact h t ht

theorem terminate (h : v.OnlyMainRuns) (m : Nat) (site : Site) :
    (v.terminate m site).OnlyMainRuns := by
  intro t ht
  by_cases htm : t = m
  · subst htm
    simp at ht
  · simp only [terminate_threads, Function.update_noteq htm] at ht
    exact h t ht

/-- The process forgets its main thread once it has stopped. -/
theorem release (h : v.OnlyMainRuns) {m : Nat} (hm : v.mainThread = some m)
    (hRun : (v.threads m).running = false) (site : Site) : (v.release m site).OnlyMainRuns := by
  intro t ht
  simp only [release_threads, log_threads] at ht
  obtain rfl : m = t := by simpa [hm] using h t ht
  simp [hRun] at ht

theorem viewStep (h : v.OnlyMainRuns) {resumable : Nat → Prop} {v' : MainView}
    (hs : ViewStep resumable v v') : v'.OnlyMainRuns := by
  cases hs with
  | same | resume _ => exact h
  | start method argv envv e o hNone =>
    intro t ht
    by_cases ht' : t = v.threadIDCounter
    · simp [ht']
    · simp only [start_threads, Function.update_noteq ht'] at ht
      simp [h t ht] at hNone
  | exit code _ =>
    intro t ht
    rename_i u _
    by_cases htu : t = u
    · subst htu
      simp at ht
    · simp only [exit_threads, Function.update_noteq htu] at ht
      exact h t ht
  | check =>
    unfold MainView.check
    split
    · rename_i m hm
      split
      · exact h
      · exact ((h.logReturnCode _).terminate m _).release (by simpa using hm) (by simp) _
    · exact h
  | stop =>
    unfold MainView.stop
    split
    · rename_i m hm
      exact (h.terminate m _).release (by simpa using hm) (by simp) _
    · exact h
  | free =>
    unfold MainView.free
    split
    · rename_i m hm
      split
      · exact (h.terminate m _).release (by simpa using hm) (by simp) _
      · rename_i hRun
        exact h.release hm (by simpa using hRun) _
    · exact h

end MainView.OnlyMainRuns

theorem reachable_onlyMainRuns {s : World} (hR : Reachable s) : s.mainView.OnlyMainRuns := by
  induction hR with
  | boot h =>
    obtain ⟨_, _, -, -, rfl⟩ := processNew_eq_ok h
    intro t ht
    simp [newProcessWorld] at ht
  | step hR hStep ih =>
    exact ih.viewStep (step_viewStep (reachable_inv hR) (reachable_mainOk hR) hStep)

theorem filterMap_threadNew_lifecycle (es : List Event) :
    (es.filter Event.isLifecycle).filterMap Event.threadNew? = es.filterMap Event.threadNew? := by
  rw [List.filterMap_filter]
  exact List.filterMap_congr fun e _ => by cases e <;> first | rfl | exact ite_self _

/-- `_process_start` takes thread ids from `threadIDCounter++`: in every reachable
world the threads made are `0, 1, …, threadIDCounter - 1`, in the order they were
made and each once; every thread the process runs, resumes, terminates or
releases, and every guest that exits, is one of them; and so is the thread of
every waiter, which the waiter references, releases and hands to
`process_continue`. -/
theorem thread_ids_fresh {s : World} (hR : Reachable s) :
    s.trace.filterMap Event.threadNew? = List.range s.proc.threadIDCounter ∧
      (∀ e ∈ s.trace, e.isLifecycle →
        ∀ t, e.thread? = some t → t < s.proc.threadIDCounter) ∧
      ∀ w < s.nextWaiter, ∀ t, (s.waiters w).thread = some t →
        t < s.proc.threadIDCounter := by
  have h := reachable_threadsOk hR
  refine ⟨?_, fun e he hl t ht => h.below e (List.mem_filter.mpr ⟨he, hl⟩) t ht,
    (reachable_mainOk hR).waiterBelow⟩
  rw [← filterMap_threadNew_lifecycle]
  exact h.made

/-- After a restart two threads were made, `0` and then `1`. -/
theorem thread_ids_fresh_restartRun :
    ∃ s, Reachable s ∧ s.proc.threadIDCounter = 2 ∧
      s.trace.filterMap Event.threadNew? = List.range s.proc.threadIDCounter ∧
      (∀ e ∈ s.trace, e.isLifecycle →
        ∀ t, e.thread? = some t → t < s.proc.threadIDCounter) ∧
      ∀ w < s.nextWaiter, ∀ t, (s.waiters w).thread = some t →
        t < s.proc.threadIDCounter := by
  have hR := reachable_run [.schedule 0, .schedule 0, .runTask 0 3 4 "", .exit 0, .ret, .ret,
      .runTask 0 3 4 ""]
    (@Reachable.boot ⟨"/data"⟩ 1 0 0 .preload "host" (some "app") (some "/bin/app") [] [] _ rfl)
    rfl
  exact ⟨_, hR, by decide, thread_ids_fresh hR⟩

end ShadowProcess
