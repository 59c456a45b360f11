import ShadowProcess.EventQueue
import ShadowProcess.Progress

/-! # The process state machine

Section 4.1 of the spec draws the life of a process as a state machine: it is
new, scheduled once `process_schedule` has posted its start task, running while
its guest code runs, blocked when the guest has yielded, stopped once its main
thread is gone, and freed. `World.phase` reads that state off a world of the
worker, and `LifecycleMove` is the machine, each move labelled with the action
that makes it. Besides the moves the diagram draws, `process.c` makes four
more: another start task runs a new main thread in a stopped process, the guest
of a thread other than the main one ends a burst by exiting, and the last
reference can go while the process is new, or blocked, when `_process_free`
terminates the main thread. Every step of the worker keeps the state or makes
one of these moves, so every run of the worker is a run of the machine.
-/

namespace ShadowProcess

set_option autoImplicit false

open World

/-! ## The machine -/

/-- The states of a process. -/
inductive LifecyclePhase where
  | new
  | scheduled
  | running
  | blocked
  | stopped
  | freed
  deriving DecidableEq, Repr

def Task.isStart (t : Task) : Bool := t.kind == .start

def Frame.isGuest : Frame → Bool
  | .guest _ => true
  | _ => false

/-- The state of the process: freed once `_process_free` ran; before its first
thread, scheduled while a start task is queued; after it, running while guest
code runs and the main thread does, blocked while the main thread waits, and
stopped once the main thread is gone or its guest has exited. -/
def World.phase (s : World) : LifecyclePhase :=
  if .processFree ∈ s.trace then .freed
  else if s.proc.threadIDCounter = 0 then
    if s.tasks.any Task.isStart then .scheduled else .new
  else if processIsRunning s then
    if s.stack.any Frame.isGuest then .running else .blocked
  else .stopped

/-- An action that can drop the last reference: an owner's `process_unref`, or a
return into the scheduler or into a listener callback. -/
def Action.unrefs : Action → Bool
  | .ownerUnref | .ret => true
  | _ => false

/-- The process state machine. -/
inductive LifecycleMove : Action → LifecyclePhase → LifecyclePhase → Prop
  /-- `process_schedule` posts the start task. -/
  | schedule (now : SimulationTime) : LifecycleMove (.schedule now) .new .scheduled
  /-- The start task runs the first main thread. -/
  | start (i : Nat) (stdoutFD stderrFD : Int) (err : String) :
      LifecycleMove (.runTask i stdoutFD stderrFD err) .scheduled .running
  /-- The guest yields. -/
  | yield : LifecycleMove .yield .running .blocked
  /-- An owner resumes the main thread. -/
  | resume : LifecycleMove .resume .blocked .running
  /-- A waiter's listener fires and resumes its thread. -/
  | wake (l : Nat) : LifecycleMove (.fire l) .blocked .running
  /-- The main thread's guest exits. -/
  | exit (code : Int) : LifecycleMove (.exit code) .running .stopped
  /-- The stop task terminates the main thread. -/
  | stop (i : Nat) (stdoutFD stderrFD : Int) (err : String) :
      LifecycleMove (.runTask i stdoutFD stderrFD err) .blocked .stopped
  /-- The last reference goes. -/
  | free {a : Action} : a.unrefs → LifecycleMove a .stopped .freed
  /-- Another start task runs a new main thread. -/
  | restart (i : Nat) (stdoutFD stderrFD : Int) (err : String) :
      LifecycleMove (.runTask i stdoutFD stderrFD err) .stopped .running
  /-- The guest of another thread exits while the main thread waits. -/
  | exitOther (code : Int) : LifecycleMove (.exit code) .running .blocked
  /-- The last reference goes before the process was scheduled. -/
  | drop {a : Action} : a.unrefs → LifecycleMove a .new .freed
  /-- The last reference goes while the main thread waits. -/
  | kill {a : Action} : a.unrefs → LifecycleMove a .blocked .freed

/-- The runs of the machine: each action keeps the state or makes a move. -/
inductive LifecycleRun : List Action → LifecyclePhase → LifecyclePhase → Prop
  | nil (p : LifecyclePhase) : LifecycleRun [] p p
  | stay {a : Action} {as : List Action} {p q : LifecyclePhase} :
      LifecycleRun as p q → LifecycleRun (a :: as) p q
  | move {a : Action} {as : List Action} {p p' q : LifecyclePhase} :
      LifecycleMove a p p' → LifecycleRun as p' q → LifecycleRun (a :: as) p q

/-! ## Functions that keep the task queue -/

section Tasks

variable (s : World)

@[simp] theorem processCheck_tasks : (processCheck s).tasks = s.tasks := by
  unfold processCheck processLogReturnCode
  split
  · rfl
  · split_ifs <;> rfl

@[simp] theorem processStop_tasks : (processStop s).tasks = s.tasks := by
  unfold processStop
  dsimp only
  split <;> exact processCheck_tasks _

theorem processFree_tasks : (processFree s).tasks = s.tasks := by
  rcases hMain : s.proc.mainThread with _ | t <;>
    simp only [processFree, hMain, apply_ite World.tasks, World.log, threadTerminate,
      threadUnref, World.setMainThread, World.setThread, ite_self]

theorem processUnref_tasks {s' : World} (h : processUnref s = .ok s') : s'.tasks = s.tasks := by
  simp only [processUnref] at h
  split at h
  · cases h
  split at h <;> cases h
  · exact processFree_tasks _
  · rfl

theorem processUnrefWaiter_tasks (w : Nat) {s' : World} (h : processUnrefWaiter w s = .ok s') :
    s'.tasks = s.tasks := by
  simp only [processUnrefWaiter] at h
  split at h
  · cases h
  split at h <;> cases h
  · rcases (s.waiters w).thread <;> rcases (s.waiters w).timer <;>
      rcases (s.waiters w).descriptor <;>
      simp only [World.log, threadUnref, descriptorUnref, World.setWaiter]
  · rfl

theorem processReleaseListener_tasks (l? : Option Nat) {s' : World}
    (h : processReleaseListener l? s = .ok s') : s'.tasks = s.tasks := by
  rcases l? with _ | l
  · cases h
    rfl
  simp only [processReleaseListener, listenerUnref, descriptorListenerUnref] at h
  split at h
  · obtain ⟨s1, h1, h2⟩ := bind_eq_ok h
    rw [processUnrefWaiter_tasks _ _ h2, processUnref_tasks _ h1]
    rfl
  · cases h
    rfl

theorem processNotifyStatusChangedReturn_tasks (w : Nat) {s' : World}
    (h : processNotifyStatusChangedReturn w s = .ok s') : s'.tasks = s.tasks := by
  change (processReleaseListener (s.readWaiter w .timerListener).1
      (s.readWaiter w .timerListener).2 >>= fun s1 =>
    processReleaseListener (s1.readWaiter w .descriptorListener).1
      (s1.readWaiter w .descriptorListener).2) = .ok s' at h
  obtain ⟨s1, h1, h2⟩ := bind_eq_ok h
  have hRead (s : World) (f : WaiterField) : (s.readWaiter w f).2.tasks = s.tasks := by
    unfold World.readWaiter
    split <;> rfl
  rw [processReleaseListener_tasks _ _ h2, hRead, processReleaseListener_tasks _ _ h1, hRead]

end Tasks

theorem any_eraseIdx {α : Type} (p : α → Bool) {l : List α} {i : Nat} {x : α}
    (h : l[i]? = some x) (hx : p x = false) : (l.eraseIdx i).any p = l.any p := by
  induction l generalizing i with
  | nil => cases h
  | cons y l ih =>
    cases i with
    | zero =>
      rw [List.getElem?_cons_zero, Option.some.injEq] at h
      subst h
      simp [hx]
    | succ i =>
      rw [List.getElem?_cons_succ] at h
      simp [ih h]

/-! ## What `process_isRunning` sees -/

namespace MainView

/-- `process_isRunning` on the view. -/
def isRunning (v : MainView) : Bool :=
  match v.mainThread with
  | some t => (v.threads t).running
  | none => false

theorem isRunning_check (v : MainView) : v.check.isRunning = v.isRunning := by
  unfold check
  split
  · rename_i t hm
    split
    · rfl
    · rename_i hr
      simp [isRunning, hm, hr]
  · rfl

@[simp] theorem isRunning_stop (v : MainView) : v.stop.isRunning = false := by
  simp [isRunning]

theorem isRunning_exit (v : MainView) (t : Nat) (code : Int) :
    (v.exit t code).isRunning = (v.isRunning && v.mainThread != some t) := by
  rcases hm : v.mainThread with _ | m
  · simp [isRunning, hm]
  · by_cases hmt : m = t
    · subst hmt
      simp [isRunning, hm]
    · simp [isRunning, hm, Function.update_noteq hmt, hmt]

end MainView

theorem processIsRunning_eq (s : World) : processIsRunning s = s.mainView.isRunning := rfl

namespace World.MainOk

variable {s : World}

theorem counter_ne_zero_of_running (h : s.MainOk) (hr : processIsRunning s) :
    s.proc.threadIDCounter ≠ 0 := by
  unfold processIsRunning at hr
  split at hr
  · have := h.view.mainBelow _ ‹_›
    simp only [mainView_mainThread, mainView_threadIDCounter] at this
    omega
  · cases hr

theorem counter_ne_zero_of_guest (h : s.MainOk) {t : Nat} {rest : List Frame}
    (hSt : s.stack = .guest t :: rest) : s.proc.threadIDCounter ≠ 0 := by
  have := h.view.guestBelow t (by simp [hSt])
  simp only [mainView_threadIDCounter] at this
  omega

/-- In the event loop a main thread that is still set runs. -/
theorem running_of_main (h : s.MainOk) (hEmpty : s.stack = []) {m : Nat}
    (hm : s.proc.mainThread = some m) : processIsRunning s := by
  have := (h.view.running m hm).resolve_right (by simp [hEmpty, checkNext])
  simpa [processIsRunning, hm] using this

end World.MainOk

/-! ## What one step does to the state -/

section Phase

variable {s s' : World}

theorem not_freed_of_stack (hI : s.ledger.Inv s.stack) (hSt : s.stack ≠ []) :
    .processFree ∉ s.trace := fun hF => hSt (hI.empty_of_freed hF).2.2.2

theorem phase_started (hF : .processFree ∉ s.trace) (h0 : s.proc.threadIDCounter ≠ 0) :
    s.phase = if processIsRunning s then
      (if s.stack.any Frame.isGuest then .running else .blocked) else .stopped := by
  simp only [World.phase, if_neg hF, if_neg h0]

theorem phase_fresh (hF : .processFree ∉ s.trace) (h0 : s.proc.threadIDCounter = 0) :
    s.phase = if s.tasks.any Task.isStart then .scheduled else .new := by
  simp only [World.phase, if_neg hF, if_pos h0]

/-- The state reads the free, the thread counter, the start tasks before the
first thread, whether the process runs, and, when it does, whether guest code
is on the stack. -/
theorem phase_congr (hF : .processFree ∉ s.trace) (hF' : .processFree ∉ s'.trace)
    (hc : s'.proc.threadIDCounter = s.proc.threadIDCounter)
    (hT : s.proc.threadIDCounter = 0 → s'.tasks.any Task.isStart = s.tasks.any Task.isStart)
    (hr : processIsRunning s' = processIsRunning s)
    (hg : processIsRunning s → s'.stack.any Frame.isGuest = s.stack.any Frame.isGuest) :
    s'.phase = s.phase := by
  by_cases h0 : s.proc.threadIDCounter = 0
  · rw [phase_fresh hF h0, phase_fresh hF' (hc ▸ h0), hT h0]
  · rw [phase_started hF h0, phase_started hF' (hc ▸ h0), hr]
    cases hR : processIsRunning s
    · rfl
    · rw [if_pos rfl, if_pos rfl, hg hR]

theorem phase_running (hF : .processFree ∉ s.trace) (h0 : s.proc.threadIDCounter ≠ 0)
    (hr : processIsRunning s) {t : Nat} {rest : List Frame} (hSt : s.stack = .guest t :: rest) :
    s.phase = .running := by
  simp [phase_started hF h0, hr, hSt, Frame.isGuest]

theorem not_freed_of_count (hF : .processFree ∉ s.trace)
    (hc : s'.trace.count .processFree = s.trace.count .processFree) :
    .processFree ∉ s'.trace := by
  rw [← List.count_pos_iff, hc, List.count_pos_iff]
  exact hF

/-- A step that keeps the view, the tasks and whether guest code is on the stack. -/
theorem phase_of_view (hF : .processFree ∉ s.trace)
    (hc : s'.trace.count .processFree = s.trace.count .processFree)
    (hv : s'.mainView = s.mainView) (hT : s'.tasks = s.tasks)
    (hg : s'.stack.any Frame.isGuest = s.stack.any Frame.isGuest) : s'.phase = s.phase := by
  refine phase_congr hF (not_freed_of_count hF hc) (congrArg MainView.threadIDCounter hv)
    (fun _ => by rw [hT]) ?_
    fun _ => hg
  rw [processIsRunning_eq, processIsRunning_eq, hv]

theorem World.FreesAtMost.freed_or_view {s1 : World} (h : s1.FreesAtMost s') :
    s'.mainView = s1.mainView ∧ s'.trace.count .processFree = s1.trace.count .processFree ∨
      .processFree ∈ s'.trace := by
  rcases h.2.2.2 with hv | ⟨-, hc⟩
  · exact .inl hv
  · exact .inr (List.count_pos_iff.mp (by omega))

/-- A step that can drop the last reference and keeps the tasks: the state
stays, or the process was new, blocked or stopped and is freed. -/
theorem phase_of_unref {a : Action} (ha : a.unrefs) (hI' : s'.ledger.Inv s'.stack)
    (hF : .processFree ∉ s.trace) (hT : s'.tasks = s.tasks)
    (hg : s'.stack.any Frame.isGuest = s.stack.any Frame.isGuest)
    (hv : s'.mainView = s.mainView ∧ s'.trace.count .processFree = s.trace.count .processFree ∨
      .processFree ∈ s'.trace) :
    s'.phase = s.phase ∨ LifecycleMove a s.phase s'.phase := by
  rcases hv with ⟨hv, hc⟩ | hF'
  · exact .inl (phase_of_view hF hc hv hT hg)
  obtain ⟨-, hT0, -, hNil⟩ := hI'.empty_of_freed hF'
  have hG : s.stack.any Frame.isGuest = false := by rw [← hg, hNil]; rfl
  rw [hT] at hT0
  right
  simp only [World.phase, if_pos hF', if_neg hF, hT0, hG, List.any_nil, Bool.false_eq_true,
    if_false]
  split_ifs
  · exact .drop ha
  · exact .kill ha
  · exact .free ha

end Phase

/-! ## Every step refines the machine -/

section Steps

variable {s s' : World}

theorem phase_schedule (hF : .processFree ∉ s.trace) (now : SimulationTime) :
    (processSchedule now s).phase = s.phase ∨
      LifecycleMove (.schedule now) s.phase (processSchedule now s).phase := by
  obtain ⟨hv, htr, -, -⟩ := mainView_processSchedule now s
  obtain ⟨posted, hT⟩ : ∃ posted, (processSchedule now s).tasks = s.tasks ++ posted :=
    ⟨_, (processSchedule_tasks now s).trans (List.append_assoc _ _ _)⟩
  have hF' : .processFree ∉ (processSchedule now s).trace := htr ▸ hF
  have hc := congrArg MainView.threadIDCounter hv
  simp only [mainView_threadIDCounter] at hc
  by_cases h0 : s.proc.threadIDCounter = 0
  · rw [phase_fresh hF h0, phase_fresh hF' (hc ▸ h0), hT, List.any_append]
    cases s.tasks.any Task.isStart <;> cases posted.any Task.isStart
    · exact .inl rfl
    · exact .inr (.schedule now)
    · exact .inl rfl
    · exact .inl rfl
  · refine .inl (phase_congr hF hF' hc (fun h => absurd h h0) ?_ fun _ => by simp)
    rw [processIsRunning_eq, processIsRunning_eq, hv]

/-- The scheduler runs a task: the start task runs the first or a new main thread,
or returns at once while the process runs; the stop task stops a blocked process. -/
theorem phase_runTask (hM : s.MainOk) (hF : .processFree ∉ s.trace)
    {i : Nat} {t : Task} {fdOut fdErr : Int} {err : String} (hEmpty : s.stack = [])
    (hT : s.tasks[i]? = some t) (hI' : s'.ledger.Inv s'.stack)
    (hr : processRunTask t.kind fdOut fdErr err ((s.setTasks (s.tasks.eraseIdx i)).push (.task t)) =
      .ok s') :
    s'.phase = s.phase ∨ LifecycleMove (.runTask i fdOut fdErr err) s.phase s'.phase := by
  set s1 := (s.setTasks (s.tasks.eraseIdx i)).push (.task t)
  have hF1 : .processFree ∉ s1.trace := hF
  have hg1 : s1.stack.any Frame.isGuest = s.stack.any Frame.isGuest := by
    simp [s1, hEmpty, Frame.isGuest]
  cases hK : t.kind <;> simp only [processRunTask, hK] at hr
  · rcases processStart_cases _ hr with ⟨rfl, hRun⟩ | ⟨hNone, ⟨method, hv⟩, hSt, -, -⟩
    · exact .inl (phase_congr hF hF1 rfl (fun h => absurd h (hM.counter_ne_zero_of_running hRun))
        rfl fun _ => hg1)
    have hF' := not_freed_of_stack hI' (by simp [hSt])
    have hc := congrArg MainView.threadIDCounter hv
    simp only [mainView_threadIDCounter, MainView.start_threadIDCounter] at hc
    have hRun' : processIsRunning s' := by
      rw [processIsRunning_eq, hv]
      simp [MainView.isRunning]
    have hNew : s'.phase = .running := phase_running hF' (by omega) hRun' hSt
    right
    rw [hNew]
    by_cases h0 : s.proc.threadIDCounter = 0
    · have hStart : s.tasks.any Task.isStart := List.any_eq_true.mpr
        ⟨t, List.mem_iff_getElem?.mpr ⟨i, hT⟩, by simp [Task.isStart, hK]⟩
      rw [phase_fresh hF h0, if_pos hStart]
      exact .start i fdOut fdErr err
    · have hStop : processIsRunning s = false := by
        simp [processIsRunning, s1] at hNone ⊢
        simp [hNone]
      rw [phase_started hF h0, hStop]
      exact .restart i fdOut fdErr err
  · cases hr
    have hc : (processStop s1).proc.threadIDCounter = s.proc.threadIDCounter := by
      rw [← mainView_threadIDCounter, mainView_processStop, MainView.stop_threadIDCounter]; rfl
    have hF' : .processFree ∉ (processStop s1).trace := not_freed_of_stack hI' (by simp [s1])
    rcases hMain : s.proc.mainThread with _ | m
    · left
      have hv : (processStop s1).mainView = s.mainView := by
        rw [mainView_processStop, MainView.stop]
        simp [s1, hMain]
      refine phase_congr hF hF' hc (fun _ => ?_) (by rw [processIsRunning_eq, hv]; rfl) fun _ => ?_
      · simp only [processStop_tasks, s1, push_tasks, setTasks_tasks]
        exact any_eraseIdx _ hT (by simp [Task.isStart, hK])
      · simp [s1, hEmpty, Frame.isGuest]
    · right
      have hRun := hM.running_of_main hEmpty hMain
      have h0 := hM.counter_ne_zero_of_running hRun
      have hStopped : (processStop s1).phase = .stopped := by
        rw [phase_started hF' (hc ▸ h0), processIsRunning_eq, mainView_processStop,
          MainView.isRunning_stop]
        rfl
      rw [hStopped, phase_started hF h0, if_pos hRun]
      simp only [hEmpty, List.any_nil]
      exact .stop i fdOut fdErr err

/-- `process_continue` resumes a thread only while the main thread runs, and then
guest code runs. -/
theorem phase_processContinue (hF : .processFree ∉ s.trace)
    (h0 : processIsRunning s → s.proc.threadIDCounter ≠ 0) (thread : Option Nat) :
    (processContinue thread s).phase = s.phase ∨
      processIsRunning s ∧ (processContinue thread s).phase = .running := by
  rcases processContinue_cases s thread with ⟨hEq, -⟩ | ⟨m, hMain, hRun, hv, hSt, -, -⟩
  · exact .inl (by rw [hEq])
  have hr : processIsRunning s := by simp [processIsRunning, hMain, hRun]
  have hc := congrArg MainView.threadIDCounter hv
  simp only [mainView_threadIDCounter, MainView.log_threadIDCounter] at hc
  have hF' := not_freed_of_count hF (congrArg Ledger.frees (ledger_processContinue s thread))
  refine .inr ⟨hr, phase_running hF' (hc ▸ h0 hr) ?_ hSt⟩
  rw [processIsRunning_eq, hv]
  exact hr

theorem phase_resume (hM : s.MainOk) (hF : .processFree ∉ s.trace) (hEmpty : s.stack = []) :
    (processContinue none s).phase = s.phase ∨
      LifecycleMove .resume s.phase (processContinue none s).phase := by
  rcases phase_processContinue hF hM.counter_ne_zero_of_running none with hEq | ⟨hr, hNew⟩
  · exact .inl hEq
  rw [hNew, phase_started hF (hM.counter_ne_zero_of_running hr), if_pos hr, hEmpty]
  exact .inr .resume

/-- A listener fires: its callback resumes a thread, which runs when the main
thread does. -/
theorem phase_fire (hI : s.ledger.Inv s.stack) (hM : s.MainOk) (hF : .processFree ∉ s.trace)
    {l : Nat} (hCan : s.canFire l)
    (hr : processNotifyStatusChanged (s.listeners l).argument s = .ok s') :
    s'.phase = s.phase ∨ LifecycleMove (.fire l) s.phase s'.phase := by
  obtain ⟨-, hArmed⟩ := hI.armed_of_canFire hCan
  obtain ⟨s'', hOk, -, -, X, rfl⟩ := processNotifyStatusChanged_of_armed s _
    (by simpa using hArmed.live) hArmed.timer.sideArmed hArmed.descriptor.sideArmed
    hArmed.listeners_ne
  rw [hOk] at hr
  cases hr
  set w := (s.listeners l).argument
  set s2 := ({ s with listeners := X }.log (.notify w (s.waiters w).thread)).push
    (.notifyReturn w)
  have h2 : s2.phase = s.phase := phase_of_view hF (by simp [s2]) (by simp [s2, Event.isLifecycle])
    rfl (by simp [s2, Frame.isGuest])
  rcases phase_processContinue (s := s2) (by simpa [s2] using hF) hM.counter_ne_zero_of_running
    (s.waiters w).thread with hEq | ⟨hRun, hNew⟩
  · exact .inl (hEq.trans h2)
  have hRun : processIsRunning s := hRun
  rw [hNew, phase_started hF (hM.counter_ne_zero_of_running hRun), if_pos hRun]
  split
  · exact .inl rfl
  · exact .inr (.wake l)

theorem phase_listen (hM : s.MainOk) (hF : .processFree ∉ s.trace) (hI' : s'.ledger.Inv s'.stack)
    {t : Nat} {rest : List Frame} (hSt : s.stack = .guest t :: rest)
    {timer descriptor : Option Nat} {status : DescriptorStatus}
    (hs' : s' = processListenForStatus (some t) timer descriptor status s) :
    s'.phase = s.phase := by
  have hv : s'.mainView = s.mainView := hs' ▸ mainView_processListenForStatus s _ _ _ _
  have hS : s'.stack = s.stack := hs' ▸ stack_processListenForStatus s _ _ _ _
  refine phase_congr hF (not_freed_of_stack hI' (by simp [hS, hSt]))
    (congrArg MainView.threadIDCounter hv) (fun h => absurd h (hM.counter_ne_zero_of_guest hSt))
    (by rw [processIsRunning_eq, processIsRunning_eq, hv]) fun _ => by rw [hS]

theorem phase_yield (hM : s.MainOk) (hF : .processFree ∉ s.trace) {t : Nat} {rest : List Frame}
    (hSt : s.stack = .guest t :: rest) :
    (s.setStack rest).phase = s.phase ∨ LifecycleMove .yield s.phase (s.setStack rest).phase := by
  have h0 := hM.counter_ne_zero_of_guest hSt
  have hr' : processIsRunning (s.setStack rest) = processIsRunning s := rfl
  rw [phase_started hF h0, phase_started (s := s.setStack rest) hF h0, hr', setStack_stack, hSt]
  cases processIsRunning s
  · exact .inl rfl
  · simp only [if_pos, List.any_cons, Frame.isGuest, Bool.true_or, if_true]
    split
    · exact .inl rfl
    · exact .inr .yield

/-- A guest exits: the process stops when it was its main thread, and otherwise
the main thread runs or waits as before. -/
theorem phase_exit (hM : s.MainOk) (hF : .processFree ∉ s.trace) {t : Nat} {rest : List Frame}
    (hSt : s.stack = .guest t :: rest) (code : Int) :
    ((s.setStack rest).threadExit t code).phase = s.phase ∨
      LifecycleMove (.exit code) s.phase ((s.setStack rest).threadExit t code).phase := by
  set s' := (s.setStack rest).threadExit t code
  have h0 := hM.counter_ne_zero_of_guest hSt
  have hF' : .processFree ∉ s'.trace :=
    not_freed_of_count hF (congrArg Ledger.frees (ledger_threadExit (s.setStack rest) t code))
  have hr' : processIsRunning s' = (processIsRunning s && s.proc.mainThread != some t) := by
    rw [processIsRunning_eq, processIsRunning_eq, mainView_threadExit, mainView_setStack,
      MainView.isRunning_exit]
    rfl
  rw [phase_started hF h0, phase_started hF' h0, hr']
  simp only [s', threadExit_stack, setStack_stack, hSt, List.any_cons, Frame.isGuest,
    Bool.true_or, if_true]
  cases processIsRunning s
  · exact .inl rfl
  by_cases hMain : s.proc.mainThread = some t
  · simp only [hMain, bne_self_eq_false, Bool.and_false]
    exact .inr (.exit code)
  · have hne : (s.proc.mainThread != some t) = true := bne_iff_ne.mpr hMain
    simp only [hne, Bool.and_true, if_true]
    split
    · exact .inl rfl
    · exact .inr (.exitOther code)

/-- `_process_start` or `process_continue` returns into `_process_check`, which
forgets a main thread that no longer runs. -/
theorem phase_check (hF : .processFree ∉ s.trace)
    (hc : s'.trace.count .processFree = s.trace.count .processFree)
    (hv : s'.mainView = s.mainView.check) (hT : s'.tasks = s.tasks)
    (hg : s'.stack.any Frame.isGuest = s.stack.any Frame.isGuest) : s'.phase = s.phase := by
  refine phase_congr hF (not_freed_of_count hF hc) ?_ (fun _ => by rw [hT]) ?_ fun _ => hg
  · rw [← mainView_threadIDCounter, hv, MainView.check_threadIDCounter]
    rfl
  · rw [processIsRunning_eq, processIsRunning_eq, hv, MainView.isRunning_check]

/-- Each step of the worker keeps the state of the process or makes one move of
the machine, labelled with the step's action. -/
theorem step_refines_lifecycle {s s' : World} {a : Action} (hR : Reachable s)
    (hStep : step s a = some (.ok s')) :
    s'.phase = s.phase ∨ LifecycleMove a s.phase s'.phase := by
  have hI := reachable_inv hR
  have hM := reachable_mainOk hR
  have hI' := step_inv hI hStep
  have hF : .processFree ∉ s.trace := fun hF => by simp [step_eq_none_of_freed hI hF a] at hStep
  generalize hr : (Except.ok s' : Except String World) = r at hStep
  cases step_eq_some_iff.mp hStep with
  | ownerRef =>
    cases hr
    exact .inl rfl
  | ownerUnref hEmpty =>
    have hFA := freesAtMost_processUnref _ hr.symm
    exact phase_of_unref rfl hI' hF (processUnref_tasks (s.setOwners (s.owners - 1)) hr.symm)
      (by rw [hFA.1]; rfl) hFA.freed_or_view
  | schedule now =>
    cases hr
    exact phase_schedule hF now
  | runTask i t fdOut fdErr err hEmpty hT => exact phase_runTask hM hF hEmpty hT hI' hr.symm
  | resume hEmpty =>
    cases hr
    exact phase_resume hM hF hEmpty
  | fire l hPoint hCan => exact phase_fire hI hM hF hCan hr.symm
  | listen t rest timer descriptor status hSt =>
    cases hr
    exact .inl (phase_listen hM hF hI' hSt rfl)
  | yield t rest hSt =>
    cases hr
    exact phase_yield hM hF hSt
  | exit t rest code hSt =>
    cases hr
    exact phase_exit hM hF hSt code
  | retTask t rest hSt =>
    have hRest := (hSt ▸ hI.nested).eq_nil_of_task
    subst hRest
    have hFA := freesAtMost_processUnref _ hr.symm
    exact phase_of_unref rfl hI' hF (processUnref_tasks (s.setStack []) hr.symm)
      (by simp [hFA.1, hSt, Frame.isGuest]) hFA.freed_or_view
  | retStart rest hSt =>
    cases hr
    exact .inl (phase_check hF (congrArg Ledger.frees (ledger_processStartReturn _))
      (mainView_processStartReturn _) (by simp [processStartReturn])
      (by simp [hSt, Frame.isGuest]))
  | retContinue rest hSt =>
    cases hr
    exact .inl (phase_check hF (congrArg Ledger.frees (ledger_processContinueReturn _))
      (mainView_processContinueReturn _) (by simp [processContinueReturn])
      (by simp [hSt, Frame.isGuest]))
  | retNotify w rest hSt =>
    have hFA := freesAtMost_processNotifyStatusChangedReturn _ w hr.symm
    exact phase_of_unref rfl hI' hF
      (processNotifyStatusChangedReturn_tasks (s.setStack rest) w hr.symm)
      (by simp [hFA.1, hSt, Frame.isGuest]) hFA.freed_or_view

end Steps

/-- Every run of the worker from a reachable world is a run of the process state
machine on the same actions: each step keeps the state of the process or makes
one move the machine allows. -/
theorem run_refines_lifecycle {s s' : World} (as : List Action) (hR : Reachable s)
    (hRun : run s as = some (.ok s')) : LifecycleRun as s.phase s'.phase := by
  induction as generalizing s with
  | nil =>
    cases hRun
    exact .nil _
  | cons a as ih =>
    simp only [run] at hRun
    split at hRun
    · rename_i s1 hStep
      have hNext := ih (hR.step hStep) hRun
      rcases step_refines_lifecycle hR hStep with hEq | hMove
      · exact .stay (hEq ▸ hNext)
      · exact .move hMove hNext
    · rename_i hNot
      exact absurd hRun (hNot s')

/-- The owner schedules the process twice; the first main thread's guest exits at
once, and the second start task runs a new main thread. -/
def restartRun : List Action :=
  [.schedule 0, .schedule 0, .runTask 0 3 4 "", .exit 0, .ret, .ret, .runTask 0 3 4 ""]

theorem run_refines_lifecycle_restartRun :
    ∃ s s', Reachable s ∧ run s restartRun = some (.ok s') ∧ s.phase = .new ∧
      s'.phase = .running ∧ LifecycleRun restartRun s.phase s'.phase := by
  have hB := @Reachable.boot ⟨"/data"⟩ 1 0 0 .preload "host" (some "app") (some "/bin/app")
    [] [] _ rfl
  exact ⟨_, _, hB, rfl, by decide, by decide, run_refines_lifecycle restartRun hB rfl⟩

end ShadowProcess
