import ShadowProcess.Run

/-! # What the main-thread invariants read

The main thread, the threads, the thread counter, the return-code latch, the
process name, and the lifecycle events of the trace: the thread calls the
process makes for itself, the ends of guest bursts and the return-code lines.
Each function of `process.c` changes this view as one operation of `MainView`
says; the waiter and reference functions leave it alone or apply
`_process_free` to it, at most once (`FreesAtMost`).
-/

namespace ShadowProcess

set_option autoImplicit false

open World

namespace Event

/-- A thread call the process makes for itself, the end of a guest burst, or a
return-code line. -/
def isLifecycle : Event → Bool
  | .threadNew .. | .threadRun .. | .threadResume _ | .guestExit .. | .threadTerminate .. => true
  | .threadUnref _ (.waiter _) => false
  | .threadUnref .. => true
  | .log .. | .pluginError => true
  | _ => false

/-- `e` ends the run of thread `t`: it is terminated, or its guest exits. -/
def stops (t : Nat) : Event → Bool
  | .threadTerminate u _ | .guestExit u _ => u == t
  | _ => false

/-- `e` drops the process's own reference to thread `t`. -/
def releases (t : Nat) : Event → Bool
  | .threadUnref _ (.waiter _) => false
  | .threadUnref u _ => u == t
  | _ => false

/-- A line of `_process_logReturnCode`. -/
def isReturnCodeLog : Event → Bool
  | .log .. | .pluginError => true
  | _ => false

theorem isLifecycle_of_stops {t : Nat} {e : Event} (h : e.stops t) : e.isLifecycle := by
  cases e with
  | threadTerminate | guestExit => rfl
  | _ => cases h

theorem isLifecycle_of_releases {t : Nat} {e : Event} (h : e.releases t) : e.isLifecycle := by
  cases e with
  | threadUnref u site => cases site <;> first | rfl | cases h
  | _ => cases h

theorem isLifecycle_of_isReturnCodeLog {e : Event} (h : e.isReturnCodeLog) : e.isLifecycle := by
  cases e with
  | log | pluginError => rfl
  | _ => cases h

end Event

/-- What `_process_logReturnCode` records for `code`: one line, and a plugin
error when the code is nonzero. -/
def returnCodeEvents (code : Int) (name : String) : List Event :=
  if code = 0 then [.log .message (returnCodeLine code name)]
  else [.log .warning (returnCodeLine code name), .pluginError]

/-- What the main-thread invariants read of a world, besides its stack and its
waiters. -/
structure MainView where
  mainThread : Option Nat
  threads : Nat → Thread
  threadIDCounter : Nat
  didLogReturnCode : Bool
  processName : String
  events : List Event

def World.mainView (s : World) : MainView where
  mainThread := s.proc.mainThread
  threads := s.threads
  threadIDCounter := s.proc.threadIDCounter
  didLogReturnCode := s.proc.didLogReturnCode
  processName := s.proc.processName
  events := s.trace.filter Event.isLifecycle

namespace MainView

@[simps]
def log (v : MainView) (e : Event) : MainView := { v with events := v.events ++ [e] }

/-- `thread_terminate`. -/
@[simps]
def terminate (v : MainView) (t : Nat) (site : Site) : MainView :=
  { v.log (.threadTerminate t site) with
    threads := Function.update v.threads t { v.threads t with running := false } }

/-- `thread_unref` of the main thread `t`, then `proc->mainThread = NULL`. -/
@[simps]
def release (v : MainView) (t : Nat) (site : Site) : MainView :=
  { v.log (.threadUnref t site) with mainThread := none }

/-- The guest of `t` exits with `code`. -/
@[simps]
def exit (v : MainView) (t : Nat) (code : Int) : MainView :=
  { v.log (.guestExit t code) with
    threads := Function.update v.threads t { running := false, returnCode := code } }

/-- `_process_logReturnCode`. -/
def logReturnCode (v : MainView) (code : Int) : MainView :=
  if v.didLogReturnCode then v
  else { v with events := v.events ++ returnCodeEvents code v.processName, didLogReturnCode := true }

/-- `_process_check`. -/
def check (v : MainView) : MainView :=
  match v.mainThread with
  | some t =>
    if (v.threads t).running then v
    else ((v.logReturnCode (v.threads t).returnCode).terminate t .check).release t .check
  | none => v

/-- The thread part of `_process_free`. -/
def free (v : MainView) : MainView :=
  match v.mainThread with
  | some t => (if (v.threads t).running then v.terminate t .free else v).release t .free
  | none => v

/-- `process_stop`, whose final check finds no main thread. -/
def stop (v : MainView) : MainView :=
  match v.mainThread with
  | some t => (v.terminate t .stop).release t .stop
  | none => v

/-- `_process_start` from the new thread to `thread_run`. -/
@[simps]
def start (v : MainView) (method : InterposeMethod) (argv envv : List String)
    (stderrFD stdoutFD : Int) : MainView :=
  let t := v.threadIDCounter
  { v with
    mainThread := some t
    threadIDCounter := t + 1
    threads := Function.update v.threads t { running := true }
    events := v.events ++ [.threadNew t method, .threadRun t argv envv stderrFD stdoutFD] }

/-- The lines `_process_logReturnCode` recorded. -/
def logs (v : MainView) : List Event := v.events.filter Event.isReturnCodeLog

/-- The releases of the process's own reference to thread `t`. -/
def released (v : MainView) (t : Nat) : Nat := v.events.countP (Event.releases t)

/-- Thread `t` was terminated, or its guest exited. -/
def Stopped (v : MainView) (t : Nat) : Prop := ∃ e ∈ v.events, e.stops t

theorem free_of_none {v : MainView} (h : v.mainThread = none) : v.free = v := by
  simp [free, h]

@[simp] theorem free_mainThread (v : MainView) : v.free.mainThread = none := by
  unfold free
  split <;> simp_all [release]

@[simp] theorem free_free (v : MainView) : v.free.free = v.free := free_of_none (free_mainThread v)

@[simp] theorem free_threadIDCounter (v : MainView) :
    v.free.threadIDCounter = v.threadIDCounter := by
  unfold free
  split
  · split <;> rfl
  · rfl

theorem check_of_none {v : MainView} (h : v.mainThread = none) : v.check = v := by
  simp [check, h]

@[simp] theorem stop_mainThread (v : MainView) : v.stop.mainThread = none := by
  unfold stop
  split <;> simp_all

@[simp] theorem stop_threadIDCounter (v : MainView) :
    v.stop.threadIDCounter = v.threadIDCounter := by
  unfold stop
  split <;> rfl

theorem check_mainThread (v : MainView) :
    v.check.mainThread = v.mainThread ∨ v.check.mainThread = none := by
  unfold check
  split
  · split
    · exact .inl rfl
    · exact .inr rfl
  · exact .inl rfl

section LogReturnCode

variable (v : MainView) (code : Int)

@[simp] theorem logReturnCode_mainThread : (v.logReturnCode code).mainThread = v.mainThread := by
  unfold logReturnCode; split <;> rfl

@[simp] theorem logReturnCode_threads : (v.logReturnCode code).threads = v.threads := by
  unfold logReturnCode; split <;> rfl

@[simp] theorem logReturnCode_threadIDCounter :
    (v.logReturnCode code).threadIDCounter = v.threadIDCounter := by
  unfold logReturnCode; split <;> rfl

@[simp] theorem logReturnCode_didLogReturnCode : (v.logReturnCode code).didLogReturnCode := by
  unfold logReturnCode; split <;> simp_all

end LogReturnCode

@[simp] theorem check_threadIDCounter (v : MainView) :
    v.check.threadIDCounter = v.threadIDCounter := by
  unfold check
  split
  · split <;> simp
  · rfl

end MainView

/-! ## One lemma per function -/

section Commute

variable (s : World)

@[simp] theorem threads_log (e : Event) : (s.log e).threads = s.threads := rfl

@[simp] theorem threads_setThread (t : Nat) (T : Thread) :
    (s.setThread t T).threads = Function.update s.threads t T := rfl

@[simp] theorem threads_setMainThread (m : Option Nat) : (s.setMainThread m).threads = s.threads :=
  rfl

@[simp] theorem threads_setDidLogReturnCode : s.setDidLogReturnCode.threads = s.threads := rfl

@[simp] theorem threads_push (f : Frame) : (s.push f).threads = s.threads := rfl

@[simp] theorem threads_setActiveProcess (b : Bool) : (s.setActiveProcess b).threads = s.threads :=
  rfl

@[simp] theorem threads_setExecuting (b : Bool) : (s.setExecuting b).threads = s.threads := rfl

@[simp] theorem threads_setLogFiles (o e : Int) : (s.setLogFiles o e).threads = s.threads := rfl

@[simp] theorem threads_setThreadIDCounter (n : Nat) :
    (s.setThreadIDCounter n).threads = s.threads := rfl

@[simp] theorem mainView_mainThread : s.mainView.mainThread = s.proc.mainThread := rfl

@[simp] theorem mainView_threads : s.mainView.threads = s.threads := rfl

@[simp] theorem mainView_threadIDCounter :
    s.mainView.threadIDCounter = s.proc.threadIDCounter := rfl

@[simp] theorem mainView_didLogReturnCode :
    s.mainView.didLogReturnCode = s.proc.didLogReturnCode := rfl

@[simp] theorem mainView_processName : s.mainView.processName = s.proc.processName := rfl

@[simp] theorem mainView_events : s.mainView.events = s.trace.filter Event.isLifecycle := rfl

@[simp] theorem mainView_log_of_not {e : Event} (h : e.isLifecycle = false) :
    (s.log e).mainView = s.mainView := by
  simp [World.mainView, h]

theorem mainView_log {e : Event} (h : e.isLifecycle = true) :
    (s.log e).mainView = s.mainView.log e := by
  simp [World.mainView, MainView.log, h]

@[simp] theorem mainView_setWaiter (w : Nat) (W : ProcessWaiter) :
    (s.setWaiter w W).mainView = s.mainView := rfl

@[simp] theorem mainView_setListener (l : Nat) (X : DescriptorListener) :
    (s.setListener l X).mainView = s.mainView := rfl

@[simp] theorem mainView_setNextWaiter (n : Nat) : (s.setNextWaiter n).mainView = s.mainView := rfl

@[simp] theorem mainView_setNextListener (n : Nat) :
    (s.setNextListener n).mainView = s.mainView := rfl

@[simp] theorem mainView_push (f : Frame) : (s.push f).mainView = s.mainView := rfl

@[simp] theorem mainView_setStack (st : List Frame) : (s.setStack st).mainView = s.mainView := rfl

@[simp] theorem mainView_setTasks (ts : List Task) : (s.setTasks ts).mainView = s.mainView := rfl

@[simp] theorem mainView_setOwners (n : Nat) : (s.setOwners n).mainView = s.mainView := rfl

@[simp] theorem mainView_setActiveProcess (b : Bool) :
    (s.setActiveProcess b).mainView = s.mainView := rfl

@[simp] theorem mainView_setExecuting (b : Bool) : (s.setExecuting b).mainView = s.mainView := rfl

@[simp] theorem mainView_setReferenceCount (n : Int) :
    (s.setReferenceCount n).mainView = s.mainView := rfl

@[simp] theorem mainView_processRef : (processRef s).mainView = s.mainView := rfl

@[simp] theorem mainView_withListeners (X : Nat → DescriptorListener) :
    ({ s with listeners := X } : World).mainView = s.mainView := rfl

@[simp] theorem mainView_threadRef (t : Nat) (site : Site) :
    (s.threadRef t site).mainView = s.mainView :=
  mainView_log_of_not s rfl

@[simp] theorem mainView_threadUnref_waiter (t w : Nat) :
    (s.threadUnref t (.waiter w)).mainView = s.mainView :=
  mainView_log_of_not s rfl

@[simp] theorem mainView_descriptorRef (d w : Nat) :
    (s.descriptorRef d w).mainView = s.mainView :=
  mainView_log_of_not s rfl

@[simp] theorem mainView_descriptorUnref (d w : Nat) :
    (s.descriptorUnref d w).mainView = s.mainView :=
  mainView_log_of_not s rfl

@[simp] theorem mainView_threadResume (t : Nat) :
    (s.threadResume t).mainView = s.mainView.log (.threadResume t) :=
  mainView_log s rfl

@[simp] theorem mainView_threadTerminate (t : Nat) (site : Site) :
    (s.threadTerminate t site).mainView = s.mainView.terminate t site := by
  simp [threadTerminate, World.mainView, MainView.terminate, MainView.log, Event.isLifecycle]

@[simp] theorem mainView_threadExit (t : Nat) (code : Int) :
    (s.threadExit t code).mainView = s.mainView.exit t code := by
  simp [threadExit, World.mainView, MainView.exit, MainView.log, Event.isLifecycle]

/-- `thread_unref` of the main thread by the process, which then forgets it. -/
theorem mainView_release (t : Nat) {site : Site} (h : ∀ w, site ≠ .waiter w) :
    ((s.threadUnref t site).setMainThread none).mainView = s.mainView.release t site := by
  cases site <;> simp_all [threadUnref, World.mainView, MainView.release, MainView.log,
    Event.isLifecycle]

@[simp] theorem mainView_processLogReturnCode (code : Int) :
    (processLogReturnCode code s).mainView = s.mainView.logReturnCode code := by
  unfold processLogReturnCode MainView.logReturnCode
  by_cases hLog : s.proc.didLogReturnCode
  · simp [hLog]
  · by_cases hCode : code = 0 <;>
      simp [hLog, hCode, World.mainView, returnCodeEvents, processGetName, Event.isLifecycle]

@[simp] theorem mainView_processCheck : (processCheck s).mainView = s.mainView.check := by
  unfold processCheck MainView.check
  rcases hMain : s.proc.mainThread with _ | t
  · simp [hMain]
  · by_cases hRun : (s.threads t).running
    · simp [hMain, hRun]
    · simp only [hMain, mainView_mainThread, mainView_threads, hRun, if_false, Bool.false_eq_true]
      rw [mainView_release _ t (fun w => by simp), mainView_threadTerminate,
        mainView_processLogReturnCode]

@[simp] theorem mainView_processStartReturn :
    (processStartReturn s).mainView = s.mainView.check := by
  simp [processStartReturn]

@[simp] theorem mainView_processContinueReturn :
    (processContinueReturn s).mainView = s.mainView.check := by
  simp [processContinueReturn]

theorem mainView_processStop : (processStop s).mainView = s.mainView.stop := by
  unfold processStop MainView.stop
  rcases hMain : s.proc.mainThread with _ | t
  · simp [hMain, MainView.check_of_none]
  · simp only [setExecuting_proc_mainThread, setActiveProcess_proc, hMain, mainView_processCheck,
      mainView_setActiveProcess, mainView_setExecuting, mainView_mainThread]
    rw [mainView_release _ t (fun w => by simp),
      MainView.check_of_none (by simp [MainView.release]), mainView_threadTerminate]
    rfl

theorem mainView_processFree : (processFree s).mainView = s.mainView.free := by
  unfold processFree MainView.free
  rcases hMain : s.proc.mainThread with _ | t
  · simp only [hMain, mainView_mainThread]
    split_ifs <;> simp [Event.isLifecycle]
  · simp only [hMain, mainView_mainThread, mainView_threads]
    split_ifs <;>
      simp [Event.isLifecycle,
        mainView_release _ t (fun w => by simp : ∀ w, Site.free ≠ .waiter w)]

@[simp] theorem mainView_readWaiter (w : Nat) (f : WaiterField) :
    (s.readWaiter w f).2.mainView = s.mainView := by
  unfold World.readWaiter
  split
  · rfl
  · exact mainView_log_of_not s rfl

theorem mainView_processInstallListener (w d : Nat) (status : DescriptorStatus)
    (store : ProcessWaiter → Nat → ProcessWaiter) :
    (processInstallListener w d status store s).mainView = s.mainView := rfl

theorem mainView_processListenForStatus (thread timeout descriptor : Option Nat)
    (status : DescriptorStatus) :
    (processListenForStatus thread timeout descriptor status s).mainView = s.mainView := by
  rcases timeout with _ | a <;> rcases descriptor with _ | b
  · rfl
  all_goals rcases thread with _ | t <;>
    simp [processListenForStatus, mainView_processInstallListener,
      mainView_log_of_not _ (rfl : Event.isLifecycle (.waiterNew _) = false)]

/-- `process_continue` resumes the given thread, or else the main thread, when
the main thread runs, and does nothing otherwise. -/
theorem processContinue_cases (thread : Option Nat) :
    processContinue thread s = s ∧
        (∀ m, s.proc.mainThread = some m → (s.threads m).running = false) ∨
      ∃ m, s.proc.mainThread = some m ∧ (s.threads m).running ∧
        (processContinue thread s).mainView = s.mainView.log (.threadResume (thread.getD m)) ∧
        (processContinue thread s).stack = .guest (thread.getD m) :: .continueReturn :: s.stack ∧
        (processContinue thread s).waiters = s.waiters ∧
        (processContinue thread s).nextWaiter = s.nextWaiter := by
  unfold processContinue
  rcases hMain : s.proc.mainThread with _ | m
  · exact .inl ⟨rfl, fun m h => by cases h⟩
  · by_cases hRun : (s.threads m).running
    · simp only [hRun, if_true]
      exact .inr ⟨m, rfl, hRun, by simp, by simp [threadResume],
        funext fun v => by simp [threadResume], by simp [threadResume]⟩
    · exact .inl ⟨by simp [hRun], fun m' h => by cases h; simpa using hRun⟩

/-- `_process_start` returns at once when the process runs; otherwise, with no
main thread, it makes thread `threadIDCounter` the main thread and runs it. -/
theorem processStart_cases {fdOut fdErr : Int} {err : String} {s' : World}
    (h : processStart fdOut fdErr err s = .ok s') :
    s' = s ∧ processIsRunning s ∨
      s.proc.mainThread = none ∧
        (∃ method, s'.mainView = s.mainView.start method s.proc.argv s.proc.envv fdErr fdOut) ∧
        s'.stack = .guest s.proc.threadIDCounter :: .startReturn :: s.stack ∧
        s'.waiters = s.waiters ∧ s'.nextWaiter = s.nextWaiter := by
  unfold processStart at h
  by_cases hRun : processIsRunning s
  · rw [if_pos hRun] at h
    cases h
    exact .inl ⟨rfl, hRun⟩
  by_cases hOut : fdOut < 0
  · rw [if_neg hRun, if_pos hOut] at h
    cases h
  by_cases hErr : fdErr < 0
  · rw [if_neg hRun, if_neg hOut, if_pos hErr] at h
    cases h
  by_cases hSome : s.proc.mainThread.isSome
  · rw [if_neg hRun, if_neg hOut, if_neg hErr, if_pos hSome] at h
    cases h
  rw [if_neg hRun, if_neg hOut, if_neg hErr, if_neg hSome] at h
  simp only at h
  split at h
  · cases h
  · cases h
    refine .inr ⟨by simpa using hSome, ⟨s.proc.interposeMethod, ?_⟩,
      by simp [threadRun, threadNew], funext fun v => by simp [threadRun, threadNew],
      by simp [threadRun, threadNew]⟩
    simp [World.mainView, MainView.start, threadNew, threadRun, Event.isLifecycle]

end Commute

/-! ## Waiter and reference functions -/

/-- `s'` is `s`, or `s` after `_process_free`, as far as the main thread is
concerned; the stack is the same and the waiters keep their threads. -/
def World.FreesAtMost (s s' : World) : Prop :=
  s'.stack = s.stack ∧ s'.nextWaiter = s.nextWaiter ∧ (∀ w, (s'.waiters w).thread = (s.waiters w).thread) ∧
    (s'.mainView = s.mainView ∧ s'.trace.count .processFree = s.trace.count .processFree ∨
      s'.mainView = s.mainView.free ∧ s.trace.count .processFree < s'.trace.count .processFree)

namespace World.FreesAtMost

variable {s s1 s2 : World}

theorem refl (s : World) : s.FreesAtMost s := ⟨rfl, rfl, fun _ => rfl, .inl ⟨rfl, rfl⟩⟩

theorem trans (h1 : s.FreesAtMost s1) (h2 : s1.FreesAtMost s2) : s.FreesAtMost s2 := by
  obtain ⟨hs1, hn1, hw1, hv1⟩ := h1
  obtain ⟨hs2, hn2, hw2, hv2⟩ := h2
  refine ⟨hs2.trans hs1, hn2.trans hn1, fun w => (hw2 w).trans (hw1 w), ?_⟩
  rcases hv1 with ⟨hv1, hc1⟩ | ⟨hv1, hc1⟩ <;>
    rcases hv2 with ⟨hv2, hc2⟩ | ⟨hv2, hc2⟩
  · exact .inl ⟨hv2.trans hv1, hc2.trans hc1⟩
  · exact .inr ⟨by rw [hv2, hv1], by omega⟩
  · exact .inr ⟨hv2.trans hv1, by omega⟩
  · exact .inr ⟨by rw [hv2, hv1, MainView.free_free], by omega⟩

/-- A change that touches neither the view, the waiters' threads nor the frees. -/
theorem of_eq (hs : s1.stack = s.stack) (hn : s1.nextWaiter = s.nextWaiter)
    (hw : ∀ w, (s1.waiters w).thread = (s.waiters w).thread) (hv : s1.mainView = s.mainView)
    (hc : s1.trace.count .processFree = s.trace.count .processFree) : s.FreesAtMost s1 :=
  ⟨hs, hn, hw, .inl ⟨hv, hc⟩⟩

end World.FreesAtMost

section Frees

variable (s : World)

theorem freesAtMost_processFree : s.FreesAtMost (processFree s) := by
  refine ⟨processFree_stack s, congrArg Ledger.nextWaiter (ledger_processFree s), fun w => ?_,
    .inr ⟨mainView_processFree s, ?_⟩⟩
  · have := congrArg Ledger.waiters (ledger_processFree s)
    simp only [ledger_waiters] at this
    rw [this]
  · have := congrArg Ledger.frees (ledger_processFree s)
    simp only [World.ledger] at this
    omega

theorem freesAtMost_log {e : Event} (hl : e.isLifecycle = false) (hf : e ≠ .processFree) :
    s.FreesAtMost (s.log e) :=
  .of_eq rfl rfl (fun _ => rfl) (mainView_log_of_not s hl) (by simp [List.count_singleton, hf])

theorem freesAtMost_processUnref {s' : World} (h : processUnref s = .ok s') : s.FreesAtMost s' := by
  simp only [processUnref] at h
  split at h
  · cases h
  split at h <;> cases h
  · exact (FreesAtMost.of_eq rfl rfl (fun _ => rfl) rfl rfl).trans (freesAtMost_processFree _)
  · exact .of_eq rfl rfl (fun _ => rfl) rfl rfl

/-- A waiter that keeps its thread. -/
@[simp] theorem update_thread (f : Nat → ProcessWaiter) (w v : Nat) {W : ProcessWaiter}
    (h : W.thread = (f w).thread) : (Function.update f w W v).thread = (f v).thread := by
  by_cases hv : v = w
  · subst hv
    simpa using h
  · simp [hv]

theorem freesAtMost_processUnrefWaiter (w : Nat) {s' : World}
    (h : processUnrefWaiter w s = .ok s') :
    s.FreesAtMost s' := by
  simp only [processUnrefWaiter] at h
  split at h
  · cases h
  split at h <;> cases h
  · rcases hT : (s.waiters w).thread <;> rcases (s.waiters w).timer <;>
      rcases (s.waiters w).descriptor <;>
      exact .of_eq (by simp [threadUnref, descriptorUnref]) (by simp [threadUnref, descriptorUnref])
        (fun v => by simp [threadUnref, descriptorUnref, update_thread, hT])
        (by simp [Event.isLifecycle]) (by simp [threadUnref, descriptorUnref])
  · exact .of_eq rfl rfl (fun v => by simp [update_thread]) rfl rfl

theorem bind_eq_ok {α β : Type} {x : Except String α} {f : α → Except String β} {r : β}
    (h : x >>= f = .ok r) : ∃ a, x = .ok a ∧ f a = .ok r := by
  cases x with
  | error e => cases h
  | ok a => exact ⟨a, rfl, h⟩

theorem freesAtMost_listenerUnref (l : Nat) {s' : World} (h : listenerUnref l s = .ok s') :
    s.FreesAtMost s' := by
  simp only [listenerUnref, descriptorListenerUnref] at h
  split at h
  · obtain ⟨s1, h1, h2⟩ := bind_eq_ok h
    exact ((FreesAtMost.of_eq rfl rfl (fun _ => rfl) rfl rfl).trans
      (freesAtMost_processUnref _ h1)).trans (freesAtMost_processUnrefWaiter _ _ h2)
  · cases h
    exact .of_eq rfl rfl (fun _ => rfl) rfl rfl

theorem freesAtMost_processReleaseListener (l? : Option Nat) {s' : World}
    (h : processReleaseListener l? s = .ok s') : s.FreesAtMost s' := by
  rcases l? with _ | l
  · cases h
    exact .refl s
  · exact freesAtMost_listenerUnref s l h

theorem freesAtMost_readWaiter (w : Nat) (f : WaiterField) :
    s.FreesAtMost (s.readWaiter w f).2 := by
  unfold World.readWaiter
  split
  · exact .refl s
  · exact freesAtMost_log s rfl (by simp)

/-- The second half of the callback releases the waiter's listeners: whatever
the waiter, it frees the process at most once. -/
theorem freesAtMost_processNotifyStatusChangedReturn (w : Nat) {s' : World}
    (h : processNotifyStatusChangedReturn w s = .ok s') : s.FreesAtMost s' := by
  change (processReleaseListener (s.readWaiter w .timerListener).1
      (s.readWaiter w .timerListener).2 >>= fun s1 =>
        processReleaseListener (s1.readWaiter w .descriptorListener).1
          (s1.readWaiter w .descriptorListener).2) = _ at h
  obtain ⟨s1, h1, h2⟩ := bind_eq_ok h
  exact (((freesAtMost_readWaiter s w _).trans (freesAtMost_processReleaseListener _ _ h1)).trans
    (freesAtMost_readWaiter s1 w _)).trans (freesAtMost_processReleaseListener _ _ h2)

end Frees

end ShadowProcess
