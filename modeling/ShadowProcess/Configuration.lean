import ShadowProcess.MainThread

/-! # What `process_new` fixes

`process_new` stores the host, the process id and name, the interposition
method, the plugin's name and path, the start and stop times and the argument
and environment vectors, and no function of `process.c` writes them again. Each
function has its frame lemma here, and `step_config` lifts them to the worker's
steps: the teardown argument uses it to know that every later `_process_start`
meets the interposition method `process_new` was given.
-/

namespace ShadowProcess

set_option autoImplicit false

open World

/-- The fields of `struct _Process` that `process_new` sets for good. -/
structure ProcessConfig where
  host : Host
  processID : Nat
  processName : String
  interposeMethod : InterposeMethod
  exeName : String
  exePath : String
  startTime : SimulationTime
  stopTime : SimulationTime
  argv : List String
  envv : List String
  deriving DecidableEq, Repr

def Process.config (p : Process) : ProcessConfig :=
  ⟨p.host, p.processID, p.processName, p.interposeMethod, p.exeName, p.exePath, p.startTime,
    p.stopTime, p.argv, p.envv⟩

/-! ## The writes of `process.c` leave the configuration alone -/

section Writes

variable (s : World)

@[simp] theorem config_log (e : Event) : (s.log e).proc.config = s.proc.config := rfl

@[simp] theorem config_setThread (t : Nat) (T : Thread) :
    (s.setThread t T).proc.config = s.proc.config := rfl

@[simp] theorem config_setWaiter (w : Nat) (W : ProcessWaiter) :
    (s.setWaiter w W).proc.config = s.proc.config := rfl

@[simp] theorem config_setListener (l : Nat) (L : DescriptorListener) :
    (s.setListener l L).proc.config = s.proc.config := rfl

@[simp] theorem config_push (f : Frame) : (s.push f).proc.config = s.proc.config := rfl

@[simp] theorem config_setStack (st : List Frame) : (s.setStack st).proc.config = s.proc.config :=
  rfl

@[simp] theorem config_setTasks (ts : List Task) : (s.setTasks ts).proc.config = s.proc.config :=
  rfl

@[simp] theorem config_setOwners (n : Nat) : (s.setOwners n).proc.config = s.proc.config := rfl

@[simp] theorem config_setNextWaiter (n : Nat) :
    (s.setNextWaiter n).proc.config = s.proc.config := rfl

@[simp] theorem config_setNextListener (n : Nat) :
    (s.setNextListener n).proc.config = s.proc.config := rfl

@[simp] theorem config_setActiveProcess (b : Bool) :
    (s.setActiveProcess b).proc.config = s.proc.config := rfl

@[simp] theorem config_setExecuting (b : Bool) : (s.setExecuting b).proc.config = s.proc.config :=
  rfl

@[simp] theorem config_setMainThread (t : Option Nat) :
    (s.setMainThread t).proc.config = s.proc.config := rfl

@[simp] theorem config_setReferenceCount (n : Int) :
    (s.setReferenceCount n).proc.config = s.proc.config := rfl

@[simp] theorem config_setDidLogReturnCode :
    s.setDidLogReturnCode.proc.config = s.proc.config := rfl

@[simp] theorem config_setThreadIDCounter (n : Nat) :
    (s.setThreadIDCounter n).proc.config = s.proc.config := rfl

@[simp] theorem config_setLogFiles (o e : Int) : (s.setLogFiles o e).proc.config = s.proc.config :=
  rfl

@[simp] theorem config_processLogReturnCode (code : Int) :
    (processLogReturnCode code s).proc.config = s.proc.config := by
  unfold processLogReturnCode
  split_ifs <;> rfl

@[simp] theorem config_processCheck : (processCheck s).proc.config = s.proc.config := by
  unfold processCheck
  split
  · rfl
  · split_ifs <;> simp [threadTerminate, threadUnref]

@[simp] theorem config_processFree : (processFree s).proc.config = s.proc.config := by
  rcases hMain : s.proc.mainThread with _ | t <;>
    simp only [processFree, hMain, apply_ite fun s : World => s.proc.config, config_log,
      threadTerminate, threadUnref, config_setMainThread, config_setThread, ite_self]

theorem config_processUnref {s' : World} (h : processUnref s = .ok s') :
    s'.proc.config = s.proc.config := by
  simp only [processUnref] at h
  split at h
  · cases h
  split at h <;> cases h <;> simp

theorem config_processUnrefWaiter (w : Nat) {s' : World} (h : processUnrefWaiter w s = .ok s') :
    s'.proc.config = s.proc.config := by
  simp only [processUnrefWaiter] at h
  split at h
  · cases h
  split at h <;> cases h
  · rcases (s.waiters w).thread <;> rcases (s.waiters w).timer <;>
      rcases (s.waiters w).descriptor <;> simp [threadUnref, descriptorUnref]
  · rfl

theorem config_listenerUnref (l : Nat) {s' : World} (h : listenerUnref l s = .ok s') :
    s'.proc.config = s.proc.config := by
  simp only [listenerUnref, descriptorListenerUnref] at h
  split_ifs at h
  · obtain ⟨s1, h1, h2⟩ := bind_eq_ok h
    rw [config_processUnrefWaiter _ _ h2, config_processUnref _ h1, config_setListener]
  · cases h
    rfl

theorem config_processDetachListener (d? l? : Option Nat) {s' : World}
    (h : processDetachListener d? l? s = .ok s') : s'.proc.config = s.proc.config := by
  rcases d? with _ | d <;> rcases l? with _ | l <;> simp only [processDetachListener] at h
  all_goals try (cases h; rfl)
  obtain ⟨s1, h1, h2⟩ := bind_eq_ok h
  cases h2
  simp only [removeListener, descriptorRemoveListener] at h1
  split_ifs at h1
  · exact (config_listenerUnref _ l h1).trans (config_setListener s l _)
  · cases h1
    rfl

theorem config_processReleaseListener (l? : Option Nat) {s' : World}
    (h : processReleaseListener l? s = .ok s') : s'.proc.config = s.proc.config := by
  rcases l? with _ | l
  · cases h
    rfl
  · exact config_listenerUnref s l h

@[simp] theorem config_readWaiter (w : Nat) (f : WaiterField) :
    (s.readWaiter w f).2.proc.config = s.proc.config := by
  unfold World.readWaiter
  split <;> rfl

@[simp] theorem config_processContinue (thread : Option Nat) :
    (processContinue thread s).proc.config = s.proc.config := by
  unfold processContinue
  split
  · split_ifs <;> simp [threadResume]
  · rfl

theorem config_processNotifyStatusChanged (w : Nat) {s' : World}
    (h : processNotifyStatusChanged w s = .ok s') : s'.proc.config = s.proc.config := by
  simp only [processNotifyStatusChanged] at h
  obtain ⟨s1, h1, h2⟩ := bind_eq_ok h
  obtain ⟨s2, h3, h4⟩ := bind_eq_ok h2
  cases h4
  rw [config_processContinue, config_push, config_log, config_readWaiter,
    config_processDetachListener _ _ _ h3, config_readWaiter, config_readWaiter,
    config_processDetachListener _ _ _ h1, config_readWaiter, config_readWaiter]

theorem config_processNotifyStatusChangedReturn (w : Nat) {s' : World}
    (h : processNotifyStatusChangedReturn w s = .ok s') : s'.proc.config = s.proc.config := by
  simp only [processNotifyStatusChangedReturn] at h
  obtain ⟨s1, h1, h2⟩ := bind_eq_ok h
  rw [config_processReleaseListener _ _ h2, config_readWaiter,
    config_processReleaseListener _ _ h1, config_readWaiter]

@[simp] theorem config_processInstallListener (w d : Nat) (status : DescriptorStatus)
    (store : ProcessWaiter → Nat → ProcessWaiter) :
    (processInstallListener w d status store s).proc.config = s.proc.config := rfl

@[simp] theorem config_processListenForStatus (thread timeout descriptor : Option Nat)
    (status : DescriptorStatus) :
    (processListenForStatus thread timeout descriptor status s).proc.config = s.proc.config := by
  unfold processListenForStatus
  split_ifs
  · rfl
  · rcases thread <;> rcases timeout <;> rcases descriptor <;>
      simp only [config_processInstallListener, config_log, config_setWaiter,
        config_setNextWaiter, threadRef, descriptorRef]

theorem config_processStart {fdOut fdErr : Int} {err : String} {s' : World}
    (h : processStart fdOut fdErr err s = .ok s') : s'.proc.config = s.proc.config := by
  unfold processStart at h
  by_cases hRun : processIsRunning s
  · rw [if_pos hRun] at h
    cases h
    rfl
  by_cases hOut : fdOut < 0
  · rw [if_neg hRun, if_pos hOut] at h
    cases h
  by_cases hErr : fdErr < 0
  · rw [if_neg hRun, if_neg hOut, if_pos hErr] at h
    cases h
  by_cases hSome : s.proc.mainThread.isSome
  · rw [if_neg hRun, if_neg hOut, if_neg hErr, if_pos hSome] at h
    cases h
  rw [if_neg hRun, if_neg hOut, if_neg hErr, if_neg hSome] at h
  simp only at h
  split at h
  · cases h
  · cases h
    simp only [config_push, threadRun, threadNew, config_log, config_setThread,
      config_setExecuting, config_setActiveProcess, config_setMainThread,
      config_setThreadIDCounter, config_setLogFiles]

@[simp] theorem config_processSchedule (now : SimulationTime) :
    (processSchedule now s).proc.config = s.proc.config := by
  unfold processSchedule
  dsimp only
  split_ifs <;> simp [scheduleTask, processRef]

@[simp] theorem config_processStop : (processStop s).proc.config = s.proc.config := by
  simp only [processStop]
  split <;> simp [threadTerminate, threadUnref]

end Writes

/-- No step of the worker changes what `process_new` fixed. -/
theorem step_config {s s' : World} {a : Action} (hStep : step s a = some (.ok s')) :
    s'.proc.config = s.proc.config := by
  generalize hr : (Except.ok s' : Except String World) = r at hStep
  cases step_eq_some_iff.mp hStep with
  | ownerRef | schedule | resume | listen | yield | exit =>
    cases hr
    simp [processRef, threadExit]
  | ownerUnref | retTask => exact (config_processUnref _ hr.symm).trans (by simp)
  | runTask i t fdOut fdErr err =>
    cases hK : t.kind <;> simp only [processRunTask, hK] at hr
    · exact (config_processStart _ hr.symm).trans (by simp)
    · cases hr
      simp
  | fire l => exact config_processNotifyStatusChanged _ _ hr.symm
  | retStart | retContinue =>
    cases hr
    simp [processStartReturn, processContinueReturn]
  | retNotify w => exact (config_processNotifyStatusChangedReturn _ w hr.symm).trans (by simp)

end ShadowProcess
