import ShadowProcess.Lifecycle

/-! # The worker's active-process slot

`_process_start`, `process_continue` and `process_stop` set the worker's active
process before they enter guest code and clear it before they return; no other
function of `process.c` touches it. So whenever no burst of guest code is in
progress, that is no `_process_start` or `process_continue` waits for its
guest, the slot is clear: in the event loop, in a task whose `_process_start`
returned at once, and in a callback whose `process_continue` resumed nothing.
-/

namespace ShadowProcess

set_option autoImplicit false

open World

/-- `_process_start` or `process_continue` waiting for its guest. -/
def Frame.awaitsGuest : Frame → Bool
  | .startReturn | .continueReturn => true
  | _ => false

/-- A burst of guest code is in progress. -/
def World.inBurst (s : World) : Bool := s.stack.any Frame.awaitsGuest

/-- The slot is clear outside bursts. -/
def World.SlotOk (s : World) : Prop := s.inBurst = false → s.activeProcess = false

/-! ## Functions that keep the slot -/

section Keep

variable (s : World)

theorem processCheck_activeProcess : (processCheck s).activeProcess = s.activeProcess := by
  unfold processCheck processLogReturnCode
  split
  · rfl
  · split_ifs <;> rfl

theorem processFree_activeProcess : (processFree s).activeProcess = s.activeProcess := by
  rcases hMain : s.proc.mainThread with _ | t <;>
    simp only [processFree, hMain, apply_ite World.activeProcess, World.log, threadTerminate,
      threadUnref, World.setMainThread, World.setThread, ite_self]

theorem processUnref_activeProcess {s' : World} (h : processUnref s = .ok s') :
    s'.activeProcess = s.activeProcess := by
  simp only [processUnref] at h
  split at h
  · cases h
  split at h <;> cases h
  · exact processFree_activeProcess _
  · rfl

theorem processUnrefWaiter_activeProcess (w : Nat) {s' : World}
    (h : processUnrefWaiter w s = .ok s') : s'.activeProcess = s.activeProcess := by
  simp only [processUnrefWaiter] at h
  split at h
  · cases h
  split at h <;> cases h
  · rcases (s.waiters w).thread <;> rcases (s.waiters w).timer <;>
      rcases (s.waiters w).descriptor <;>
      simp only [World.log, threadUnref, descriptorUnref, World.setWaiter]
  · rfl

theorem listenerUnref_activeProcess (l : Nat) {s' : World} (h : listenerUnref l s = .ok s') :
    s'.activeProcess = s.activeProcess := by
  simp only [listenerUnref, descriptorListenerUnref] at h
  split at h
  · obtain ⟨s1, h1, h2⟩ := bind_eq_ok h
    rw [processUnrefWaiter_activeProcess _ _ h2, processUnref_activeProcess _ h1]
    rfl
  · cases h
    rfl

theorem processReleaseListener_activeProcess (l? : Option Nat) {s' : World}
    (h : processReleaseListener l? s = .ok s') : s'.activeProcess = s.activeProcess := by
  rcases l? with _ | l
  · cases h
    rfl
  · exact listenerUnref_activeProcess s l h

theorem readWaiter_activeProcess (w : Nat) (f : WaiterField) :
    (s.readWaiter w f).2.activeProcess = s.activeProcess := by
  unfold World.readWaiter
  split <;> rfl

theorem processNotifyStatusChangedReturn_activeProcess (w : Nat) {s' : World}
    (h : processNotifyStatusChangedReturn w s = .ok s') : s'.activeProcess = s.activeProcess := by
  change (processReleaseListener (s.readWaiter w .timerListener).1
      (s.readWaiter w .timerListener).2 >>= fun s1 =>
    processReleaseListener (s1.readWaiter w .descriptorListener).1
      (s1.readWaiter w .descriptorListener).2) = .ok s' at h
  obtain ⟨s1, h1, h2⟩ := bind_eq_ok h
  calc s'.activeProcess
      = (s1.readWaiter w .descriptorListener).2.activeProcess :=
        processReleaseListener_activeProcess _ _ h2
    _ = s1.activeProcess := readWaiter_activeProcess s1 w _
    _ = (s.readWaiter w .timerListener).2.activeProcess :=
        processReleaseListener_activeProcess _ _ h1
    _ = s.activeProcess := readWaiter_activeProcess s w _

theorem processSchedule_activeProcess (now : SimulationTime) :
    (processSchedule now s).activeProcess = s.activeProcess := by
  unfold processSchedule
  dsimp only
  split_ifs <;> rfl

/-- `process_stop` clears the slot it set. -/
theorem processStop_activeProcess : (processStop s).activeProcess = false := by
  unfold processStop
  dsimp only
  split <;> exact processCheck_activeProcess _

end Keep

/-! ## Every step keeps the slot clear outside bursts -/

theorem inBurst_cons (f : Frame) (st : List Frame) :
    (f :: st).any Frame.awaitsGuest = (f.awaitsGuest || st.any Frame.awaitsGuest) :=
  List.any_cons

/-- Guest code runs inside a burst: its frame sits on `_process_start` or
`process_continue`. -/
theorem inBurst_of_guest {s : World} (hI : s.ledger.Inv s.stack) {t : Nat} {rest : List Frame}
    (hSt : s.stack = .guest t :: rest) : rest.any Frame.awaitsGuest := by
  have hNext := (hSt ▸ hI.nested).checkNext_of_guest
  rcases rest with _ | ⟨f, rest⟩
  · cases hNext
  · cases f <;> simp_all [checkNext, Frame.awaitsGuest]

theorem step_slotOk {s s' : World} {a : Action} (hI : s.ledger.Inv s.stack) (h : s.SlotOk)
    (hStep : step s a = some (.ok s')) : s'.SlotOk := by
  generalize hr : (Except.ok s' : Except String World) = r at hStep
  unfold World.SlotOk World.inBurst at *
  cases step_eq_some_iff.mp hStep with
  | ownerRef hEmpty =>
    cases hr
    exact h
  | ownerUnref hEmpty =>
    intro _
    rw [processUnref_activeProcess _ hr.symm]
    exact h (by simp [hEmpty])
  | schedule now =>
    cases hr
    simpa only [processSchedule_stack, processSchedule_activeProcess] using h
  | runTask i t fdOut fdErr err hEmpty hT =>
    cases hK : t.kind <;> simp only [processRunTask, hK] at hr
    · rcases processStart_cases _ hr.symm with ⟨rfl, -⟩ | ⟨-, -, hSt, -⟩
      · exact fun _ => h (by simp [hEmpty])
      · simp [hSt, inBurst_cons, Frame.awaitsGuest]
    · cases hr
      exact fun _ => processStop_activeProcess _
  | resume =>
    cases hr
    rcases processContinue_cases s none with ⟨hEq, -⟩ | ⟨m, -, -, -, hSt, -⟩
    · rwa [hEq]
    · simp [hSt, inBurst_cons, Frame.awaitsGuest]
  | fire l hPoint hCan =>
    obtain ⟨-, hArmed⟩ := hI.armed_of_canFire hCan
    obtain ⟨s'', hOk, -, -, X, rfl⟩ := processNotifyStatusChanged_of_armed s _
      (by simpa using hArmed.live) hArmed.timer.sideArmed hArmed.descriptor.sideArmed
      hArmed.listeners_ne
    rw [hOk] at hr
    cases hr
    set s2 := ({ s with listeners := X }.log (.notify _ (s.waiters _).thread)).push
      (.notifyReturn (s.listeners l).argument)
    rcases processContinue_cases s2 (s.waiters _).thread with ⟨hEq, -⟩ | ⟨m, -, -, -, hSt, -⟩
    · rw [hEq]
      intro hOut
      exact h (by simpa [s2, inBurst_cons, Frame.awaitsGuest] using hOut)
    · simp [hSt, inBurst_cons, Frame.awaitsGuest]
  | listen t rest timer descriptor status hSt =>
    cases hr
    simp [stack_processListenForStatus, hSt, inBurst_cons, inBurst_of_guest hI hSt]
  | yield t rest hSt =>
    cases hr
    simp [inBurst_of_guest hI hSt]
  | exit t rest code hSt =>
    cases hr
    simp [threadExit_stack, inBurst_of_guest hI hSt]
  | retTask t rest hSt =>
    have hRest := (hSt ▸ hI.nested).eq_nil_of_task
    subst hRest
    intro _
    rw [processUnref_activeProcess _ hr.symm]
    exact h (by simp [hSt, Frame.awaitsGuest])
  | retStart rest hSt =>
    cases hr
    exact fun _ => processCheck_activeProcess _
  | retContinue rest hSt =>
    cases hr
    exact fun _ => processCheck_activeProcess _
  | retNotify w rest hSt =>
    intro hOut
    have hStack := (freesAtMost_processNotifyStatusChangedReturn _ w hr.symm).1
    rw [processNotifyStatusChangedReturn_activeProcess _ w hr.symm]
    exact h (by simpa [hSt, hStack, inBurst_cons, Frame.awaitsGuest] using hOut)

theorem reachable_slotOk {s : World} (hR : Reachable s) : s.SlotOk := by
  induction hR with
  | boot h =>
    obtain ⟨_, _, -, -, rfl⟩ := processNew_eq_ok h
    exact fun _ => rfl
  | step hR hStep ih => exact step_slotOk (reachable_inv hR) ih hStep

/-- Outside every burst of guest code the worker's active-process slot is
clear: each function that sets it clears it before returning, and guest code
only runs inside a burst. -/
theorem active_process_clear_outside_bursts {s : World} (hR : Reachable s)
    (hOut : s.inBurst = false) : s.activeProcess = false :=
  reachable_slotOk hR hOut

/-- Back in the event loop after the start task, the slot is clear (while
`plugin.isExecuting` is still set). -/
theorem active_process_clear_outside_bursts_startRun :
    ∃ s, Reachable s ∧ s.inBurst = false ∧ s.activeProcess = false := by
  have hR := reachable_run startRun
    (@Reachable.boot ⟨"/data"⟩ 1 0 0 .preload "host" (some "app") (some "/bin/app") [] [] _ rfl)
    rfl
  exact ⟨_, hR, by decide, active_process_clear_outside_bursts hR (by decide)⟩

end ShadowProcess
