import ShadowProcess.Progress

/-! # The process's own resources

`process_new` takes a reference to the host; `_process_start` opens the two log
files and keeps their descriptors; `_process_free` releases the host and closes
the log files whose descriptors it finds. In every reachable world the events
of these resources are exactly the host reference and the creation, and, once
the process is freed, the host's release, the close of each valid log file of
the last `_process_start`, and the free. So the host reference is released once,
and a process started again after its main thread ended never closes the log
files its earlier starts opened.
-/

namespace ShadowProcess

set_option autoImplicit false

open World

/-- An event of the process's own resources: its host reference, its creation,
the close of a log file, and its free. -/
def Event.isOwn : Event → Bool
  | .hostRef | .hostUnref | .processNew | .processFree | .closeFd _ => true
  | _ => false

/-- What `_process_free` does to the process's own resources. -/
def freeEvents (p : Process) : List Event :=
  .hostUnref :: ((if 0 ≤ p.stderrFD then [.closeFd p.stderrFD] else []) ++
    (if 0 ≤ p.stdoutFD then [.closeFd p.stdoutFD] else [])) ++ [.processFree]

/-- The events of the process's own resources, in trace order. -/
def World.own (s : World) : List Event := s.trace.filter Event.isOwn

/-- `s'` is `s` after `_process_free` ran some number of times, as far as the
process's own resources go: the log files are the same, and each free added its
events. -/
def World.FreedOwn (s s' : World) : Prop :=
  s'.proc.stderrFD = s.proc.stderrFD ∧ s'.proc.stdoutFD = s.proc.stdoutFD ∧
    ∃ k, s'.own = s.own ++ (List.replicate k (freeEvents s.proc)).flatten

theorem freeEvents_congr {p p' : Process} (h1 : p'.stderrFD = p.stderrFD)
    (h2 : p'.stdoutFD = p.stdoutFD) : freeEvents p' = freeEvents p := by
  simp only [freeEvents, h1, h2]

@[simp] theorem count_processFree_freeEvents (p : Process) :
    (freeEvents p).count .processFree = 1 := by
  unfold freeEvents
  split_ifs <;> simp

theorem count_processFree_replicate (p : Process) (k : Nat) :
    ((List.replicate k (freeEvents p)).flatten).count .processFree = k := by
  induction k with
  | zero => rfl
  | succ k ih =>
    rw [List.replicate_succ, List.flatten_cons, List.count_append, ih,
      count_processFree_freeEvents, Nat.add_comm]

theorem own_log (s : World) (e : Event) :
    (s.log e).own = s.own ++ if e.isOwn then [e] else [] := by
  simp [World.own, List.filter_append, List.filter_cons]

namespace World.FreedOwn

variable {s s1 s2 : World}

theorem of_own (h : s1.own = s.own) (h1 : s1.proc.stderrFD = s.proc.stderrFD)
    (h2 : s1.proc.stdoutFD = s.proc.stdoutFD) : s.FreedOwn s1 :=
  ⟨h1, h2, 0, by simp [h]⟩

theorem refl (s : World) : s.FreedOwn s := of_own rfl rfl rfl

theorem trans (h : s.FreedOwn s1) (h' : s1.FreedOwn s2) : s.FreedOwn s2 := by
  obtain ⟨a1, b1, k1, hk1⟩ := h
  obtain ⟨a2, b2, k2, hk2⟩ := h'
  refine ⟨a2.trans a1, b2.trans b1, k1 + k2, ?_⟩
  rw [hk2, hk1, freeEvents_congr a1 b1, List.replicate_add, List.flatten_append,
    List.append_assoc]

end World.FreedOwn

/-! ## One lemma per function -/

section Functions

variable (s : World)

theorem freedOwn_processFree : s.FreedOwn (processFree s) := by
  refine ⟨?_, ?_, 1, ?_⟩
  all_goals rcases hMain : s.proc.mainThread with _ | t
  · simp only [processFree, hMain, apply_ite (fun s : World => s.proc.stderrFD), World.log,
      ite_self]
  · simp only [processFree, hMain, apply_ite (fun s : World => s.proc.stderrFD), World.log,
      threadTerminate, threadUnref, World.setMainThread, World.setThread, ite_self]
  · simp only [processFree, hMain, apply_ite (fun s : World => s.proc.stdoutFD), World.log,
      ite_self]
  · simp only [processFree, hMain, apply_ite (fun s : World => s.proc.stdoutFD), World.log,
      threadTerminate, threadUnref, World.setMainThread, World.setThread, ite_self]
  · by_cases h1 : 0 ≤ s.proc.stderrFD <;> by_cases h2 : 0 ≤ s.proc.stdoutFD <;>
      simp [processFree, hMain, World.own, freeEvents, h1, h2, List.filter_append, Event.isOwn]
  · by_cases hr : (s.threads t).running <;> by_cases h1 : 0 ≤ s.proc.stderrFD <;>
      by_cases h2 : 0 ≤ s.proc.stdoutFD <;>
      simp [processFree, hMain, hr, World.own, freeEvents, h1, h2, List.filter_append,
        Event.isOwn, threadTerminate, threadUnref]

theorem freedOwn_processUnref {s' : World} (h : processUnref s = .ok s') : s.FreedOwn s' := by
  simp only [processUnref] at h
  split at h
  · cases h
  split at h <;> cases h
  · exact (FreedOwn.refl _).trans (freedOwn_processFree _)
  · exact .refl _

theorem freedOwn_processUnrefWaiter (w : Nat) {s' : World} (h : processUnrefWaiter w s = .ok s') :
    s.FreedOwn s' := by
  simp only [processUnrefWaiter] at h
  split at h
  · cases h
  split at h <;> cases h
  · refine .of_own ?_ ?_ ?_ <;>
      rcases (s.waiters w).thread <;> rcases (s.waiters w).timer <;>
      rcases (s.waiters w).descriptor <;>
      simp [World.own, List.filter_append, Event.isOwn, threadUnref, descriptorUnref]
  · exact .refl _

theorem freedOwn_processReleaseListener (l? : Option Nat) {s' : World}
    (h : processReleaseListener l? s = .ok s') : s.FreedOwn s' := by
  rcases l? with _ | l
  · cases h
    exact .refl _
  simp only [processReleaseListener, listenerUnref, descriptorListenerUnref] at h
  split at h
  · obtain ⟨s1, h1, h2⟩ := bind_eq_ok h
    have h0 : s.FreedOwn (s.setListener l { s.listeners l with refs := 0, live := false }) :=
      .of_own rfl rfl rfl
    exact (h0.trans (freedOwn_processUnref _ h1)).trans (freedOwn_processUnrefWaiter _ _ h2)
  · cases h
    exact .refl _

theorem freedOwn_readWaiter (w : Nat) (f : WaiterField) : s.FreedOwn (s.readWaiter w f).2 := by
  unfold World.readWaiter
  split
  · exact .refl _
  · exact .of_own (by simp [own_log, Event.isOwn]) rfl rfl

theorem freedOwn_processNotifyStatusChangedReturn (w : Nat) {s' : World}
    (h : processNotifyStatusChangedReturn w s = .ok s') : s.FreedOwn s' := by
  change (processReleaseListener (s.readWaiter w .timerListener).1
      (s.readWaiter w .timerListener).2 >>= fun s1 =>
    processReleaseListener (s1.readWaiter w .descriptorListener).1
      (s1.readWaiter w .descriptorListener).2) = .ok s' at h
  obtain ⟨s1, h1, h2⟩ := bind_eq_ok h
  exact (((freedOwn_readWaiter s w _).trans (freedOwn_processReleaseListener _ _ h1)).trans
    (freedOwn_readWaiter s1 w _)).trans (freedOwn_processReleaseListener _ _ h2)

theorem own_processCheck : (processCheck s).own = s.own := by
  unfold processCheck processLogReturnCode
  split
  · rfl
  · split_ifs <;> simp [World.own, List.filter_append, Event.isOwn, threadTerminate, threadUnref]

theorem own_processStop : (processStop s).own = s.own := by
  unfold processStop
  dsimp only
  split <;> rw [own_processCheck] <;> simp [World.own, List.filter_append, Event.isOwn,
    threadTerminate, threadUnref]

theorem own_processContinue (thread : Option Nat) : (processContinue thread s).own = s.own := by
  unfold processContinue
  split
  · split
    · simp [World.own, List.filter_append, Event.isOwn, threadResume]
    · rfl
  · rfl

theorem own_processStart {fdOut fdErr : Int} {err : String} {s' : World}
    (h : processStart fdOut fdErr err s = .ok s') : s'.own = s.own := by
  unfold processStart at h
  by_cases hRun : processIsRunning s
  · rw [if_pos hRun] at h
    cases h
    rfl
  by_cases hOut : fdOut < 0
  · rw [if_neg hRun, if_pos hOut] at h
    cases h
  by_cases hErr : fdErr < 0
  · rw [if_neg hRun, if_neg hOut, if_pos hErr] at h
    cases h
  by_cases hSome : s.proc.mainThread.isSome
  · rw [if_neg hRun, if_neg hOut, if_neg hErr, if_pos hSome] at h
    cases h
  rw [if_neg hRun, if_neg hOut, if_neg hErr, if_neg hSome] at h
  simp only at h
  split at h
  · cases h
  · cases h
    simp [World.own, List.filter_append, Event.isOwn, threadNew, threadRun]

theorem own_processListenForStatus (thread timeout descriptor : Option Nat)
    (status : DescriptorStatus) :
    (processListenForStatus thread timeout descriptor status s).own = s.own := by
  rcases timeout with _ | a <;> rcases descriptor with _ | b
  · rfl
  all_goals rcases thread with _ | t <;>
    simp [processListenForStatus, processInstallListener, World.own, List.filter_append,
      Event.isOwn, threadRef, descriptorRef, descriptorListenerNew,
      descriptorListenerSetMonitorStatus, descriptorAddListener, processRef]

end Functions

/-! ## Every step -/

section Steps

variable {s s' : World}

/-- A free adds its events once at most: `_process_free` runs once. -/
theorem World.FreedOwn.cases (h : s.FreedOwn s') (hF : .processFree ∉ s.trace)
    (hOnce : s'.trace.count .processFree ≤ 1) :
    s'.own = s.own ∨ s'.own = s.own ++ freeEvents s.proc ∧
      s'.proc.stderrFD = s.proc.stderrFD ∧ s'.proc.stdoutFD = s.proc.stdoutFD := by
  obtain ⟨h1, h2, k, hk⟩ := h
  have hCount := congrArg (List.count Event.processFree) hk
  simp only [World.own, List.count_filter (show Event.isOwn .processFree from rfl),
    List.count_append, count_processFree_replicate, List.count_eq_zero.mpr hF] at hCount
  rcases k with _ | _ | k
  · exact .inl (by simpa using hk)
  · exact .inr ⟨by simpa using hk, h1, h2⟩
  · omega

theorem freedOwn_cases_of_step (hI' : s'.ledger.Inv s'.stack) (hF : .processFree ∉ s.trace)
    (s1 : World) (h1 : s1.own = s.own) (hp : s1.proc = s.proc) (h : s1.FreedOwn s') :
    s'.own = s.own ∨ s'.own = s.own ++ freeEvents s.proc ∧
      s'.proc.stderrFD = s.proc.stderrFD ∧ s'.proc.stdoutFD = s.proc.stdoutFD := by
  have hOnce : s'.trace.count .processFree ≤ 1 := by
    have := hI'.frees
    simp only [World.ledger] at this
    split_ifs at this <;> omega
  have hF1 : .processFree ∉ s1.trace := fun hm => hF (by
    have : .processFree ∈ s1.own := List.mem_filter.mpr ⟨hm, rfl⟩
    rw [h1] at this
    exact (List.mem_filter.mp this).1)
  rw [← h1, ← hp]
  exact h.cases hF1 hOnce

/-- Each step leaves the process's own resources alone, or runs `_process_free`,
which adds its events and keeps the log files. -/
theorem step_own (hI : s.ledger.Inv s.stack) (hF : .processFree ∉ s.trace) {a : Action}
    (hStep : step s a = some (.ok s')) :
    s'.own = s.own ∨ s'.own = s.own ++ freeEvents s.proc ∧
      s'.proc.stderrFD = s.proc.stderrFD ∧ s'.proc.stdoutFD = s.proc.stdoutFD := by
  have hI' := step_inv hI hStep
  generalize hr : (Except.ok s' : Except String World) = r at hStep
  cases step_eq_some_iff.mp hStep with
  | ownerRef =>
    cases hr
    exact .inl rfl
  | ownerUnref =>
    exact freedOwn_cases_of_step hI' hF (s.setOwners (s.owners - 1)) rfl rfl
      (freedOwn_processUnref _ hr.symm)
  | schedule now =>
    cases hr
    exact .inl (by simp only [World.own, (mainView_processSchedule now s).2.1])
  | runTask i t fdOut fdErr err hEmpty hT =>
    left
    cases hK : t.kind <;> simp only [processRunTask, hK] at hr
    · exact own_processStart ((s.setTasks (s.tasks.eraseIdx i)).push (.task t)) hr.symm
    · cases hr
      exact own_processStop ((s.setTasks (s.tasks.eraseIdx i)).push (.task t))
  | resume =>
    cases hr
    exact .inl (own_processContinue s none)
  | fire l hPoint hCan =>
    obtain ⟨-, hArmed⟩ := hI.armed_of_canFire hCan
    obtain ⟨s'', hOk, -, -, X, rfl⟩ := processNotifyStatusChanged_of_armed s _
      (by simpa using hArmed.live) hArmed.timer.sideArmed hArmed.descriptor.sideArmed
      hArmed.listeners_ne
    rw [hOk] at hr
    cases hr
    left
    rw [own_processContinue]
    simp [World.own, List.filter_append, Event.isOwn]
  | listen t rest timer descriptor status hSt =>
    cases hr
    exact .inl (own_processListenForStatus _ _ _ _ _)
  | yield t rest hSt =>
    cases hr
    exact .inl rfl
  | exit t rest code hSt =>
    cases hr
    exact .inl (by simp [World.own, threadExit, List.filter_append, Event.isOwn])
  | retTask t rest hSt =>
    exact freedOwn_cases_of_step hI' hF (s.setStack rest) rfl rfl
      (freedOwn_processUnref _ hr.symm)
  | retStart rest hSt =>
    cases hr
    exact .inl (own_processCheck _)
  | retContinue rest hSt =>
    cases hr
    exact .inl (own_processCheck _)
  | retNotify w rest hSt =>
    exact freedOwn_cases_of_step hI' hF (s.setStack rest) rfl rfl
      (freedOwn_processNotifyStatusChangedReturn _ w hr.symm)

end Steps

/-- What the resource events of a world are. -/
def World.OwnOk (s : World) : Prop :=
  s.own = [.hostRef, .processNew] ++ if .processFree ∈ s.trace then freeEvents s.proc else []

theorem processFree_mem_own {s : World} : .processFree ∈ s.own ↔ .processFree ∈ s.trace := by
  simp [World.own, Event.isOwn]

theorem step_ownOk {s s' : World} {a : Action} (hI : s.ledger.Inv s.stack) (h : s.OwnOk)
    (hStep : step s a = some (.ok s')) : s'.OwnOk := by
  have hF : .processFree ∉ s.trace := fun hF => by
    simp [step_eq_none_of_freed hI hF a] at hStep
  unfold World.OwnOk at h ⊢
  rw [if_neg hF, List.append_nil] at h
  rcases step_own hI hF hStep with hEq | ⟨hEq, h1, h2⟩
  · have hF' : .processFree ∉ s'.trace := by
      rw [← processFree_mem_own, hEq, h]
      simp
    rw [if_neg hF', hEq, h, List.append_nil]
  · have hF' : .processFree ∈ s'.trace := by
      rw [← processFree_mem_own, hEq]
      simp [freeEvents]
    rw [if_pos hF', hEq, h, freeEvents_congr h1 h2]

theorem reachable_ownOk {s : World} (hR : Reachable s) : s.OwnOk := by
  induction hR with
  | boot h =>
    obtain ⟨_, _, -, -, rfl⟩ := processNew_eq_ok h
    simp [World.OwnOk, World.own, newProcessWorld, Event.isOwn]
  | step hR hStep ih => exact step_ownOk (reachable_inv hR) ih hStep

/-- The process's own resources over every reachable world: `process_new` took
the host reference; nothing is released until `_process_free`, which releases the
host once and closes the log files of the last `_process_start` that are open,
stderr first, and then frees the process. -/
theorem own_resources {s : World} (hR : Reachable s) :
    s.trace.filter Event.isOwn = [.hostRef, .processNew] ++
      if .processFree ∈ s.trace then freeEvents s.proc else [] :=
  reachable_ownOk hR

/-- The process is started, its guest exits, it is started again with other log
files, that guest exits too, and the owner drops it: the log files of the first
start are never closed. -/
def restartFreeRun : List Action :=
  [.schedule 0, .schedule 0, .runTask 0 3 4 "", .exit 0, .ret, .ret, .runTask 0 5 6 "", .exit 0,
    .ret, .ret, .ownerUnref]

theorem own_resources_restartFreeRun :
    ∃ s, Reachable s ∧ .threadRun 0 [] [] 4 3 ∈ s.trace ∧ .closeFd 3 ∉ s.trace ∧
      .closeFd 4 ∉ s.trace ∧
      s.trace.filter Event.isOwn = [.hostRef, .processNew] ++
        if .processFree ∈ s.trace then freeEvents s.proc else [] := by
  have hR := reachable_run restartFreeRun
    (@Reachable.boot ⟨"/data"⟩ 1 0 0 .preload "host" (some "app") (some "/bin/app") [] [] _ rfl)
    rfl
  exact ⟨_, hR, by decide, by decide, by decide, own_resources hR⟩

end ShadowProcess
