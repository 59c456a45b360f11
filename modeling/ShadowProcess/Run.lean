import ShadowProcess.Notify

/-! # The invariant along every run

Each action of the worker machine, in a world that satisfies the invariant,
keeps it; the actions other than the start task cannot abort. Together with the
world `process_new` builds, this gives the invariant in every reachable world.
-/

namespace ShadowProcess

set_option autoImplicit false

open World Ledger

section Frame

variable (s : World)

@[simp] theorem ledger_owners : s.ledger.owners = s.owners := rfl

@[simp] theorem ledger_queued : s.ledger.queued = s.tasks.length := rfl

@[simp] theorem ledger_setOwners (n : Nat) :
    (s.setOwners n).ledger = { s.ledger with owners := n } := rfl

@[simp] theorem ledger_setTasks (ts : List Task) :
    (s.setTasks ts).ledger = { s.ledger with queued := ts.length } := rfl

@[simp] theorem processLogReturnCode_stack (code : Int) :
    (processLogReturnCode code s).stack = s.stack := by
  unfold processLogReturnCode
  split
  · rfl
  · split <;> rfl

@[simp] theorem processCheck_stack : (processCheck s).stack = s.stack := by
  unfold processCheck
  split
  · rfl
  · split <;> simp [threadTerminate, threadUnref]

@[simp] theorem processStop_stack : (processStop s).stack = s.stack := by
  simp only [processStop]
  split <;> simp [threadTerminate, threadUnref]

@[simp] theorem processStartReturn_stack : (processStartReturn s).stack = s.stack := by
  simp [processStartReturn]

@[simp] theorem processContinueReturn_stack : (processContinueReturn s).stack = s.stack := by
  simp [processContinueReturn]

@[simp] theorem threadExit_stack (t : Nat) (code : Int) : (s.threadExit t code).stack = s.stack :=
  rfl

theorem ledger_scheduleTask (k : TaskKind) (now d : SimulationTime) :
    (s.scheduleTask k now d).ledger = { s.ledger with queued := s.ledger.queued + 1 } := by
  simp [scheduleTask]

@[simp] theorem processSchedule_stack (now : SimulationTime) :
    (processSchedule now s).stack = s.stack := by
  unfold processSchedule
  dsimp only
  split_ifs <;> rfl

/-- `process_schedule` posts each task with a process reference. -/
theorem processSchedule_inv (now : SimulationTime) (h : s.ledger.Inv [])
    (hPos : 0 < s.proc.referenceCount) : (processSchedule now s).ledger.Inv [] := by
  have hPost : ∀ (s : World) (k : TaskKind) (d : SimulationTime), s.ledger.Inv [] →
      0 < s.proc.referenceCount → ((processRef s).scheduleTask k now d).ledger.Inv [] ∧
        0 < ((processRef s).scheduleTask k now d).proc.referenceCount := fun s k d h hPos => by
    rw [ledger_scheduleTask, ledger_processRef]
    exact ⟨h.post hPos, by simp [scheduleTask, processRef]; omega⟩
  unfold processSchedule
  dsimp only
  split_ifs
  · exact (hPost _ _ _ (hPost _ _ _ h hPos).1 (hPost _ _ _ h hPos).2).1
  · exact (hPost _ _ _ h hPos).1
  · exact (hPost _ _ _ h hPos).1
  · exact h

end Frame

/-! ## The waiter callbacks in a world -/

theorem Ledger.SideOk.sideArmed {L : Ledger} {w : Nat} {d? l? : Option Nat}
    (h : L.SideOk .armed w d? l?) :
    SideArmed L.listeners d? l? :=
  ⟨h.1, fun d l hd hl => by obtain ⟨-, -, hA, hR, -⟩ := h.2 d l hd hl; exact ⟨hA, hR⟩⟩

theorem Ledger.WaiterOk.listeners_ne {L : Ledger} {st : List Frame} {w : Nat} {p : Phase}
    (hw : L.WaiterOk st w p) (a b : Nat) (hT : (L.waiters w).timerListener = some a)
    (hD : (L.waiters w).descriptorListener = some b) : a ≠ b := by
  simpa [ProcessWaiter.installed, hT, hD] using hw.distinct

/-- A listener the descriptor layer can fire belongs to an armed waiter. -/
theorem Ledger.Inv.armed_of_canFire {s : World} (h : s.ledger.Inv s.stack) {l : Nat}
    (hCan : s.canFire l) :
    (s.listeners l).argument < s.nextWaiter ∧
      s.ledger.WaiterOk s.stack (s.listeners l).argument .armed := by
  simp only [canFire, Bool.and_eq_true, decide_eq_true_eq] at hCan
  obtain ⟨⟨⟨hlt, hAtt⟩, -⟩, -⟩ := hCan
  obtain ⟨hw, hMem⟩ := h.owner l hlt
  obtain ⟨p, hp⟩ := h.waiter _ hw
  obtain ⟨-, -, d, hOk⟩ := hp.listener hMem
  cases p with
  | armed => exact ⟨hw, hp⟩
  | notifying => rw [show (s.listeners l).attachedTo = none from hOk.1] at hAtt; cases hAtt
  | done => rw [show (s.listeners l).attachedTo = none from hOk.1] at hAtt; cases hAtt

theorem fire_inv {s : World} (h : s.ledger.Inv s.stack) {l : Nat} (hPoint : s.atEventPoint)
    (hCan : s.canFire l) :
    ∃ s', processNotifyStatusChanged (s.listeners l).argument s = .ok s' ∧
      s'.ledger.Inv s'.stack := by
  obtain ⟨hw, hArmed⟩ := h.armed_of_canFire hCan
  obtain ⟨s', hOk, hL, hS, -⟩ := processNotifyStatusChanged_of_armed s _
    (by simpa using hArmed.live) hArmed.timer.sideArmed hArmed.descriptor.sideArmed
    hArmed.listeners_ne
  have hTop : StackOk (.notifyReturn (s.listeners l).argument :: s.stack) := by
    refine h.nested.cons (fun g hg => ?_) (fun _ => rfl)
    rcases hSt : s.stack with _ | ⟨f, rest⟩
    · rw [hSt] at hg; cases hg
    · rw [hSt, List.head?_cons, Option.mem_some_iff] at hg
      subst hg
      cases f <;> simp_all [atEventPoint, Frame.sitsOn]
  have hInv := h.notify hw hArmed hTop
  refine ⟨s', hOk, ?_⟩
  rw [hL]
  rcases hS with hS | ⟨t, hS⟩
  · rw [hS]; exact hInv
  · rw [hS]
    refine hInv.push [.guest t, .continueReturn] ?_ (by simp [Frame.isTask]) fun hLast => ?_
    · exact (hTop.cons (by simp [Frame.sitsOn]) (by simp)).cons (by simp [Frame.sitsOn]) (by simp)
    · exact hInv.bottom (by simpa using hLast)

theorem notifyReturn_inv {s : World} {w : Nat} (h : s.ledger.Inv (.notifyReturn w :: s.stack)) :
    ∃ s', processNotifyStatusChangedReturn w s = .ok s' ∧ s'.ledger.Inv s'.stack := by
  obtain ⟨-, hw⟩ := h.phase_of_frame (List.mem_cons_self _ _)
  have hRefs := hw.installed_le_refs h
  obtain ⟨h1, h2⟩ := hw.canRelease hRefs
  obtain ⟨s', hOk, hL, hS⟩ := processNotifyStatusChangedReturn_of_canRelease s w h1 h2
  refine ⟨s', hOk, ?_⟩
  rw [hL, hS]
  exact h.retire (notifyReturn_retires hw hRefs)

/-! ## Runs -/

theorem ownerMayAct_iff (s : World) : s.ownerMayAct = true ↔ s.stack = [] ∧ 0 < s.owners := by
  simp [ownerMayAct]

theorem processNew_inv {host : Host} {processID : Nat} {startTime stopTime : SimulationTime}
    {interposeMethod : InterposeMethod} {hostName : String} {pluginName pluginPath : Option String}
    {envv argv : List String} {s : World}
    (h : processNew host processID startTime stopTime interposeMethod hostName pluginName pluginPath
      envv argv = .ok s) : s.ledger.Inv s.stack := by
  obtain ⟨_, _, -, -, rfl⟩ := processNew_eq_ok h
  refine ⟨fun w hw => absurd hw (Nat.not_lt_zero w), fun w _ => ⟨?_, List.not_mem_nil _⟩,
    fun l hl => absurd hl (Nat.not_lt_zero l), rfl, rfl,
    ⟨List.chain'_nil, by simp [newProcessWorld]⟩,
    fun hLast => by cases hLast⟩
  simp [World.ledger, newProcessWorld, waiterEvents, Event.waiter?]

/-- What a step from a world satisfying the invariant gives: a world that
satisfies it, or the abort of `_process_start` in a start task. -/
def StepOutcome (s : World) (a : Action) : Except String World → Prop
  | .ok s' => s'.ledger.Inv s'.stack
  | .error e => ∃ i fdOut fdErr err t, a = .runTask i fdOut fdErr err ∧ s.tasks[i]? = some t ∧
      t.kind = .start ∧
      processStart fdOut fdErr err ((s.setTasks (s.tasks.eraseIdx i)).push (.task t)) = .error e

theorem step_spec {s : World} {a : Action} {r : Except String World} (h : s.ledger.Inv s.stack)
    (hStep : step s a = some r) : StepOutcome s a r := by
  cases step_eq_some_iff.mp hStep with
  | ownerRef hEmpty hO =>
    rw [hEmpty] at h
    simpa [StepOutcome, processRef, hEmpty] using h.ownerRef hO
  | ownerUnref hEmpty hO =>
    rw [hEmpty] at h
    have hPos : 0 < (s.setOwners (s.owners - 1)).proc.referenceCount := by
      have := h.refs; simp at this ⊢; omega
    obtain ⟨s'', hOk, hL, hS⟩ := processUnref_of_pos _ hPos
    simp only [hOk, StepOutcome, hL, hS]
    simpa [hEmpty] using h.ownerUnref hO
  | schedule now hEmpty hO =>
    rw [hEmpty] at h
    simp only [StepOutcome, processSchedule_stack, hEmpty]
    exact processSchedule_inv s now h (by have := h.refs; simp at this; omega)
  | runTask i t fdOut fdErr err hEmpty hT =>
    have hi : i < s.tasks.length := (List.getElem?_eq_some_iff.mp hT).1
    have h1 : ((s.setTasks (s.tasks.eraseIdx i)).push (.task t)).ledger.Inv [.task t] := by
      rw [hEmpty] at h
      simpa [List.length_eraseIdx_of_lt hi] using h.runTask (by simpa using Nat.zero_lt_of_lt hi) t
    cases hK : t.kind <;> simp only [processRunTask]
    · rcases hStart :
        processStart fdOut fdErr err ((s.setTasks (s.tasks.eraseIdx i)).push (.task t)) with e | s'
      · exact ⟨i, fdOut, fdErr, err, t, rfl, hT, hK, hStart⟩
      obtain ⟨hL, rfl | ⟨u, hS⟩⟩ := processStart_ok _ hStart
      · simpa [StepOutcome, hEmpty] using h1
      · simp only [StepOutcome, hL, hS, push_stack, setTasks_stack, hEmpty]
        refine h1.push [.guest u, .startReturn] ?_ (by simp [Frame.isTask]) fun hLast => ?_
        · exact (h1.nested.cons (by simp [Frame.sitsOn]) (by simp)).cons
            (by simp [Frame.sitsOn]) (by simp)
        · simp at hLast
    · simpa [StepOutcome, hEmpty] using h1
  | resume hEmpty hO =>
    simp only [StepOutcome, ledger_processContinue]
    rcases processContinue_stack s none with hS | ⟨t, hS⟩
    · rw [hS]; exact h
    · rw [hS, hEmpty]
      rw [hEmpty] at h
      refine h.push [.guest t, .continueReturn] ?_ (by simp [Frame.isTask]) fun _ => hO
      exact (h.nested.cons (by simp) (by simp [Frame.isBottom])).cons (by simp [Frame.sitsOn])
        (by simp)
  | fire l hPoint hCan =>
    obtain ⟨s'', hOk, hInv⟩ := fire_inv h hPoint hCan
    simpa only [hOk] using hInv
  | listen t rest timer descriptor status hSt =>
    simp only [StepOutcome, ledger_processListenForStatus, stack_processListenForStatus]
    exact h.listen (h.refs_pos (by simp [hSt])) _ _ _ _
  | yield t rest hSt =>
    rw [hSt] at h
    exact h.pop rfl (by simp)
  | exit t rest code hSt =>
    rw [hSt] at h
    simpa [StepOutcome] using h.pop rfl (by simp)
  | retTask t rest hSt =>
    rw [hSt] at h
    obtain ⟨s'', hOk, hL, hS⟩ :=
      processUnref_of_pos (s.setStack rest) (h.refs_pos (List.cons_ne_nil _ _))
    simp only [hOk, StepOutcome, hL, hS]
    exact h.retTask
  | retStart rest hSt =>
    rw [hSt] at h
    simpa [StepOutcome] using h.pop rfl (by simp)
  | retContinue rest hSt =>
    rw [hSt] at h
    simpa [StepOutcome] using h.pop rfl (by simp)
  | retNotify w rest hSt =>
    rw [hSt] at h
    obtain ⟨s'', hOk, hInv⟩ := notifyReturn_inv (s := s.setStack rest) h
    simpa only [hOk] using hInv

/-- Every step that does not abort keeps the invariant. -/
theorem step_inv {s s' : World} {a : Action} (h : s.ledger.Inv s.stack)
    (hStep : step s a = some (.ok s')) : s'.ledger.Inv s'.stack :=
  step_spec h hStep

theorem reachable_inv {s : World} (h : Reachable s) : s.ledger.Inv s.stack := by
  induction h with
  | boot h => exact processNew_inv h
  | step _ hStep ih => exact step_inv ih hStep

/-- The world after the actions `as`, unless one of them is not possible; an
abort ends the run. -/
def run (s : World) : List Action → Option (Except String World)
  | [] => some (.ok s)
  | a :: as =>
    match step s a with
    | some (.ok s') => run s' as
    | r => r

theorem reachable_run {s s' : World} (as : List Action) (h : Reachable s)
    (hRun : run s as = some (.ok s')) : Reachable s' := by
  induction as generalizing s with
  | nil =>
    cases hRun
    exact h
  | cons a as ih =>
    simp only [run] at hRun
    split at hRun
    · exact ih (h.step ‹_›) hRun
    · rename_i hNot
      exact absurd hRun (hNot s')

/-- The owner schedules the process; the start task fires and the guest yields
at once. -/
def startRun : List Action :=
  [.schedule 0, .runTask 0 3 4 "", .yield, .ret, .ret]

end ShadowProcess
