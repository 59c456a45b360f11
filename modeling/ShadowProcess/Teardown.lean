import ShadowProcess.Configuration
import ShadowProcess.Progress
import ShadowProcess.SingleFire
import ShadowProcess.ThreadRefs

/-! # The process can always be torn down

A process is held by its owners, by the tasks `process_schedule` posted and by
the listeners of its waiters. Only three actions add a holder: an owner's
`process_ref`, `process_schedule` and a guest's `process_listenForStatus`. From
every reachable world the other actions can release every holder: the stack
unwinds, each owner drops its reference, the scheduler runs every task, and the
descriptor layer fires one listener of every armed waiter, whose callback then
destroys both. The run ends in `_process_free`, provided the start task cannot
abort (the interposition method is known) and every listener in a descriptor's
table monitors some status; a listener that monitors no status never fires and
keeps the process forever.

The holders that can still let go are counted by `Ledger.pending`; every action
that adds no holder keeps the count from growing (`Ledger.Shrinks`), and each
round of the teardown lowers it.
-/

namespace ShadowProcess

set_option autoImplicit false

open World Ledger

/-- The actions that add a holder of the process. -/
def Action.addsHolder : Action → Bool
  | .ownerRef | .schedule _ | .listen .. => true
  | _ => false

namespace Ledger

/-- The listeners in a descriptor's table. -/
def attached (L : Ledger) : Nat :=
  (List.range L.nextListener).countP fun l => (L.listeners l).attachedTo.isSome

/-- The holders that can still release the process: owners, queued tasks and
listeners in a table. -/
def pending (L : Ledger) : Nat := L.owners + L.queued + L.attached

/-- `L'` has no holder that `L` did not have: no more owners or queued tasks,
no new listener, and every listener still in a table is untouched. -/
structure Shrinks (L L' : Ledger) : Prop where
  owners : L'.owners ≤ L.owners
  queued : L'.queued ≤ L.queued
  nextListener : L'.nextListener = L.nextListener
  attached : ∀ l, (L'.listeners l).attachedTo.isSome → L'.listeners l = L.listeners l

namespace Shrinks

variable {L L1 L2 : Ledger}

theorem refl (L : Ledger) : L.Shrinks L := ⟨le_rfl, le_rfl, rfl, fun _ _ => rfl⟩

theorem trans (h1 : L.Shrinks L1) (h2 : L1.Shrinks L2) : L.Shrinks L2 :=
  ⟨h2.owners.trans h1.owners, h2.queued.trans h1.queued, h2.nextListener.trans h1.nextListener,
    fun l hl => (h2.attached l hl).trans (h1.attached l (h2.attached l hl ▸ hl))⟩

theorem attached_le (h : L.Shrinks L1) : L1.attached ≤ L.attached := by
  unfold Ledger.attached
  rw [h.nextListener]
  exact List.countP_mono_left fun l _ hl => by simpa [h.attached l hl] using hl

theorem pending_le (h : L.Shrinks L1) : L1.pending ≤ L.pending := by
  have := h.attached_le
  have := h.owners
  have := h.queued
  unfold pending
  omega

/-- A listener taken out of its table lowers the count of attached listeners. -/
theorem attached_lt (h : L.Shrinks L1) {l : Nat} (hl : l < L.nextListener)
    (hAtt : (L.listeners l).attachedTo.isSome) (hOut : (L1.listeners l).attachedTo = none) :
    L1.attached < L.attached := by
  unfold Ledger.attached
  rw [h.nextListener, countP_split _ (fun l => (L.listeners l).attachedTo.isSome)
    fun l => (L1.listeners l).attachedTo.isSome]
  have hSame : (List.range L.nextListener).countP (fun l =>
      (L.listeners l).attachedTo.isSome && (L1.listeners l).attachedTo.isSome) =
      (List.range L.nextListener).countP fun l => (L1.listeners l).attachedTo.isSome :=
    List.countP_congr fun l _ => by
      constructor
      · intro hl
        simp only [Bool.and_eq_true] at hl
        exact hl.2
      · intro hl
        simpa [h.attached l hl] using hl
  have hPos : 0 < (List.range L.nextListener).countP (fun l =>
      (L.listeners l).attachedTo.isSome && !(L1.listeners l).attachedTo.isSome) :=
    List.countP_pos_iff.mpr ⟨l, List.mem_range.mpr hl, by simp [hAtt, hOut]⟩
  omega

theorem unrefProcess : L.Shrinks L.unrefProcess := ⟨le_rfl, le_rfl, rfl, fun _ _ => rfl⟩

theorem notify (w : Nat) : L.Shrinks (L.notify w) := by
  refine ⟨by rw [notify_eq], by rw [notify_eq], by rw [notify_eq], fun l hl => ?_⟩
  rw [notify_listeners] at hl ⊢
  split_ifs at hl ⊢ with hMem
  · simp [detached] at hl
  · rfl

/-- The callback's second half destroys listeners already out of their tables. -/
theorem retires {w : Nat} (h : L.Retires L1 w)
    (hOut : ∀ l ∈ (L.waiters w).installed, (L.listeners l).attachedTo = none) :
    L.Shrinks L1 := by
  refine ⟨h.owners.le, h.queued.le, h.nextListener, fun l hl => ?_⟩
  rw [h.listeners] at hl ⊢
  split_ifs at hl ⊢ with hMem
  · simp [destroyed, hOut l hMem] at hl
  · rfl

end Shrinks

end Ledger

/-! ## Steps that add no holder -/

/-- The first half of the callback of a listener the descriptor layer can fire
takes its waiter's listeners out of their tables. -/
theorem notify_ledger {s : World} (hI : s.ledger.Inv s.stack) {l : Nat} (hCan : s.canFire l) :
    ∃ s1, processNotifyStatusChanged (s.listeners l).argument s = .ok s1 ∧
      s1.ledger = s.ledger.notify (s.listeners l).argument ∧
      (s1.stack = .notifyReturn (s.listeners l).argument :: s.stack ∨
        ∃ t, s1.stack = .guest t :: .continueReturn :: .notifyReturn (s.listeners l).argument ::
          s.stack) := by
  obtain ⟨-, hArmed⟩ := hI.armed_of_canFire hCan
  obtain ⟨s1, hOk, hL, hS, -⟩ := processNotifyStatusChanged_of_armed s _
    (by simpa using hArmed.live) hArmed.timer.sideArmed hArmed.descriptor.sideArmed
    hArmed.listeners_ne
  exact ⟨s1, hOk, hL, hS⟩

/-- A step that adds no holder of the process adds no pending holder. -/
theorem step_shrinks {s s' : World} {a : Action} (hI : s.ledger.Inv s.stack)
    (hStep : step s a = some (.ok s')) (ha : a.addsHolder = false) :
    s.ledger.Shrinks s'.ledger := by
  generalize hr : (Except.ok s' : Except String World) = r at hStep
  cases step_eq_some_iff.mp hStep with
  | ownerRef | schedule | listen => cases ha
  | ownerUnref hEmpty hO =>
    have hPos : 0 < (s.setOwners (s.owners - 1)).proc.referenceCount := by
      have := hI.refs; simp at this ⊢; omega
    obtain ⟨s1, hOk, hL, -⟩ := processUnref_of_pos _ hPos
    rw [hOk] at hr
    cases hr
    rw [hL]
    exact ⟨by simp [Ledger.unrefProcess], le_rfl, rfl, fun _ _ => rfl⟩
  | runTask i t fdOut fdErr err hEmpty hT =>
    have hQueued : (s.tasks.eraseIdx i).length ≤ s.tasks.length := by
      rw [List.length_eraseIdx]; split <;> omega
    have hTask : s.ledger.Shrinks ((s.setTasks (s.tasks.eraseIdx i)).push (.task t)).ledger :=
      ⟨le_rfl, by simpa using hQueued, rfl, fun _ _ => rfl⟩
    cases hK : t.kind <;> simp only [processRunTask, hK] at hr
    · rw [(processStart_ok _ hr.symm).1]
      exact hTask
    · cases hr
      simpa using hTask
  | resume =>
    cases hr
    simpa using Shrinks.refl s.ledger
  | fire l hPoint hCan =>
    obtain ⟨s1, hOk, hL, -⟩ := notify_ledger hI hCan
    rw [hOk] at hr
    cases hr
    rw [hL]
    exact Shrinks.notify _
  | yield | exit =>
    cases hr
    simpa using Shrinks.refl s.ledger
  | retTask t rest hSt =>
    rw [hSt] at hI
    obtain ⟨s1, hOk, hL, -⟩ := processUnref_of_pos (s.setStack rest) (hI.refs_pos (by simp))
    rw [hOk] at hr
    cases hr
    rw [hL]
    exact Shrinks.unrefProcess
  | retStart | retContinue =>
    cases hr
    simpa using Shrinks.refl s.ledger
  | retNotify w rest hSt =>
    obtain ⟨s1, hOk, hRet, -, hOut⟩ := notifyReturn_ledger hI hSt
    rw [hOk] at hr
    cases hr
    exact Shrinks.retires hRet hOut

/-- A run that adds no holder keeps the world reachable and the configuration,
and adds no pending holder. -/
theorem run_shrinks {s s' : World} (as : List Action) (hR : Reachable s)
    (hRun : run s as = some (.ok s')) (ha : ∀ a ∈ as, a.addsHolder = false) :
    Reachable s' ∧ s'.proc.config = s.proc.config ∧ s.ledger.Shrinks s'.ledger := by
  induction as generalizing s with
  | nil =>
    cases hRun
    exact ⟨hR, rfl, .refl _⟩
  | cons a as ih =>
    simp only [run] at hRun
    split at hRun
    · rename_i s1 hStep
      obtain ⟨hR', hC, hS⟩ :=
        ih (hR.step hStep) hRun fun b hb => ha b (List.mem_cons_of_mem a hb)
      exact ⟨hR', hC.trans (step_config hStep),
        (step_shrinks (reachable_inv hR) hStep (ha a (List.mem_cons_self a as))).trans hS⟩
    · rename_i hNot
      exact absurd hRun (hNot s')

theorem run_append {s s1 : World} {as : List Action} (h : run s as = some (.ok s1))
    (bs : List Action) : run s (as ++ bs) = run s1 bs := by
  induction as generalizing s with
  | nil =>
    cases h
    rfl
  | cons a as ih =>
    simp only [run] at h
    split at h
    · rename_i s2 hStep
      simp only [List.cons_append, run, hStep]
      exact ih h
    · rename_i hNot
      exact absurd h (hNot s1)

theorem unwind_addsHolder (st : List Frame) :
    ∀ a ∈ st.map Frame.unwind, a.addsHolder = false := by
  intro a ha
  obtain ⟨f, -, rfl⟩ := List.mem_map.mp ha
  cases f <;> rfl

/-! ## At the event loop -/

namespace Ledger.Inv

variable {L : Ledger} (h : L.Inv []) {l : Nat} (hl : l < L.nextListener)
include h hl

/-- At the event loop a listener in a table belongs to an armed waiter and
waits for an OFF-to-ON edge. -/
theorem armed_of_attached (hAtt : (L.listeners l).attachedTo.isSome) :
    (L.listeners l).argument < L.nextWaiter ∧ L.WaiterOk [] (L.listeners l).argument .armed ∧
      (L.listeners l).filter = .offToOn := by
  obtain ⟨hw, hMem⟩ := h.owner l hl
  obtain ⟨p, hp⟩ := h.waiter _ hw
  obtain ⟨-, -, d, hOk⟩ := hp.listener hMem
  cases p with
  | armed => exact ⟨hw, hp, hOk.2.2.2⟩
  | notifying => simpa using hp.frames
  | done => simp [Phase.ListenerOk, hOk.1] at hAtt

/-- At the event loop every listener not yet destroyed is in a table. -/
theorem attached_of_live (hLive : (L.listeners l).live) : (L.listeners l).attachedTo.isSome := by
  obtain ⟨hw, hMem⟩ := h.owner l hl
  obtain ⟨p, hp⟩ := h.waiter _ hw
  obtain ⟨-, -, d, hOk⟩ := hp.listener hMem
  cases p with
  | armed => simp [hOk.1]
  | notifying => simpa using hp.frames
  | done => simp [hOk.2.2.1] at hLive

end Ledger.Inv

/-- With nothing pending at the event loop, the process has been freed. -/
theorem freed_of_pending {s : World} (h : s.ledger.Inv []) (hP : s.ledger.pending = 0) :
    .processFree ∈ s.trace := by
  have hLive : s.ledger.liveListeners ≤ s.ledger.attached :=
    List.countP_mono_left fun l hl hLive => h.attached_of_live (List.mem_range.mp hl) hLive
  have hRefs := h.refs
  have hFrees := h.frees
  simp only [Ledger.pending] at hP
  simp only [List.countP_nil, add_zero] at hRefs
  rw [if_pos (by omega)] at hFrees
  have hOne : s.trace.count .processFree = 1 := hFrees
  exact List.count_pos_iff.mp (by omega)

/-! ## One round of the teardown -/

section Round

variable {s : World} (hR : Reachable s) (hEmpty : s.stack = [])
include hR hEmpty

/-- An owner drops its reference. -/
theorem release_owner (hO : 0 < s.owners) :
    ∃ s1, step s .ownerUnref = some (.ok s1) ∧ s1.ledger.pending < s.ledger.pending := by
  have hI := reachable_inv hR
  have hPos : 0 < (s.setOwners (s.owners - 1)).proc.referenceCount := by
    have := hI.refs; simp at this ⊢; omega
  obtain ⟨s1, hOk, hL, -⟩ := processUnref_of_pos _ hPos
  refine ⟨s1, by simp [step, ownerMayAct, hEmpty, hO, hOk], ?_⟩
  simp only [Ledger.pending, Ledger.attached, hL, Ledger.unrefProcess, ledger_setOwners,
    ledger_owners]
  omega

/-- The scheduler runs the first queued task; a start task does not abort when
the interposition method is known. -/
theorem release_task {t : Task} (hT : s.tasks[0]? = some t)
    (hMethod : s.proc.interposeMethod = .preload ∨ s.proc.interposeMethod = .ptrace) :
    ∃ s1, step s (.runTask 0 3 4 "") = some (.ok s1) ∧
      s1.ledger.pending < s.ledger.pending := by
  set W := (s.setTasks (s.tasks.eraseIdx 0)).push (.task t)
  have hLen : 0 < s.tasks.length := (List.getElem?_eq_some_iff.mp hT).1
  have hW : W.ledger.pending < s.ledger.pending := by
    simp only [W, Ledger.pending, Ledger.attached, ledger_push, ledger_setTasks,
      List.length_eraseIdx_of_lt hLen]
    simp only [ledger_queued]
    omega
  have hStep : step s (.runTask 0 3 4 "") = some (processRunTask t.kind 3 4 "" W) := by
    simp [step, hEmpty, hT, W]
  cases hK : t.kind
  · rcases hStart : processStart 3 4 "" W with e | s1
    · exfalso
      obtain ⟨hNotRun, hCases⟩ := processStart_error hStart
      have hv := (reachable_mainOk hR).view
      rcases hCases with ⟨h3, -⟩ | ⟨-, h4, -⟩ | ⟨-, -, hSome, -⟩ |
        ⟨-, -, -, v, hv', -⟩
      · omega
      · omega
      · obtain ⟨m, hm⟩ := Option.isSome_iff_exists.mp hSome
        have hm' : s.proc.mainThread = some m := hm
        have hRun := (hv.running m hm').resolve_right (by simp [hEmpty, checkNext])
        simp only [processIsRunning, W, push_proc, setTasks_proc, hm'] at hNotRun
        simp only [mainView_threads] at hRun
        simp [W, hRun] at hNotRun
      · rcases hMethod with h | h <;> simp [W, h] at hv'
    · refine ⟨s1, by simp [hStep, hK, processRunTask, hStart], ?_⟩
      rw [(processStart_ok _ hStart).1]
      exact hW
  · refine ⟨processStop W, by simp [hStep, hK, processRunTask], ?_⟩
    rw [ledger_processStop]
    exact hW

/-- The descriptor layer fires a listener in a table: its callback takes both
listeners of the waiter out of their tables. -/
theorem release_listener {l : Nat} (hl : l < s.nextListener)
    (hAtt : (s.listeners l).attachedTo.isSome) (hMon : (s.listeners l).monitoring ≠ dsNone) :
    ∃ s1, step s (.fire l) = some (.ok s1) ∧ s1.ledger.pending < s.ledger.pending := by
  have hI := reachable_inv hR
  rw [hEmpty] at hI
  obtain ⟨hw, hArmed, hFilter⟩ := hI.armed_of_attached hl hAtt
  have hFilter' : (s.listeners l).filter = .offToOn := hFilter
  have hCan : s.canFire l := by
    simp [canFire, hl, hAtt, hFilter', hMon]
  obtain ⟨s1, hOk, hL, -⟩ := processNotifyStatusChanged_of_armed s _
    (by simpa using hArmed.live) hArmed.timer.sideArmed hArmed.descriptor.sideArmed
    hArmed.listeners_ne
  have hOk' : processNotifyStatusChanged (s.listeners l).argument s = .ok s1 := hOk
  refine ⟨s1, by simp [step, atEventPoint, hEmpty, hCan, hOk'], ?_⟩
  have hShrinks : s.ledger.Shrinks s1.ledger := hL ▸ Shrinks.notify _
  have hOut : (s1.listeners l).attachedTo = none := by
    have hMem : l ∈ (s.ledger.waiters (s.listeners l).argument).installed := (hI.owner l hl).2
    have := congrArg (fun L => L.listeners l) hL
    simp only [ledger_listeners] at this
    rw [this, notify_listeners]
    rw [if_pos hMem]
    rfl
  have hLt := hShrinks.attached_lt hl hAtt hOut
  have hLe := hShrinks.owners
  have hQ := hShrinks.queued
  unfold Ledger.pending
  omega

end Round

/-- A listener in a table that monitors some status keeps doing so along a run
that adds no holder. -/
theorem Ledger.Shrinks.monitors {L L' : Ledger} (h : L.Shrinks L')
    (hStatus : ∀ l < L.nextListener, (L.listeners l).attachedTo.isSome →
      (L.listeners l).monitoring ≠ dsNone) :
    ∀ l < L'.nextListener, (L'.listeners l).attachedTo.isSome →
      (L'.listeners l).monitoring ≠ dsNone := fun l hl hAtt => by
  have hEq := h.attached l hAtt
  rw [hEq] at hAtt ⊢
  exact hStatus l (h.nextListener ▸ hl) hAtt

/-- From the event loop, while something is pending, one action releases a
holder. -/
theorem release_one {s : World} (hR : Reachable s) (hEmpty : s.stack = [])
    (hMethod : s.proc.interposeMethod = .preload ∨ s.proc.interposeMethod = .ptrace)
    (hStatus : ∀ l < s.nextListener, (s.listeners l).attachedTo.isSome →
      (s.listeners l).monitoring ≠ dsNone)
    (hP : 0 < s.ledger.pending) :
    ∃ a s1, a.addsHolder = false ∧ step s a = some (.ok s1) ∧
      s1.ledger.pending < s.ledger.pending := by
  by_cases hO : 0 < s.owners
  · obtain ⟨s1, h1, h2⟩ := release_owner hR hEmpty hO
    exact ⟨.ownerUnref, s1, rfl, h1, h2⟩
  rcases hT : s.tasks with _ | ⟨t, ts⟩
  · have hAtt : 0 < s.ledger.attached := by
      simp only [Ledger.pending, ledger_owners, ledger_queued, hT] at hP
      simp at hP
      omega
    obtain ⟨l, hl, hAtt⟩ := List.countP_pos_iff.mp hAtt
    have hl' : l < s.nextListener := List.mem_range.mp hl
    obtain ⟨s1, h1, h2⟩ := release_listener hR hEmpty hl' hAtt (hStatus l hl' hAtt)
    exact ⟨.fire l, s1, rfl, h1, h2⟩
  · have hT0 : s.tasks[0]? = some t := by simp [hT]
    obtain ⟨s1, h1, h2⟩ := release_task hR hEmpty hT0 hMethod
    exact ⟨.runTask 0 3 4 "", s1, rfl, h1, h2⟩

/-- From the event loop, rounds of releases end in `_process_free`. -/
theorem teardown_from_event_loop (n : Nat) : ∀ {s : World}, Reachable s → s.stack = [] →
    s.ledger.pending ≤ n →
    (s.proc.interposeMethod = .preload ∨ s.proc.interposeMethod = .ptrace) →
    (∀ l < s.nextListener, (s.listeners l).attachedTo.isSome →
      (s.listeners l).monitoring ≠ dsNone) →
    ∃ as s', (∀ a ∈ as, a.addsHolder = false) ∧ run s as = some (.ok s') ∧
      .processFree ∈ s'.trace := by
  induction n with
  | zero =>
    intro s hR hEmpty hP _ _
    exact ⟨[], s, by simp, rfl, freed_of_pending (hEmpty ▸ reachable_inv hR) (by omega)⟩
  | succ n ih =>
    intro s hR hEmpty hP hMethod hStatus
    by_cases hZero : s.ledger.pending = 0
    · exact ⟨[], s, by simp, rfl, freed_of_pending (hEmpty ▸ reachable_inv hR) hZero⟩
    obtain ⟨a, s1, ha, hStep, hLt⟩ := release_one hR hEmpty hMethod hStatus (by omega)
    have hR1 := hR.step hStep
    obtain ⟨s2, hRun2, hEmpty2⟩ := run_unwind s1.stack (reachable_inv hR1) rfl
    obtain ⟨hR2, hC2, hS2⟩ := run_shrinks _ hR1 hRun2 (unwind_addsHolder _)
    have hMethod2 : s2.proc.interposeMethod = s.proc.interposeMethod :=
      congrArg ProcessConfig.interposeMethod (hC2.trans (step_config hStep))
    have hS := (step_shrinks (reachable_inv hR) hStep ha).trans hS2
    obtain ⟨as, s', has, hRun, hFree⟩ := ih hR2 hEmpty2 (by have := hS2.pending_le; omega)
      (hMethod2 ▸ hMethod) (hS.monitors hStatus)
    refine ⟨a :: (s1.stack.map Frame.unwind ++ as), s', ?_, ?_, hFree⟩
    · intro b hb
      rcases List.mem_cons.mp hb with rfl | hb
      · exact ha
      rcases List.mem_append.mp hb with hb | hb
      · exact unwind_addsHolder _ b hb
      · exact has b hb
    · simp only [run, hStep]
      rw [run_append hRun2]
      exact hRun

/-- From every reachable world the holders of the process can all let go: there
is a run with no `process_ref`, `process_schedule` or
`process_listenForStatus` (the stack unwinds, the owners drop their references,
the scheduler runs every task, and the descriptor layer fires a listener of
every armed waiter) that ends in `_process_free`, provided the interposition
method is known and every listener in a descriptor's table monitors some
status. -/
theorem teardown_reachable {s : World} (hR : Reachable s)
    (hMethod : s.proc.interposeMethod = .preload ∨ s.proc.interposeMethod = .ptrace)
    (hStatus : ∀ l < s.nextListener, (s.listeners l).attachedTo.isSome →
      (s.listeners l).monitoring ≠ dsNone) :
    ∃ as s', (∀ a ∈ as, a.addsHolder = false) ∧ run s as = some (.ok s') ∧
      .processFree ∈ s'.trace := by
  obtain ⟨s1, hRun1, hEmpty1⟩ := run_unwind s.stack (reachable_inv hR) rfl
  obtain ⟨hR1, hC1, hS1⟩ := run_shrinks _ hR hRun1 (unwind_addsHolder _)
  have hMethod1 : s1.proc.interposeMethod = s.proc.interposeMethod :=
    congrArg ProcessConfig.interposeMethod hC1
  obtain ⟨as, s', has, hRun, hFree⟩ := teardown_from_event_loop _ hR1 hEmpty1 le_rfl
    (hMethod1 ▸ hMethod) (hS1.monitors hStatus)
  refine ⟨s.stack.map Frame.unwind ++ as, s', fun a ha => ?_,
    by rw [run_append hRun1]; exact hRun,
    hFree⟩
  rcases List.mem_append.mp ha with ha | ha
  · exact unwind_addsHolder _ a ha
  · exact has a ha

/-- Inside the first burst, with a timer armed: the process can still be torn
down. -/
theorem teardown_reachable_armed :
    ∃ s, Reachable s ∧ s.stack.length = 3 ∧ s.nextListener = 1 ∧
      (s.proc.interposeMethod = .preload ∨ s.proc.interposeMethod = .ptrace) ∧
      (∀ l < s.nextListener, (s.listeners l).attachedTo.isSome →
        (s.listeners l).monitoring ≠ dsNone) ∧
      ∃ as s', (∀ a ∈ as, a.addsHolder = false) ∧ run s as = some (.ok s') ∧
        .processFree ∈ s'.trace := by
  have hR := reachable_run [.schedule 0, .runTask 0 3 4 "", .listen (some 7) none dsReadable]
    (@Reachable.boot ⟨"/data"⟩ 1 0 0 .preload "host" (some "app") (some "/bin/app") [] [] _ rfl)
    rfl
  exact ⟨_, hR, by decide, by decide, .inl rfl, by decide,
    teardown_reachable hR (.inl rfl) (by decide)⟩

/-! ## What a freed process leaves -/

/-- Once the process is freed every waiter it made is done: an armed one would
still have a live listener, a notifying one its callback on the stack. -/
theorem Ledger.Inv.done_of_freed {s : World} (h : s.ledger.Inv s.stack)
    (hFree : .processFree ∈ s.trace) {w : Nat} (hw : w < s.nextWaiter) :
    s.ledger.WaiterOk s.stack w .done := by
  obtain ⟨-, -, hL, hSt⟩ := h.empty_of_freed hFree
  obtain ⟨p, hp⟩ := h.waiter w hw
  cases p with
  | armed =>
    obtain ⟨l, hl⟩ := List.exists_mem_of_ne_nil _ hp.nonempty
    have := liveListeners_pos (hp.listener hl).1 ((hp.live_iff hl).mpr (by decide))
    omega
  | notifying => simpa [hSt] using hp.frames
  | done => exact hp

/-- A freed process leaves nothing behind: every waiter it made has taken its
references, been notified once, released each reference (on its thread, its
timer and its descriptor) and been freed; every listener is destroyed; and
every thread has been released as often as it was referenced. -/
theorem freed_process_leaves_nothing {s : World} (hR : Reachable s)
    (hFree : .processFree ∈ s.trace) :
    (∀ w < s.nextWaiter, s.waiterEvents w =
      armEvents (s.waiters w) w ++ [.notify w (s.waiters w).thread] ++
        releaseEvents (s.waiters w) w ++ staleReads (s.waiters w) w) ∧
      (∀ l < s.nextListener, (s.listeners l).live = false) ∧
      ∀ t, s.trace.countP (Event.acquires t) = s.trace.countP (Event.drops t) := by
  have hI := reachable_inv hR
  have hDone (w : Nat) (hw : w < s.nextWaiter) := hI.done_of_freed hFree hw
  obtain ⟨-, -, hL, -⟩ := hI.empty_of_freed hFree
  refine ⟨fun w hw => (hDone w hw).events, fun l hl => ?_, fun t => ?_⟩
  · by_contra hLive
    have := liveListeners_pos (L := s.ledger) hl (by simpa using hLive)
    omega
  · have hMain := reachable_mainOk hR
    have hHolders : s.threadHolders t = 0 := by
      simp only [World.threadHolders, hMain.freed hFree]
      rw [if_neg nofun, Nat.zero_add, List.countP_eq_zero]
      intro w hw
      have hGone := (hDone w (List.mem_range.mp hw)).live
      simp only [ledger_waiters] at hGone
      simp [hGone]
    rw [World.thread_balance hI hMain.view (reachable_threadsOk hR) t, hHolders, Nat.add_zero]

/-- A timer-only waiter notified and retired, then the owner's last reference
goes. -/
theorem freed_process_leaves_nothing_timerOnly :
    ∃ s, Reachable s ∧ .processFree ∈ s.trace ∧ s.nextWaiter = 1 ∧
      (∀ w < s.nextWaiter, s.waiterEvents w =
        armEvents (s.waiters w) w ++ [.notify w (s.waiters w).thread] ++
          releaseEvents (s.waiters w) w ++ staleReads (s.waiters w) w) ∧
      (∀ l < s.nextListener, (s.listeners l).live = false) ∧
      ∀ t, s.trace.countP (Event.acquires t) = s.trace.countP (Event.drops t) := by
  have hR := reachable_run [.schedule 0, .runTask 0 3 4 "", .listen (some 7) none dsReadable,
      .yield, .ret, .ret, .fire 0, .yield, .ret, .ret, .ownerUnref]
    (@Reachable.boot ⟨"/data"⟩ 1 0 0 .preload "host" (some "app") (some "/bin/app") [] [] _ rfl)
    rfl
  exact ⟨_, hR, by decide, rfl, freed_process_leaves_nothing hR (by decide)⟩

end ShadowProcess
