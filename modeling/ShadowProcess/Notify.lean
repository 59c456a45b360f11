import ShadowProcess.Listen

/-! # Notifying a waiter

`_process_notifyStatusChanged` on the ledger. Its first half takes an armed
waiter to notifying: both listeners leave their tables and stop monitoring, and
the return frame goes on the stack. Its second half, run when that frame
returns, destroys both listeners (`Retires`), which frees the waiter.
-/

namespace ShadowProcess

set_option autoImplicit false

namespace Ledger

variable {L L' : Ledger} {st : List Frame} {w : Nat} {p : Phase}

/-! ## Up to `process_continue` -/

/-- A listener out of its table, monitoring nothing. -/
def detached (X : DescriptorListener) : DescriptorListener :=
  { X with attachedTo := none, refs := 1, monitoring := dsNone, filter := .never }

theorem detach_listeners (L : Ledger) (l? : Option Nat) (l : Nat) :
    (L.detach l?).listeners l =
      if l? = some l then detached (L.listeners l) else L.listeners l := by
  rcases l? with _ | a
  · simp [detach]
  · by_cases h : a = l
    · subst h
      simp [detach, detached]
    · simp [detach, h, Function.update_noteq (Ne.symm h)]

@[simp] theorem detached_detached (X : DescriptorListener) :
    detached (detached X) = detached X := rfl

theorem notify_listeners (L : Ledger) (w l : Nat) :
    (L.notify w).listeners l =
      if l ∈ (L.waiters w).installed then detached (L.listeners l) else L.listeners l := by
  simp only [notify, emit, detach_listeners, detach_waiters, mem_installed]
  split_ifs <;> simp_all

@[simp] theorem notify_waiters (L : Ledger) (w : Nat) : (L.notify w).waiters = L.waiters := by
  simp [notify, emit]

theorem notify_events (L : Ledger) (w : Nat) :
    (L.notify w).events =
      Function.update L.events w (L.events w ++ [.notify w (L.waiters w).thread]) := by
  simp [notify, emit]

theorem notify_eq (L : Ledger) (w : Nat) :
    L.notify w = { L with
      listeners := (L.notify w).listeners
      events := (L.notify w).events } := by
  simp only [notify, emit]
  rcases (L.waiters w).timerListener <;> rcases (L.waiters w).descriptorListener <;> rfl

theorem liveListeners_notify (L : Ledger) (w : Nat) :
    (L.notify w).liveListeners = L.liveListeners := by
  rw [notify_eq]
  refine List.countP_congr fun l _ => ?_
  rw [notify_listeners]
  split_ifs <;> rfl

@[simp] theorem notify_nextListener (L : Ledger) (w : Nat) :
    (L.notify w).nextListener = L.nextListener := by rw [notify_eq]

@[simp] theorem notify_nextWaiter (L : Ledger) (w : Nat) :
    (L.notify w).nextWaiter = L.nextWaiter := by rw [notify_eq]

@[simp] theorem notify_refs (L : Ledger) (w : Nat) : (L.notify w).refs = L.refs := by rw [notify_eq]

@[simp] theorem notify_owners (L : Ledger) (w : Nat) : (L.notify w).owners = L.owners := by
  rw [notify_eq]

@[simp] theorem notify_queued (L : Ledger) (w : Nat) : (L.notify w).queued = L.queued := by
  rw [notify_eq]

@[simp] theorem notify_frees (L : Ledger) (w : Nat) : (L.notify w).frees = L.frees := by
  rw [notify_eq]

theorem SideOk.notify {d? l? : Option Nat} (h : L.SideOk .armed w d? l?)
    (hIn : ∀ l, l? = some l → l ∈ (L.waiters w).installed) :
    (L.notify w).SideOk .notifying w d? l? := by
  refine ⟨h.1, fun d l hd hl => ?_⟩
  obtain ⟨hlt, hArg, -, -, hLive, -⟩ := h.2 d l hd hl
  rw [notify_listeners, if_pos (hIn l hl)]
  exact ⟨by simpa using hlt, hArg, rfl, rfl, hLive, rfl⟩

/-- The first half of the callback takes an armed waiter to notifying. -/
theorem WaiterOk.notify (hw : L.WaiterOk st w .armed) :
    (L.notify w).WaiterOk (.notifyReturn w :: st) w .notifying where
  timer := by
    simpa using hw.timer.notify fun l hl => mem_installed.mpr (.inl hl)
  descriptor := by
    simpa using hw.descriptor.notify fun l hl => mem_installed.mpr (.inr hl)
  nonempty := by simpa using hw.nonempty
  distinct := by simpa using hw.distinct
  live := by simpa using hw.live
  refs := by simpa using hw.refs
  events := by simp [notify_events, hw.events, Phase.events]
  frames := by simpa using hw.frames

/-- A listener of another waiter is not one of `w`'s. -/
theorem WaiterOk.not_mem_of_other {v : Nat} {q : Phase} (hw : L.WaiterOk st w p)
    (hv : L.WaiterOk st v q) (hNe : v ≠ w) {l : Nat} (hl : l ∈ (L.waiters v).installed) :
    l ∉ (L.waiters w).installed := fun hlw =>
  hNe ((hv.listener hl).2.1.symm.trans (hw.listener hlw).2.1)

theorem Inv.notify (h : L.Inv st) (hw : w < L.nextWaiter) (hArmed : L.WaiterOk st w .armed)
    (hTop : StackOk (.notifyReturn w :: st)) : (L.notify w).Inv (.notifyReturn w :: st) where
  waiter v hv := by
    rw [notify_nextWaiter] at hv
    by_cases hvw : v = w
    · exact ⟨.notifying, hvw ▸ hArmed.notify⟩
    · obtain ⟨q, hq⟩ := h.waiter v hv
      refine ⟨q, hq.transport (by simp) (by simp [notify_events, hvw]) (fun l hl => ?_) (by simp)
        (by simp [List.count_cons, Ne.symm hvw])⟩
      rw [notify_listeners, if_neg (hArmed.not_mem_of_other hq hvw hl)]
  fresh v hv := by
    rw [notify_nextWaiter] at hv
    have hvw : v ≠ w := by omega
    refine ⟨by simp [notify_events, hvw, (h.fresh v hv).1], ?_⟩
    simpa [hvw] using (h.fresh v hv).2
  owner l hl := by
    rw [notify_nextListener] at hl
    have hArg : ((L.notify w).listeners l).argument = (L.listeners l).argument := by
      rw [notify_listeners]; split_ifs <;> rfl
    simpa [hArg] using h.owner l hl
  refs := by simpa [liveListeners_notify, Frame.isTask] using h.refs
  frees := by simpa using h.frees
  nested := hTop
  bottom hLast := by
    rcases st with _ | ⟨f, st⟩
    · cases hLast
    · exact (notify_owners L w).symm ▸ h.bottom (by simpa [List.getLast?_cons] using hLast)

/-! ## After `process_continue` -/

/-- Taking a list of distinct indices, all counted, out of a count over `range n`. -/
theorem countP_range_remove {q : Nat → Bool} {n : Nat} {ls : List Nat} (hNd : ls.Nodup)
    (hLt : ∀ l ∈ ls, l < n) (hq : ∀ l ∈ ls, q l) :
    (List.range n).countP (fun i => q i && !decide (i ∈ ls)) + ls.length =
      (List.range n).countP q := by
  have hPerm : List.Perm ((List.range n).filter fun i => decide (i ∈ ls)) ls :=
    (List.perm_ext_iff_of_nodup ((List.nodup_range n).filter _) hNd).mpr fun i => by
      simp only [List.mem_filter, List.mem_range, decide_eq_true_eq]
      exact ⟨And.right, fun h => ⟨hLt i h, h⟩⟩
  rw [List.countP_eq_countP_filter_add (List.range n) q (fun i => decide (i ∈ ls)),
    hPerm.countP_eq, List.countP_filter, List.countP_eq_length.mpr hq, Nat.add_comm]

/-- A listener after its last unref. -/
def destroyed (X : DescriptorListener) : DescriptorListener := { X with refs := 0, live := false }

/-- What the second half of the callback does to the ledger: both listeners of
`w` are destroyed, each dropping its process reference, and the waiter is
freed with the references it held. -/
structure Retires (L L' : Ledger) (w : Nat) : Prop where
  waiters : L'.waiters =
    Function.update L.waiters w { L.waiters w with referenceCount := 0, live := false }
  events : L'.events = Function.update L.events w
    (L.events w ++ releaseEvents (L.waiters w) w ++ staleReads (L.waiters w) w)
  listeners : ∀ l, L'.listeners l =
    if l ∈ (L.waiters w).installed then destroyed (L.listeners l) else L.listeners l
  refs : L'.refs = L.refs - (L.waiters w).installed.length
  frees : L'.frees = L.frees + if L.refs = (L.waiters w).installed.length then 1 else 0
  nextWaiter : L'.nextWaiter = L.nextWaiter
  nextListener : L'.nextListener = L.nextListener
  owners : L'.owners = L.owners
  queued : L'.queued = L.queued

/-- `_process_unrefWaiter` of `v`: its count drops by one, and at zero it is
freed with the references it held. -/
theorem unrefWaiter_eq (L : Ledger) (v : Nat) : L.unrefWaiter v =
    if (L.waiters v).referenceCount = 1 then
      { L with
        waiters := Function.update L.waiters v
          { L.waiters v with referenceCount := 0, live := false }
        events := Function.update L.events v (L.events v ++ releaseEvents (L.waiters v) v) }
    else
      { L with
        waiters := Function.update L.waiters v
          { L.waiters v with referenceCount := (L.waiters v).referenceCount - 1 } } := by
  unfold unrefWaiter
  dsimp only
  split_ifs <;> rfl

/-- The last unref of listener `l`: it is destroyed, drops its process
reference, and unrefs its waiter. -/
theorem destroyListener_eq (L : Ledger) (l : Nat) : L.destroyListener l =
    { L.unrefWaiter (L.listeners l).argument with
      listeners := Function.update L.listeners l (destroyed (L.listeners l))
      refs := L.refs - 1
      frees := L.frees + if L.refs = 1 then 1 else 0 } := by
  unfold destroyListener
  rw [unrefWaiter_eq, unrefWaiter_eq]
  simp only [setListener, unrefProcess]
  split_ifs <;> rfl

/-- The second half of the callback on a notifying waiter, by the waiter's shape. -/
theorem notifyReturn_retires (hw : L.WaiterOk st w .notifying)
    (hRefs : (L.waiters w).installed.length ≤ L.refs) : L.Retires (L.notifyReturn w) w := by
  have hLive : (L.waiters w).live := by simpa using hw.live
  have hRc := hw.refs
  have hArg : ∀ l ∈ (L.waiters w).installed, (L.listeners l).argument = w :=
    fun l hl => (hw.listener hl).2.1
  rcases hT : (L.waiters w).timerListener with _ | a <;>
    rcases hD : (L.waiters w).descriptorListener with _ | b <;>
    simp [ProcessWaiter.installed, hT, hD] at hRc hArg hRefs
  · exact absurd (by simp [ProcessWaiter.installed, hT, hD]) hw.nonempty
  · -- descriptor only: the descriptor listener's unref frees the waiter
    have hN : L.notifyReturn w = L.destroyListener b := by
      simp only [notifyReturn, readWaiter, hLive, if_true, release, hT, hD]
    rw [hN, destroyListener_eq, unrefWaiter_eq, hArg, if_pos hRc]
    refine ⟨rfl, by simp [staleReads, hD], fun l => ?_, by simp [ProcessWaiter.installed, hT, hD],
      by simp [ProcessWaiter.installed, hT, hD], rfl, rfl, rfl, rfl⟩
    by_cases hlb : l = b
    · subst hlb; simp [ProcessWaiter.installed, hT, hD]
    · simp [Function.update_noteq hlb, ProcessWaiter.installed, hT, hD, hlb]
  · -- timer only: the timer listener's unref frees the waiter, which is read after
    simp only [notifyReturn, readWaiter, hLive, if_true, release, hT, destroyListener_eq,
      unrefWaiter_eq, hArg, hRc, Function.update_same, Bool.false_eq_true, if_false, emit, hD]
    refine ⟨by simp only [hT, hD], by simp [staleReads, hD], fun l => ?_,
      by simp [ProcessWaiter.installed, hT, hD], by simp [ProcessWaiter.installed, hT, hD],
      rfl, rfl, rfl, rfl⟩
    by_cases hla : l = a
    · subst hla; simp [ProcessWaiter.installed, hT, hD]
    · simp [Function.update_noteq hla, ProcessWaiter.installed, hT, hD, hla]
  · -- both: the second unref frees the waiter
    have hNe : a ≠ b := by simpa [ProcessWaiter.installed, hT, hD] using hw.distinct
    simp only [notifyReturn, readWaiter, hLive, if_true, release, hT, destroyListener_eq,
      unrefWaiter_eq, hArg.1, hRc, Function.update_same, emit, hD,
      Function.update_noteq (Ne.symm hNe), hArg.2, show ((2 : Int) = 1) = False by decide,
      show (2 : Int) - 1 = 1 by decide, if_false]
    refine ⟨by simp [hT, hD], by simp [releaseEvents, staleReads, hD], fun l => ?_,
      by simp [ProcessWaiter.installed, hT, hD]; omega, ?_, rfl, rfl, rfl, rfl⟩
    · by_cases hla : l = a
      · subst hla; simp [Function.update_noteq hNe, ProcessWaiter.installed, hT, hD]
      · by_cases hlb : l = b
        · subst hlb; simp [ProcessWaiter.installed, hT, hD]
        · simp [Function.update_noteq hla, Function.update_noteq hlb, ProcessWaiter.installed, hT,
            hD, hla, hlb]
    · simp only [ProcessWaiter.installed, hT, hD, Option.toList, List.singleton_append,
        List.length_cons, List.length_singleton, List.length_nil]
      split_ifs <;> omega

/-- On a notifying waiter, both unrefs of the second half pass their assertions. -/
theorem WaiterOk.canRelease (hw : L.WaiterOk st w .notifying)
    (hRefs : ((L.waiters w).installed.length : Int) ≤ L.refs) :
    (L.readWaiter w .timerListener).CanRelease (L.waiters w).timerListener ∧
      (let L1 := (L.readWaiter w .timerListener).release (L.waiters w).timerListener
       (L1.readWaiter w .descriptorListener).CanRelease (L1.waiters w).descriptorListener) := by
  have hLive : (L.waiters w).live := by simpa using hw.live
  have hRc := hw.refs
  have hArg : ∀ l ∈ (L.waiters w).installed,
      (L.listeners l).argument = w ∧ (L.listeners l).refs = 1 := fun l hl => by
    obtain ⟨-, hA, d, -, hR, -⟩ := hw.listener hl
    exact ⟨hA, hR⟩
  rcases hT : (L.waiters w).timerListener with _ | a <;>
    rcases hD : (L.waiters w).descriptorListener with _ | b <;>
    simp [ProcessWaiter.installed, hT, hD] at hRc hArg hRefs
  · exact absurd (by simp [ProcessWaiter.installed, hT, hD]) hw.nonempty
  · simp [CanRelease, readWaiter, release, hLive, hT, hD, hArg]
    omega
  · simp [CanRelease, readWaiter, release, destroyListener_eq, unrefWaiter_eq, emit, hLive, hT, hD,
      hRc, hArg]
    omega
  · have hNe : a ≠ b := by simpa [ProcessWaiter.installed, hT, hD] using hw.distinct
    simp [CanRelease, readWaiter, release, destroyListener_eq, unrefWaiter_eq, hLive, hT, hD, hRc,
      hArg, Function.update_apply, Ne.symm hNe]
    omega


theorem Retires.liveListeners {L' : Ledger} (hR : L.Retires L' w)
    (hw : L.WaiterOk st w .notifying) :
    L'.liveListeners + (L.waiters w).installed.length = L.liveListeners := by
  have hCount := countP_range_remove (n := L.nextListener) (q := fun l => (L.listeners l).live)
    hw.distinct (fun l hl => (hw.listener hl).1)
    (fun l hl => by obtain ⟨-, -, d, -, -, hLive, -⟩ := hw.listener hl; exact hLive)
  unfold Ledger.liveListeners
  rw [← hCount, hR.nextListener]
  congr 1
  refine List.countP_congr fun l _ => ?_
  rw [hR.listeners]
  split_ifs with hl <;> simp [hl, destroyed]

theorem WaiterOk.installed_le_refs (hw : L.WaiterOk st w .notifying) (h : L.Inv st) :
    ((L.waiters w).installed.length : Int) ≤ L.refs := by
  have hCount := countP_range_remove (n := L.nextListener) (q := fun l => (L.listeners l).live)
    hw.distinct (fun l hl => (hw.listener hl).1)
    (fun l hl => by obtain ⟨-, -, d, -, -, hLive, -⟩ := hw.listener hl; exact hLive)
  have hLe : (L.waiters w).installed.length ≤ L.liveListeners := by
    unfold Ledger.liveListeners; omega
  rw [h.refs]
  omega

theorem Retires.waiter_self {L' : Ledger} (hR : L.Retires L' w) :
    L'.waiters w = { L.waiters w with referenceCount := 0, live := false } := by
  rw [hR.waiters, Function.update_same]

theorem Retires.installed {L' : Ledger} (hR : L.Retires L' w) (v : Nat) :
    (L'.waiters v).installed = (L.waiters v).installed := by
  by_cases hv : v = w
  · subst hv; rw [hR.waiter_self]; rfl
  · rw [hR.waiters, Function.update_noteq hv]

theorem SideOk.retire {L' : Ledger} {d? l? : Option Nat} (h : L.SideOk .notifying w d? l?)
    (hIn : ∀ l, l? = some l → l ∈ (L.waiters w).installed) (hR : L.Retires L' w) :
    L'.SideOk .done w d? l? := by
  refine ⟨h.1, fun d l hd hl => ?_⟩
  obtain ⟨hlt, hArg, hAtt, -, -, hFilter⟩ := h.2 d l hd hl
  rw [hR.listeners, if_pos (hIn l hl)]
  exact ⟨hR.nextListener ▸ hlt, hArg, hAtt, rfl, rfl, hFilter⟩

/-- The second half of the callback takes a notifying waiter to done. -/
theorem WaiterOk.retire {L' : Ledger} (hw : L.WaiterOk (.notifyReturn w :: st) w .notifying)
    (hR : L.Retires L' w) : L'.WaiterOk st w .done where
  timer := hR.waiter_self ▸ hw.timer.retire (fun l hl => mem_installed.mpr (.inl hl)) hR
  descriptor := hR.waiter_self ▸ hw.descriptor.retire (fun l hl => mem_installed.mpr (.inr hl)) hR
  nonempty := hR.installed w ▸ hw.nonempty
  distinct := hR.installed w ▸ hw.distinct
  live := by rw [hR.waiter_self]; rfl
  refs := by rw [hR.waiter_self]; rfl
  events := by
    simp [hR.events, hR.waiter_self, hw.events, Phase.events, armEvents, releaseEvents, staleReads]
  frames := by simpa [List.count_cons] using hw.frames

theorem Inv.retire {L' : Ledger} (h : L.Inv (.notifyReturn w :: st)) (hR : L.Retires L' w) :
    L'.Inv st where
  waiter v hv := by
    obtain ⟨-, hw⟩ := h.phase_of_frame (List.mem_cons_self _ _)
    rw [hR.nextWaiter] at hv
    by_cases hvw : v = w
    · exact ⟨.done, hvw ▸ hw.retire hR⟩
    · obtain ⟨q, hq⟩ := h.waiter v hv
      refine ⟨q, hq.transport (by rw [hR.waiters, Function.update_noteq hvw])
        (by rw [hR.events, Function.update_noteq hvw]) (fun l hl => ?_)
        (Nat.le_of_eq hR.nextListener.symm)
        (by simp [List.count_cons, Ne.symm hvw])⟩
      rw [hR.listeners, if_neg (hw.not_mem_of_other hq hvw hl)]
  fresh v hv := by
    obtain ⟨hwlt, -⟩ := h.phase_of_frame (List.mem_cons_self _ _)
    rw [hR.nextWaiter] at hv
    have hvw : v ≠ w := by omega
    refine ⟨by rw [hR.events, Function.update_noteq hvw]; exact (h.fresh v hv).1,
      fun hMem => ?_⟩
    exact (h.fresh v hv).2 (List.mem_cons_of_mem _ hMem)
  owner l hl := by
    rw [hR.nextListener] at hl
    have hArg : (L'.listeners l).argument = (L.listeners l).argument := by
      rw [hR.listeners]; split_ifs <;> rfl
    rw [hArg, hR.nextWaiter, hR.installed]
    exact h.owner l hl
  refs := by
    obtain ⟨-, hw⟩ := h.phase_of_frame (List.mem_cons_self _ _)
    have hLive := hR.liveListeners hw
    rw [hR.refs, hR.owners, hR.queued, h.refs]
    simp only [List.countP_cons, Frame.isTask] at *
    push_cast
    omega
  frees := by
    have hPos := h.refs_pos (List.cons_ne_nil _ _)
    rw [hR.frees, h.frees, hR.refs, if_neg (by omega)]
    split_ifs <;> omega
  nested := h.nested.tail
  bottom hLast := by
    rcases st with _ | ⟨f, st⟩
    · cases hLast
    · exact hR.owners ▸ h.bottom (by simpa using hLast)

end Ledger

end ShadowProcess
