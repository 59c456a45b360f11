import ShadowProcess.WaiterLedger
import Mathlib.Data.List.Chain

/-! # The reference and waiter invariant

What holds of the ledger and the stack in every reachable world. The stack is a
well-nested chain of calls from the event loop. Each waiter is in one of three
phases: armed (both listeners in their descriptors' tables), notifying
(`_process_notifyStatusChanged` has run up to `process_continue`) or done (its
listeners destroyed, the waiter freed); its events, its reference count and its
listeners are fixed by the phase. The process's reference count is the number
of its holders, and it has been freed exactly when that number is zero.
-/

namespace ShadowProcess

set_option autoImplicit false

/-! ## The stack -/

/-- `upper` is suspended right above `lower`: who calls whom. -/
def Frame.sitsOn : Frame → Frame → Bool
  | .guest _, .startReturn => true
  | .guest _, .continueReturn => true
  | .startReturn, .task _ => true
  | .continueReturn, .notifyReturn _ => true
  | .notifyReturn _, .guest _ => true
  | _, _ => false

/-- A frame the event loop calls directly. -/
def Frame.isBottom : Frame → Bool
  | .task _ | .continueReturn | .notifyReturn _ => true
  | _ => false

/-- The stack is a chain of calls made from the event loop. -/
def StackOk (stack : List Frame) : Prop :=
  stack.Chain' (fun a b => a.sitsOn b) ∧ ∀ f ∈ stack.getLast?, f.isBottom

theorem StackOk.cons {f : Frame} {st : List Frame} (h : StackOk st)
    (hSits : ∀ g ∈ st.head?, f.sitsOn g) (hBottom : st = [] → f.isBottom) :
    StackOk (f :: st) := by
  refine ⟨List.chain'_cons'.mpr ⟨hSits, h.1⟩, fun g hg => ?_⟩
  rcases st with _ | ⟨f', st⟩
  · cases hg
    exact hBottom rfl
  · exact h.2 g (by simpa using hg)

theorem StackOk.tail {f : Frame} {st : List Frame} (h : StackOk (f :: st)) : StackOk st := by
  refine ⟨h.1.tail, fun g hg => h.2 g ?_⟩
  rcases st with _ | ⟨f', st⟩
  · cases hg
  · simpa using hg

/-! ## Waiter phases -/

inductive Phase where
  | armed
  | notifying
  | done
  deriving DecidableEq, Repr

/-- The read of `waiter->descriptorListener` that `_process_notifyStatusChanged`
makes after the unref of the timer listener freed a timer-only waiter. -/
def staleReads (W : ProcessWaiter) (w : Nat) : List Event :=
  if W.descriptorListener.isNone then [.useAfterFree w .descriptorListener] else []

/-- The events of waiter `W` (number `w`) in phase `p`. -/
def Phase.events (W : ProcessWaiter) (w : Nat) : Phase → List Event
  | .armed => armEvents W w
  | .notifying => armEvents W w ++ [.notify w W.thread]
  | .done => armEvents W w ++ [.notify w W.thread] ++ releaseEvents W w ++ staleReads W w

/-- A listener of a waiter in phase `p`, installed on descriptor `d`. -/
def Phase.ListenerOk (p : Phase) (d : Nat) (X : DescriptorListener) : Prop :=
  match p with
  | .armed => X.attachedTo = some d ∧ X.refs = 2 ∧ X.live ∧ X.filter = .offToOn
  | .notifying => X.attachedTo = none ∧ X.refs = 1 ∧ X.live ∧ X.filter = .never
  | .done => X.attachedTo = none ∧ X.refs = 0 ∧ X.live = false ∧ X.filter = .never

namespace Ledger

/-- The listeners not yet destroyed. -/
def liveListeners (L : Ledger) : Nat :=
  (List.range L.nextListener).countP fun l => (L.listeners l).live

/-- One side of waiter `w` in phase `p`: its descriptor and listener are set
together, and the listener belongs to `w`. -/
def SideOk (L : Ledger) (p : Phase) (w : Nat) (d? l? : Option Nat) : Prop :=
  d?.isSome = l?.isSome ∧
    ∀ d l, d? = some d → l? = some l →
      l < L.nextListener ∧ (L.listeners l).argument = w ∧ p.ListenerOk d (L.listeners l)

/-- Waiter `w` is in phase `p`; a notifying waiter's return frame is on the stack. -/
structure WaiterOk (L : Ledger) (stack : List Frame) (w : Nat) (p : Phase) : Prop where
  timer : L.SideOk p w (L.waiters w).timer (L.waiters w).timerListener
  descriptor : L.SideOk p w (L.waiters w).descriptor (L.waiters w).descriptorListener
  nonempty : (L.waiters w).installed ≠ []
  distinct : (L.waiters w).installed.Nodup
  live : (L.waiters w).live = (p != .done)
  refs : (L.waiters w).referenceCount = if p = .done then 0 else (L.waiters w).installed.length
  events : L.events w = p.events (L.waiters w) w
  frames : stack.count (.notifyReturn w) = if p = .notifying then 1 else 0

/-- The invariant of every reachable world, on its ledger and its stack. -/
structure Inv (L : Ledger) (stack : List Frame) : Prop where
  waiter : ∀ w < L.nextWaiter, ∃ p, L.WaiterOk stack w p
  fresh : ∀ w, L.nextWaiter ≤ w → L.events w = [] ∧ Frame.notifyReturn w ∉ stack
  owner : ∀ l < L.nextListener,
    (L.listeners l).argument < L.nextWaiter ∧ l ∈ (L.waiters (L.listeners l).argument).installed
  refs : L.refs = (L.owners + L.queued + stack.countP Frame.isTask + L.liveListeners : Nat)
  frees : L.frees = if L.refs = 0 then 1 else 0
  nested : StackOk stack
  bottom : stack.getLast? = some .continueReturn → 0 < L.owners

/-! ## Counting live listeners -/

theorem countP_range_update {α : Type} (f : Nat → α) (q : α → Bool) {l n : Nat} (hl : l < n)
    (x : α) :
    (List.range n).countP (fun i => q (Function.update f l x i)) + (if q (f l) then 1 else 0) =
      (List.range n).countP (fun i => q (f i)) + (if q x then 1 else 0) := by
  induction n with
  | zero => omega
  | succ n ih =>
    simp only [List.range_succ, List.countP_append, List.countP_singleton]
    rcases Nat.lt_succ_iff_lt_or_eq.mp hl with hl | rfl
    · have := ih hl
      simp only [Function.update_noteq (Nat.ne_of_gt hl)]
      omega
    · have hSame : (List.range l).countP (fun i => q (Function.update f l x i)) =
          (List.range l).countP (fun i => q (f i)) :=
        List.countP_congr fun i hi => by
          rw [Function.update_noteq (Nat.ne_of_lt (List.mem_range.mp hi))]
      simp only [hSame, Function.update_same]
      omega

theorem liveListeners_setListener {L : Ledger} {l : Nat} (hl : l < L.nextListener)
    (X : DescriptorListener) :
    (L.setListener l X).liveListeners + (if (L.listeners l).live then 1 else 0) =
      L.liveListeners + (if X.live then 1 else 0) :=
  countP_range_update L.listeners DescriptorListener.live hl X

theorem liveListeners_pos {L : Ledger} {l : Nat} (hl : l < L.nextListener)
    (hLive : (L.listeners l).live) : 0 < L.liveListeners :=
  List.countP_pos_iff.mpr ⟨l, List.mem_range.mpr hl, hLive⟩

/-! ## Moving a waiter's facts to another ledger -/

variable {L L' : Ledger} {st st' : List Frame} {w : Nat} {p : Phase}

theorem SideOk.listener {d? l? : Option Nat} (h : L.SideOk p w d? l?) {l : Nat}
    (hl : l? = some l) :
    l < L.nextListener ∧ (L.listeners l).argument = w ∧
      ∃ d, d? = some d ∧ p.ListenerOk d (L.listeners l) := by
  obtain ⟨d, hd⟩ : ∃ d, d? = some d := Option.isSome_iff_exists.mp (by rw [h.1, hl]; rfl)
  obtain ⟨h1, h2, h3⟩ := h.2 d l hd hl
  exact ⟨h1, h2, d, hd, h3⟩

theorem SideOk.transport {d? l? : Option Nat} (h : L.SideOk p w d? l?)
    (hX : ∀ l, l? = some l → L'.listeners l = L.listeners l)
    (hN : L.nextListener ≤ L'.nextListener) : L'.SideOk p w d? l? := by
  refine ⟨h.1, fun d l hd hl => ?_⟩
  obtain ⟨h1, h2, h3⟩ := h.2 d l hd hl
  rw [hX l hl]
  exact ⟨by omega, h2, h3⟩

theorem mem_installed {W : ProcessWaiter} {l : Nat} :
    l ∈ W.installed ↔ W.timerListener = some l ∨ W.descriptorListener = some l := by
  simp [ProcessWaiter.installed, eq_comm]

theorem WaiterOk.listener (h : L.WaiterOk st w p) {l : Nat} (hl : l ∈ (L.waiters w).installed) :
    l < L.nextListener ∧ (L.listeners l).argument = w ∧
      ∃ d, p.ListenerOk d (L.listeners l) := by
  rcases mem_installed.mp hl with hl | hl
  · obtain ⟨h1, h2, d, -, h3⟩ := h.timer.listener hl
    exact ⟨h1, h2, d, h3⟩
  · obtain ⟨h1, h2, d, -, h3⟩ := h.descriptor.listener hl
    exact ⟨h1, h2, d, h3⟩

theorem WaiterOk.transport (h : L.WaiterOk st w p) (hW : L'.waiters w = L.waiters w)
    (hE : L'.events w = L.events w)
    (hX : ∀ l ∈ (L.waiters w).installed, L'.listeners l = L.listeners l)
    (hN : L.nextListener ≤ L'.nextListener)
    (hF : st'.count (.notifyReturn w) = st.count (.notifyReturn w)) : L'.WaiterOk st' w p where
  timer := hW ▸ h.timer.transport (fun l hl => hX l (mem_installed.mpr (.inl hl))) hN
  descriptor := hW ▸ h.descriptor.transport (fun l hl => hX l (mem_installed.mpr (.inr hl))) hN
  nonempty := hW ▸ h.nonempty
  distinct := hW ▸ h.distinct
  live := hW ▸ h.live
  refs := hW ▸ h.refs
  events := hE ▸ hW ▸ h.events
  frames := hF ▸ h.frames

/-! ## Consequences of the invariant -/

theorem WaiterOk.of_frame (h : L.WaiterOk st w p) (hMem : Frame.notifyReturn w ∈ st) :
    p = .notifying := by
  have := h.frames
  have := List.count_pos_iff.mpr hMem
  cases p <;> simp_all

theorem Inv.phase_of_frame (h : L.Inv st) (hMem : Frame.notifyReturn w ∈ st) :
    w < L.nextWaiter ∧ L.WaiterOk st w .notifying := by
  have hw : w < L.nextWaiter := Nat.lt_of_not_le fun hw => (h.fresh w hw).2 hMem
  obtain ⟨p, hp⟩ := h.waiter w hw
  exact ⟨hw, hp.of_frame hMem ▸ hp⟩

/-- A call on the stack holds the process. -/
theorem Inv.refs_pos (h : L.Inv st) (hSt : st ≠ []) : 0 < L.refs := by
  obtain ⟨f, hf⟩ := Option.ne_none_iff_exists'.mp (mt List.getLast?_eq_none_iff.mp hSt)
  have hMem : f ∈ st := List.mem_of_getLast?_eq_some hf
  have hHolders : 0 < L.owners + L.queued + st.countP Frame.isTask + L.liveListeners := by
    have hBottom := h.nested.2 f hf
    cases f with
    | task t =>
      have : 0 < st.countP Frame.isTask := List.countP_pos_iff.mpr ⟨_, hMem, rfl⟩
      omega
    | continueReturn =>
      have := h.bottom hf
      omega
    | notifyReturn w =>
      obtain ⟨-, hw⟩ := h.phase_of_frame hMem
      obtain ⟨l, hl⟩ := List.exists_mem_of_ne_nil _ hw.nonempty
      obtain ⟨hlt, -, d, -, -, hLive, -⟩ := hw.listener hl
      have := liveListeners_pos hlt hLive
      omega
    | startReturn | guest _ => cases hBottom
  rw [h.refs]
  omega

/-! ## The holders: owners, tasks and calls -/

/-- A change of the counters and of the calls on the stack, which leaves the
waiter frames alone. -/
theorem Inv.reshape (h : L.Inv st) {refs : Int} {owners queued frees : Nat} (hOk : StackOk st')
    (hF : ∀ w, st'.count (.notifyReturn w) = st.count (.notifyReturn w))
    (hRefs : refs = (owners + queued + st'.countP Frame.isTask + L.liveListeners : Nat))
    (hFrees : frees = if refs = 0 then 1 else 0)
    (hB : st'.getLast? = some .continueReturn → 0 < owners) :
    Inv { L with refs := refs, owners := owners, queued := queued, frees := frees } st' where
  waiter v hv := (h.waiter v hv).imp fun _ hp =>
    hp.transport rfl rfl (fun _ _ => rfl) (Nat.le_refl _) (hF v)
  fresh v hv := ⟨(h.fresh v hv).1, by
    rw [← List.count_eq_zero, hF, List.count_eq_zero]; exact (h.fresh v hv).2⟩
  owner := h.owner
  refs := hRefs
  frees := hFrees
  nested := hOk
  bottom := hB

/-- An owner takes a reference. -/
theorem Inv.ownerRef (h : L.Inv []) (hO : 0 < L.owners) :
    Inv { L with refs := L.refs + 1, owners := L.owners + 1 } [] := by
  have := h.refs
  refine h.reshape h.nested (fun _ => rfl) ?_ ?_ (fun _ => by omega)
  · push_cast; omega
  · rw [h.frees, if_neg (by omega), if_neg (by omega)]

/-- An owner drops its reference. -/
theorem Inv.ownerUnref (h : L.Inv []) (hO : 0 < L.owners) :
    Inv ({ L with owners := L.owners - 1 } : Ledger).unrefProcess [] := by
  have := h.refs
  refine h.reshape h.nested (fun _ => rfl) ?_ ?_ (fun hLast => by cases hLast)
  · push_cast; omega
  · rw [h.frees, if_neg (by omega)]; split_ifs <;> omega

/-- `process_schedule` posts a task, which holds a reference. -/
theorem Inv.post (h : L.Inv []) (hPos : 0 < L.refs) :
    Inv { L with refs := L.refs + 1, queued := L.queued + 1 } [] := by
  have := h.refs
  refine h.reshape h.nested (fun _ => rfl) ?_ ?_ (fun hLast => by cases hLast)
  · push_cast; omega
  · rw [h.frees, if_neg (by omega), if_neg (by omega)]

/-- The scheduler takes a task out of the queue and calls it. -/
theorem Inv.runTask (h : L.Inv []) (hq : 0 < L.queued) (t : Task) :
    Inv { L with queued := L.queued - 1 } [.task t] := by
  have := h.refs
  simp only [List.countP_nil, Nat.add_zero] at this
  refine h.reshape ⟨List.chain'_singleton _, by simp [Frame.isBottom]⟩ (fun _ => by simp) ?_
    h.frees
    (fun hLast => by cases hLast)
  simp only [List.countP_singleton, Frame.isTask, if_true]
  push_cast
  omega

/-- The task returns and the scheduler frees it. -/
theorem Inv.retTask {t : Task} (h : L.Inv (.task t :: st)) : L.unrefProcess.Inv st := by
  have hSt : st = [] := by
    rcases st with _ | ⟨f, st⟩
    · rfl
    · have := h.nested.1.rel_head
      cases f <;> simp [Frame.sitsOn] at this
  subst hSt
  have := h.refs
  simp only [List.countP_singleton, Frame.isTask, if_true] at this
  refine h.reshape ⟨List.chain'_nil, by simp⟩ (fun _ => by simp) ?_ ?_
    (fun hLast => by cases hLast)
  · simp only [List.countP_nil, Nat.add_zero, unrefProcess]
    push_cast
    omega
  · rw [h.frees, if_neg (by omega)]; split_ifs <;> omega

/-- Calls pushed on the stack that are neither tasks nor waiter frames. -/
theorem Inv.push (h : L.Inv st) (fs : List Frame) (hOk : StackOk (fs ++ st))
    (hfs : ∀ f ∈ fs, f.isTask = false ∧ ∀ v, f ≠ .notifyReturn v)
    (hB : (fs ++ st).getLast? = some .continueReturn → 0 < L.owners) : L.Inv (fs ++ st) := by
  have hT : (fs ++ st).countP Frame.isTask = st.countP Frame.isTask := by
    rw [List.countP_append, List.countP_eq_zero.mpr fun f hf => by simp [(hfs f hf).1]]
    omega
  exact h.reshape hOk
    (fun v => by rw [List.count_append, List.count_eq_zero.mpr fun hv => (hfs _ hv).2 v rfl]; omega)
    (by rw [hT]; exact h.refs) h.frees hB

/-- A call that is neither a task nor a waiter frame returns. -/
theorem Inv.pop {f : Frame} (h : L.Inv (f :: st)) (hTask : f.isTask = false)
    (hNotify : ∀ v, f ≠ .notifyReturn v) : L.Inv st := by
  refine h.reshape h.nested.tail (fun v => by simp [List.count_cons, hNotify v]) ?_ h.frees ?_
  · simpa [List.countP_cons, hTask] using h.refs
  · intro hLast
    rcases st with _ | ⟨g, st⟩
    · cases hLast
    · exact h.bottom (by simpa using hLast)

end Ledger

end ShadowProcess
