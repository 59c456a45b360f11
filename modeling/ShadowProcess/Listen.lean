import ShadowProcess.Invariant

/-! # Arming a waiter

`process_listenForStatus` on the ledger: what it builds (`Arms`), and that the
new waiter is armed while every other waiter keeps its phase.
-/

namespace ShadowProcess

set_option autoImplicit false

namespace Ledger

section Install

variable (L : Ledger) (w d : Nat) (status : DescriptorStatus)
  (store : ProcessWaiter → Nat → ProcessWaiter)

@[simp] theorem install_nextListener :
    (L.install w d status store).nextListener = L.nextListener + 1 := rfl

@[simp] theorem install_nextWaiter : (L.install w d status store).nextWaiter = L.nextWaiter := rfl

@[simp] theorem install_refs : (L.install w d status store).refs = L.refs + 1 := rfl

@[simp] theorem install_owners : (L.install w d status store).owners = L.owners := rfl

@[simp] theorem install_queued : (L.install w d status store).queued = L.queued := rfl

@[simp] theorem install_frees : (L.install w d status store).frees = L.frees := rfl

@[simp] theorem install_events : (L.install w d status store).events = L.events := rfl

@[simp] theorem install_waiters :
    (L.install w d status store).waiters = Function.update L.waiters w
      { store (L.waiters w) L.nextListener with
        referenceCount := (store (L.waiters w) L.nextListener).referenceCount + 1 } := rfl

@[simp] theorem install_listeners :
    (L.install w d status store).listeners = Function.update L.listeners L.nextListener
      { argument := w, monitoring := status, filter := .offToOn, attachedTo := some d, refs := 2,
        live := true } := rfl

theorem liveListeners_install :
    (L.install w d status store).liveListeners = L.liveListeners + 1 := by
  simp only [liveListeners, install_nextListener, install_listeners, List.range_succ,
    List.countP_append, List.countP_singleton, Function.update_same]
  rw [List.countP_congr fun i hi => by
    rw [Function.update_noteq (Nat.ne_of_lt (List.mem_range.mp hi))]]
  rfl

end Install

/-- What `process_listenForStatus` does to the ledger `L` when it builds the
waiter `W`: `W` takes the next number, its listeners the next numbers, and each
listener is armed and holds the process. -/
structure Arms (L L' : Ledger) (W : ProcessWaiter) : Prop where
  nextWaiter : L'.nextWaiter = L.nextWaiter + 1
  waiters : L'.waiters = Function.update L.waiters L.nextWaiter W
  events : L'.events =
    Function.update L.events L.nextWaiter (L.events L.nextWaiter ++ armEvents W L.nextWaiter)
  nextListener : L'.nextListener = L.nextListener + W.installed.length
  old : ∀ l < L.nextListener, L'.listeners l = L.listeners l
  installed : ∀ l, l ∈ W.installed ↔ L.nextListener ≤ l ∧ l < L'.nextListener
  timer : L'.SideOk .armed L.nextWaiter W.timer W.timerListener
  descriptor : L'.SideOk .armed L.nextWaiter W.descriptor W.descriptorListener
  nonempty : W.installed ≠ []
  distinct : W.installed.Nodup
  live : W.live
  waiterRefs : W.referenceCount = W.installed.length
  refs : L'.refs = L.refs + W.installed.length
  liveListeners : L'.liveListeners = L.liveListeners + W.installed.length
  owners : L'.owners = L.owners
  queued : L'.queued = L.queued
  frees : L'.frees = L.frees

/-- The waiter `process_listenForStatus` builds when its listeners take the
numbers from `n` on, timer side first. -/
def builtWaiter (thread timeout descriptor : Option Nat) (n : Nat) : ProcessWaiter where
  thread := thread
  timer := timeout
  timerListener := timeout.map fun _ => n
  descriptor := descriptor
  descriptorListener := descriptor.map fun _ => if timeout.isSome then n + 1 else n
  referenceCount := (timeout.toList ++ descriptor.toList).length
  live := true

theorem listen_arms (L : Ledger) (thread timeout descriptor : Option Nat)
    (status : DescriptorStatus) (h : (timeout.isNone && descriptor.isNone) = false) :
    L.Arms (L.listen thread timeout descriptor status)
      (builtWaiter thread timeout descriptor L.nextListener) := by
  rcases timeout with _ | a <;> rcases descriptor with _ | b
  · cases h
  all_goals
    constructor <;>
      simp [listen, builtWaiter, SideOk, Phase.ListenerOk, ProcessWaiter.installed, setWaiter, emit,
        liveListeners_install, armEvents]
  all_goals first
    | rfl
    | omega
    | intro l hl
      simp [Function.update_apply, Nat.ne_of_lt hl, show l ≠ L.nextListener + 1 by omega]

section Preserve

variable {L L' : Ledger} {st : List Frame} {W : ProcessWaiter}

theorem Arms.waiter_new (hA : L.Arms L' W) : L'.waiters L.nextWaiter = W := by
  rw [hA.waiters, Function.update_same]

/-- The new waiter is armed. -/
theorem Arms.waiterOk (hA : L.Arms L' W) (hEvents : L.events L.nextWaiter = [])
    (hFrame : Frame.notifyReturn L.nextWaiter ∉ st) : L'.WaiterOk st L.nextWaiter .armed where
  timer := hA.waiter_new ▸ hA.timer
  descriptor := hA.waiter_new ▸ hA.descriptor
  nonempty := hA.waiter_new ▸ hA.nonempty
  distinct := hA.waiter_new ▸ hA.distinct
  live := by simp [hA.waiter_new, hA.live]
  refs := by simp [hA.waiter_new, hA.waiterRefs]
  events := by simp [hA.events, hA.waiter_new, hEvents, Phase.events]
  frames := by simp [List.count_eq_zero.mpr hFrame]

/-- Every older waiter keeps its phase. -/
theorem Arms.waiterOk_old (hA : L.Arms L' W) {v : Nat} {p : Phase} (hv : v < L.nextWaiter)
    (hp : L.WaiterOk st v p) : L'.WaiterOk st v p := by
  have hNe : v ≠ L.nextWaiter := Nat.ne_of_lt hv
  refine hp.transport (by rw [hA.waiters, Function.update_noteq hNe])
    (by rw [hA.events, Function.update_noteq hNe]) (fun l hl => hA.old l (hp.listener hl).1)
    (by rw [hA.nextListener]; omega) rfl

theorem Inv.arm (h : L.Inv st) (hA : L.Arms L' W) (hPos : 0 < L.refs) : L'.Inv st where
  waiter v hv := by
    rw [hA.nextWaiter] at hv
    rcases Nat.lt_succ_iff_lt_or_eq.mp hv with hv | rfl
    · exact (h.waiter v hv).imp fun _ hp => hA.waiterOk_old hv hp
    · exact ⟨.armed, hA.waiterOk (h.fresh _ (Nat.le_refl _)).1 (h.fresh _ (Nat.le_refl _)).2⟩
  fresh v hv := by
    rw [hA.nextWaiter] at hv
    rw [hA.events, Function.update_noteq (by omega)]
    exact h.fresh v (by omega)
  owner l hl := by
    by_cases hOld : l < L.nextListener
    · obtain ⟨hArg, hMem⟩ := h.owner l hOld
      rw [hA.old l hOld, hA.nextWaiter, hA.waiters, Function.update_noteq (Nat.ne_of_lt hArg)]
      exact ⟨by omega, hMem⟩
    · have hMem : l ∈ W.installed := (hA.installed l).mpr ⟨by omega, hl⟩
      have hArg :=
        ((hA.waiterOk (h.fresh _ (Nat.le_refl _)).1 (h.fresh _ (Nat.le_refl _)).2).listener
        (hA.waiter_new ▸ hMem)).2.1
      rw [hArg, hA.nextWaiter, hA.waiter_new]
      exact ⟨by omega, hMem⟩
  refs := by
    rw [hA.refs, hA.owners, hA.queued, hA.liveListeners, h.refs]
    push_cast
    omega
  frees := by
    have hRefs : L'.refs ≠ 0 := by rw [hA.refs]; omega
    rw [hA.frees, h.frees, if_neg (by omega), if_neg hRefs]
  nested := h.nested
  bottom := hA.owners ▸ h.bottom

theorem Inv.listen (h : L.Inv st) (hPos : 0 < L.refs) (thread timeout descriptor : Option Nat)
    (status : DescriptorStatus) : (L.listen thread timeout descriptor status).Inv st := by
  cases hNone : (timeout.isNone && descriptor.isNone)
  · exact h.arm (listen_arms L thread timeout descriptor status hNone) hPos
  · rwa [Ledger.listen, if_pos hNone]

end Preserve

end Ledger

end ShadowProcess
