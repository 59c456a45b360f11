import ShadowProcess.Teardown

/-! # Descriptor references

`process_listenForStatus` takes a reference on the timer and on the descriptor
of each waiter it builds, and `_process_unrefWaiter` releases both when the
waiter's last reference goes; no other function of `process.c` takes or drops
a descriptor reference. In every reachable world each descriptor has had as
many references taken as released, plus one for each field of a live waiter
that names it, so a descriptor that is both a waiter's timer and its
descriptor is held twice. Once the process is freed, no waiter holds one.

The count is the waiters' part of the thread-reference law: the per-waiter
balance read off the waiter's phase, added up over the waiters.
-/

namespace ShadowProcess

set_option autoImplicit false

open World

namespace Event

/-- `e` is a `descriptor_ref` of descriptor `d`. -/
def refsDescriptor (d : Nat) : Event → Bool
  | .descriptorRef e _ => e == d
  | _ => false

/-- `e` is a `descriptor_unref` of descriptor `d`. -/
def unrefsDescriptor (d : Nat) : Event → Bool
  | .descriptorUnref e _ => e == d
  | _ => false

theorem waiter_of_refsDescriptor {d : Nat} {e : Event} (h : e.refsDescriptor d) :
    e.waiter?.isSome := by
  cases e <;> simp_all [refsDescriptor, waiter?]

theorem waiter_of_unrefsDescriptor {d : Nat} {e : Event} (h : e.unrefsDescriptor d) :
    e.waiter?.isSome := by
  cases e <;> simp_all [unrefsDescriptor, waiter?]

end Event

/-- The references a waiter holds on descriptor `d`: one for its timer and one
for its descriptor. -/
def ProcessWaiter.descriptorRefs (W : ProcessWaiter) (d : Nat) : Nat :=
  (if W.timer = some d then 1 else 0) + if W.descriptor = some d then 1 else 0

/-- The references on descriptor `d` that the waiters not yet freed hold. -/
def World.descriptorHolders (s : World) (d : Nat) : Nat :=
  ((List.range s.nextWaiter).map fun w =>
    if (s.waiters w).live then (s.waiters w).descriptorRefs d else 0).sum

/-! ## One waiter -/

theorem countP_armEvents_descriptor (W : ProcessWaiter) (w d : Nat) :
    (armEvents W w).countP (Event.refsDescriptor d) = W.descriptorRefs d ∧
      (armEvents W w).countP (Event.unrefsDescriptor d) = 0 := by
  cases W with
  | mk thread timer _ descriptor =>
    rcases thread <;> rcases timer <;> rcases descriptor <;>
      simp [armEvents, ProcessWaiter.descriptorRefs, Event.refsDescriptor,
        Event.unrefsDescriptor, List.countP_cons, Nat.add_comm]

theorem countP_releaseEvents_descriptor (W : ProcessWaiter) (w d : Nat) :
    (releaseEvents W w).countP (Event.refsDescriptor d) = 0 ∧
      (releaseEvents W w).countP (Event.unrefsDescriptor d) = W.descriptorRefs d := by
  cases W with
  | mk thread timer _ descriptor =>
    rcases thread <;> rcases timer <;> rcases descriptor <;>
      simp [releaseEvents, ProcessWaiter.descriptorRefs, Event.refsDescriptor,
        Event.unrefsDescriptor, List.countP_cons, Nat.add_comm]

/-- A waiter holds its references on `d` from its creation to its free. -/
theorem Ledger.WaiterOk.descriptor_balance {L : Ledger} {st : List Frame} {w : Nat}
    {p : Phase} (h : L.WaiterOk st w p) (d : Nat) :
    (L.events w).countP (Event.refsDescriptor d) =
      (L.events w).countP (Event.unrefsDescriptor d) +
        if (L.waiters w).live then (L.waiters w).descriptorRefs d else 0 :=
  h.balance (countP_armEvents_descriptor _ w d) (countP_releaseEvents_descriptor _ w d)
    ⟨rfl, rfl⟩ fun _ => ⟨rfl, rfl⟩

/-! ## All waiters -/

/-- Events that only waiters make are counted over the waiters already built. -/
theorem Ledger.Inv.countP_waiterOnly {s : World} (h : s.ledger.Inv s.stack) {q : Event → Bool}
    (hq : ∀ e, q e → e.waiter?.isSome) :
    s.trace.countP q = s.trace.countP fun e => q e && e.waiter?.any (· < s.nextWaiter) := by
  rw [← h.countP_isSome]
  exact List.countP_congr fun e _ => by
    cases hqe : q e
    · simp
    · simp [hq e hqe]

theorem World.descriptor_balance {s : World} (h : s.ledger.Inv s.stack) (d : Nat) :
    s.trace.countP (Event.refsDescriptor d) =
      s.trace.countP (Event.unrefsDescriptor d) + s.descriptorHolders d := by
  rw [h.countP_waiterOnly fun _ => Event.waiter_of_refsDescriptor,
    h.countP_waiterOnly fun _ => Event.waiter_of_unrefsDescriptor]
  exact s.balance_below _ _ _ _ fun w hw => by
    simpa using (h.waiter w hw).choose_spec.descriptor_balance d

/-- Every descriptor has had as many references taken by `process.c` as
released, plus one for each field of a live waiter that names it, and once the
process is freed no waiter holds one. So `_process_unrefWaiter` never drops a
reference that `process_listenForStatus` did not take, and no reference
outlives its waiter. -/
theorem descriptor_references {s : World} (hR : Reachable s) (d : Nat) :
    s.trace.countP (Event.refsDescriptor d) =
        s.trace.countP (Event.unrefsDescriptor d) + s.descriptorHolders d ∧
      (.processFree ∈ s.trace → s.descriptorHolders d = 0) := by
  have hI := reachable_inv hR
  refine ⟨World.descriptor_balance hI d, fun hFree => List.sum_eq_zero fun x hx => ?_⟩
  obtain ⟨w, hw, rfl⟩ := List.mem_map.mp hx
  have hGone := (hI.done_of_freed hFree (List.mem_range.mp hw)).live
  simp only [ledger_waiters] at hGone
  simp [hGone]

/-- The guest blocks on a timer that is also the descriptor it waits on: its
waiter holds that descriptor twice. -/
theorem descriptor_references_sameTimer :
    ∃ s, Reachable s ∧ s.descriptorHolders 7 = 2 ∧
      (s.trace.countP (Event.refsDescriptor 7) =
          s.trace.countP (Event.unrefsDescriptor 7) + s.descriptorHolders 7 ∧
        (.processFree ∈ s.trace → s.descriptorHolders 7 = 0)) := by
  have hR := reachable_run [.schedule 0, .runTask 0 3 4 "", .listen (some 7) (some 7) dsReadable]
    (@Reachable.boot ⟨"/data"⟩ 1 0 0 .preload "host" (some "app") (some "/bin/app") [] [] _ rfl)
    rfl
  exact ⟨_, hR, by decide, descriptor_references hR 7⟩

end ShadowProcess
