import ShadowProcess.Process

/-! # Scheduling the start and stop tasks

`process_schedule` and the two task callbacks, then the worker's event queue,
which runs tasks by deadline and, among equal deadlines, in insertion order.
The queue is modelled from the spec (§5); the worker machine itself runs the
scheduled tasks in any order, so nothing proved there depends on it.
-/

namespace ShadowProcess

set_option autoImplicit false

open World

theorem time_lt_iff {a b : SimulationTime} : a < b ↔ a.toNat < b.toNat := Iff.rfl

theorem time_le_iff {a b : SimulationTime} : a ≤ b ↔ a.toNat ≤ b.toNat := Iff.rfl

theorem time_eq_iff {a b : SimulationTime} : a = b ↔ a.toNat = b.toNat :=
  ⟨congrArg UInt64.toNat, UInt64.toNat.inj⟩

theorem time_le_of_lt {a b : SimulationTime} (h : a < b) : a ≤ b := by
  rw [time_lt_iff] at h
  rw [time_le_iff]
  omega

theorem toNat_time_add (a b : SimulationTime) : (a + b).toNat = (a.toNat + b.toNat) % 2 ^ 64 :=
  rfl

theorem toNat_time_sub {a b : SimulationTime} (h : b ≤ a) : (a - b).toNat = a.toNat - b.toNat :=
  UInt64.toNat_sub_of_le a b h

/-- The delay `process_schedule` posts for an event at time `t`:
`t <= now ? 1 : t - now`. -/
def scheduleDelay (t now : SimulationTime) : SimulationTime := if t ≤ now then 1 else t - now

/-- Modelled from the spec: `worker_scheduleTask` posts a task `delay` after `now`. -/
def World.scheduleTask (s : World) (kind : TaskKind) (now delay : SimulationTime) : World :=
  s.setTasks (s.tasks ++ [{ kind, deadline := now + delay }])

/-- `process_schedule`: each posted task takes a process reference. -/
def processSchedule (now : SimulationTime) (s : World) : World :=
  let p := s.proc
  let s := if p.stopTime = 0 ∨ p.startTime < p.stopTime then
      (processRef s).scheduleTask .start now (scheduleDelay p.startTime now)
    else s
  if 0 < p.stopTime ∧ p.startTime < p.stopTime then
    (processRef s).scheduleTask .stop now (scheduleDelay p.stopTime now)
  else s

/-- `_process_runStartTask` and `_process_runStopTask`; `stdoutFD`, `stderrFD`
and `err` are what `open` gives `_process_start`. -/
def processRunTask (kind : TaskKind) (stdoutFD stderrFD : Int) (err : String) (s : World) :
    Except String World :=
  match kind with
  | .start => processStart stdoutFD stderrFD err s
  | .stop => .ok (processStop s)

/-! ## Delays and deadlines -/

theorem scheduleDelay_pos (t now : SimulationTime) : 1 ≤ (scheduleDelay t now).toNat := by
  unfold scheduleDelay
  split
  · decide
  · rename_i hLe
    rw [toNat_time_sub (time_le_of_lt (UInt64.not_le.mp hLe))]
    rw [UInt64.not_le, time_lt_iff] at hLe
    omega

theorem scheduleDelay_of_lt {t now : SimulationTime} (h : now < t) :
    scheduleDelay t now = t - now ∧ (scheduleDelay t now).toNat = t.toNat - now.toNat := by
  have hNot : ¬ t ≤ now := UInt64.not_le.mpr h
  simp only [scheduleDelay, hNot, if_false, true_and]
  exact toNat_time_sub (time_le_of_lt h)

/-- Below the last representable time, a deadline never wraps around. -/
theorem deadline_toNat (t now : SimulationTime) (hNow : now.toNat < 2 ^ 64 - 1) :
    (now + scheduleDelay t now).toNat = max (now.toNat + 1) t.toNat := by
  have ht := t.toNat_lt_size
  rw [toNat_time_add]
  unfold scheduleDelay
  split
  · rename_i hLe
    rw [time_le_iff] at hLe
    show (now.toNat + 1) % 2 ^ 64 = _
    rw [Nat.mod_eq_of_lt (by omega)]
    omega
  · rename_i hLe
    have hLt := UInt64.not_le.mp hLe
    rw [toNat_time_sub (time_le_of_lt hLt)]
    rw [time_lt_iff] at hLt
    rw [Nat.mod_eq_of_lt (by simp only [UInt64.size] at ht; omega)]
    omega

end ShadowProcess
