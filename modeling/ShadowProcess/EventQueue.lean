import ShadowProcess.Schedule

/-! # The worker's event queue

Modelled from the spec (§5): the worker runs its tasks by deadline and, among
equal deadlines, in insertion order. An entry is a task with its insertion
number; `pop` takes the entry that runs before all others. Whatever the queue
does between, an entry that runs before another is popped before it; with the
deadlines `process_schedule` posts, the start task is popped before the stop
task.
-/

namespace ShadowProcess

set_option autoImplicit false

/-- A task in the queue, with its insertion number. -/
structure QueuedTask where
  seq : Nat
  task : Task
  deriving DecidableEq, Repr

/-- `a` runs before `b`: an earlier deadline, or the same deadline and inserted first. -/
def QueuedTask.runsBefore (a b : QueuedTask) : Prop :=
  a.task.deadline < b.task.deadline ∨ a.task.deadline = b.task.deadline ∧ a.seq < b.seq

instance : DecidableRel QueuedTask.runsBefore := fun _ _ => inferInstanceAs (Decidable (_ ∨ _))

/-- Modelled from the spec: the event queue of a worker. -/
structure EventQueue where
  entries : List QueuedTask
  nextSeq : Nat

/-- The entry that runs before all others. -/
def earliest : List QueuedTask → Option QueuedTask
  | [] => none
  | x :: xs =>
    match earliest xs with
    | none => some x
    | some y => if y.runsBefore x then some y else some x

namespace EventQueue

/-- `worker_scheduleTask`, once the deadline is computed. -/
def push (q : EventQueue) (t : Task) : EventQueue :=
  ⟨q.entries ++ [⟨q.nextSeq, t⟩], q.nextSeq + 1⟩

/-- The event loop takes the next task to run. -/
def pop (q : EventQueue) : Option (QueuedTask × EventQueue) :=
  (earliest q.entries).map fun e => (e, { q with entries := q.entries.erase e })

end EventQueue

inductive QueueOp where
  | push (t : Task)
  | pop
  deriving DecidableEq, Repr

/-- The entries popped by the operations `ops`, in order. -/
def EventQueue.exec (q : EventQueue) : List QueueOp → List QueuedTask
  | [] => []
  | .push t :: ops => (q.push t).exec ops
  | .pop :: ops =>
    match q.pop with
    | some (e, q') => e :: q'.exec ops
    | none => q.exec ops

/-! ## The order -/

namespace QueuedTask

variable {a b c : QueuedTask}

theorem runsBefore_iff : a.runsBefore b ↔
    a.task.deadline.toNat < b.task.deadline.toNat ∨
      a.task.deadline.toNat = b.task.deadline.toNat ∧ a.seq < b.seq := by
  rw [runsBefore, time_lt_iff, time_eq_iff]

theorem runsBefore_irrefl (a : QueuedTask) : ¬ a.runsBefore a := by
  rw [runsBefore_iff]; omega

theorem runsBefore_asymm (h : a.runsBefore b) : ¬ b.runsBefore a := by
  rw [runsBefore_iff] at *; omega

/-- Not running before is transitive: the order is by a key. -/
theorem not_runsBefore_trans (hab : ¬ a.runsBefore b) (hbc : ¬ b.runsBefore c) :
    ¬ a.runsBefore c := by
  rw [runsBefore_iff] at *; omega

end QueuedTask

open QueuedTask

theorem earliest_eq_none {l : List QueuedTask} (h : earliest l = none) : l = [] := by
  cases l with
  | nil => rfl
  | cons x xs =>
    simp only [earliest] at h
    split at h
    · cases h
    · split at h <;> cases h

/-- `earliest` picks an entry that no other runs before. -/
theorem earliest_spec {l : List QueuedTask} {e : QueuedTask} (h : earliest l = some e) :
    e ∈ l ∧ ∀ x ∈ l, ¬ x.runsBefore e := by
  induction l generalizing e with
  | nil => cases h
  | cons x xs ih =>
    simp only [earliest] at h
    split at h
    · rename_i hNone
      cases h
      rw [earliest_eq_none hNone]
      exact ⟨List.mem_singleton_self _, by simpa using runsBefore_irrefl x⟩
    · rename_i y hy
      obtain ⟨hyMem, hyMin⟩ := ih hy
      split at h <;> cases h
      · rename_i hyx
        exact ⟨List.mem_cons_of_mem _ hyMem, fun z hz => (List.mem_cons.mp hz).elim
          (fun hzx => hzx ▸ runsBefore_asymm hyx) (hyMin z)⟩
      · rename_i hyx
        exact ⟨List.mem_cons_self _ _, fun z hz => (List.mem_cons.mp hz).elim
          (fun hzx => hzx ▸ runsBefore_irrefl _)
          fun hzxs => not_runsBefore_trans (hyMin z hzxs) hyx⟩

theorem EventQueue.pop_spec {q q' : EventQueue} {e : QueuedTask} (h : q.pop = some (e, q')) :
    e ∈ q.entries ∧ (∀ x ∈ q.entries, ¬ x.runsBefore e) ∧
      q'.entries = q.entries.erase e := by
  simp only [pop, Option.map_eq_some'] at h
  obtain ⟨e', he', hEq⟩ := h
  cases hEq
  exact ⟨(earliest_spec he').1, (earliest_spec he').2, rfl⟩

/-- Whatever is pushed and popped, an entry in the queue that runs before `b`
is popped before `b`. -/
theorem EventQueue.exec_runsBefore {a b : QueuedTask} (hab : a.runsBefore b) (ops : List QueueOp) :
    ∀ (q : EventQueue) (pre post : List QueuedTask), a ∈ q.entries →
      q.exec ops = pre ++ b :: post → a ∈ pre := by
  induction ops with
  | nil => intro q pre post _ h; simp [exec] at h
  | cons op ops ih =>
    intro q pre post ha h
    cases op with
    | push t => exact ih (q.push t) pre post (List.mem_append_left _ ha) h
    | pop =>
      simp only [exec] at h
      split at h
      · rename_i e q' hPop
        obtain ⟨-, hMin, hErase⟩ := pop_spec hPop
        rcases pre with _ | ⟨p, pre⟩
        · cases h
          exact absurd hab (hMin a ha)
        · simp only [List.cons_append, List.cons.injEq] at h
          obtain ⟨rfl, h⟩ := h
          by_cases hae : a = e
          · exact hae ▸ List.mem_cons_self _ _
          · refine List.mem_cons_of_mem _ (ih q' pre post ?_ h)
            rw [hErase]
            exact (List.mem_erase_of_ne hae).mpr ha
      · exact ih q pre post ha h

/-! ## The tasks `process_schedule` posts -/

open World

theorem processSchedule_tasks (now : SimulationTime) (s : World) :
    (processSchedule now s).tasks = s.tasks ++
      (if s.proc.stopTime = 0 ∨ s.proc.startTime < s.proc.stopTime then
        [⟨.start, now + scheduleDelay s.proc.startTime now⟩] else []) ++
      (if 0 < s.proc.stopTime ∧ s.proc.startTime < s.proc.stopTime then
        [⟨.stop, now + scheduleDelay s.proc.stopTime now⟩] else []) := by
  unfold processSchedule
  dsimp only
  split_ifs <;> simp [scheduleTask, processRef]

/-- `process_schedule` below the last representable time: which tasks it posts,
their delays (at least one tick, `t - now` for a future `t`, never wrapping) and
deadlines; the start deadline is at most the stop deadline, and below it exactly
when `stopTime > now + 1`; so the queue pops the start task before the stop
task, whatever it does in between. -/
theorem schedule_start_before_stop (s : World) (now : SimulationTime)
    (hNow : now.toNat < 2 ^ 64 - 1) :
    let p := s.proc
    let start : Task := ⟨.start, now + scheduleDelay p.startTime now⟩
    let stop : Task := ⟨.stop, now + scheduleDelay p.stopTime now⟩
    (processSchedule now s).tasks = s.tasks ++
        (if p.stopTime = 0 ∨ p.startTime < p.stopTime then [start] else []) ++
        (if 0 < p.stopTime ∧ p.startTime < p.stopTime then [stop] else []) ∧
      (∀ t : SimulationTime, 1 ≤ (scheduleDelay t now).toNat ∧
        (now < t → scheduleDelay t now = t - now ∧
          (scheduleDelay t now).toNat = t.toNat - now.toNat)) ∧
      start.deadline.toNat = max (now.toNat + 1) p.startTime.toNat ∧
      stop.deadline.toNat = max (now.toNat + 1) p.stopTime.toNat ∧
      (p.startTime < p.stopTime →
        start.deadline ≤ stop.deadline ∧
          (start.deadline < stop.deadline ↔ now.toNat + 1 < p.stopTime.toNat) ∧
          ∀ (q : EventQueue) (ops : List QueueOp) (pre post : List QueuedTask),
            ((q.push start).push stop).exec ops = pre ++ ⟨q.nextSeq + 1, stop⟩ :: post →
              ⟨q.nextSeq, start⟩ ∈ pre) := by
  dsimp only
  have hStart := deadline_toNat s.proc.startTime now hNow
  have hStop := deadline_toNat s.proc.stopTime now hNow
  refine ⟨processSchedule_tasks now s,
    fun t => ⟨scheduleDelay_pos t now, scheduleDelay_of_lt⟩, hStart, hStop, fun hLt => ?_⟩
  rw [time_lt_iff] at hLt
  refine ⟨by rw [time_le_iff]; omega, by rw [time_lt_iff]; omega, fun q ops pre post h => ?_⟩
  refine EventQueue.exec_runsBefore ?_ ops _ pre post ?_ h
  · rw [runsBefore_iff]
    simp only
    omega
  · simp [EventQueue.push]

/-- A process started at 1000 and stopped at 2000, scheduled at 500. -/
theorem schedule_start_before_stop_newProcess :
    ∃ (s : World) (now : SimulationTime), now.toNat < 2 ^ 64 - 1 ∧
      let p := s.proc
      let start : Task := ⟨.start, now + scheduleDelay p.startTime now⟩
      let stop : Task := ⟨.stop, now + scheduleDelay p.stopTime now⟩
      (processSchedule now s).tasks = s.tasks ++
          (if p.stopTime = 0 ∨ p.startTime < p.stopTime then [start] else []) ++
          (if 0 < p.stopTime ∧ p.startTime < p.stopTime then [stop] else []) ∧
        (∀ t : SimulationTime, 1 ≤ (scheduleDelay t now).toNat ∧
          (now < t → scheduleDelay t now = t - now ∧
            (scheduleDelay t now).toNat = t.toNat - now.toNat)) ∧
        start.deadline.toNat = max (now.toNat + 1) p.startTime.toNat ∧
        stop.deadline.toNat = max (now.toNat + 1) p.stopTime.toNat ∧
        (p.startTime < p.stopTime →
          start.deadline ≤ stop.deadline ∧
            (start.deadline < stop.deadline ↔ now.toNat + 1 < p.stopTime.toNat) ∧
            ∀ (q : EventQueue) (ops : List QueueOp) (pre post : List QueuedTask),
              ((q.push start).push stop).exec ops = pre ++ ⟨q.nextSeq + 1, stop⟩ :: post →
                ⟨q.nextSeq, start⟩ ∈ pre) :=
  ⟨newProcessWorld ⟨"/data"⟩ 1 1000 2000 .preload "host" "app" "/bin/app" [] [], 500,
    by decide, schedule_start_before_stop _ 500 (by decide)⟩

end ShadowProcess
