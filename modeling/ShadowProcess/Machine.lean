import ShadowProcess.Schedule
import ShadowProcess.Waiter

/-! # The worker machine

One worker running one process. In its event loop (empty stack) the owners
take and drop references, call `process_schedule` and `process_continue`, and
the scheduler runs a scheduled task, in any order. In the event loop and in
guest code the descriptor layer may deliver a status change to any listener
attached to a descriptor; guest code may block in `process_listenForStatus`,
and its burst ends by yielding or exiting. Every other step is the innermost
suspended C function resuming after its callee returned.

A step is `none` when the action is not possible, and `.error` when the code
aborts the simulator.
-/

namespace ShadowProcess

set_option autoImplicit false

open World

/-- What happens next on the worker: an owner refs, unrefs, schedules or resumes
(`process_continue(proc, NULL)`) the process; the scheduler runs the `i`-th task,
with `open` giving `_process_start` the descriptors `stdoutFD`, `stderrFD` and
the error text `err`; the descriptor layer delivers a status change to listener
`l`; the guest's syscall handler calls `process_listenForStatus`, or its guest
code yields or exits; or the innermost C function returns. -/
inductive Action where
  | ownerRef
  | ownerUnref
  | schedule (now : SimulationTime)
  | runTask (i : Nat) (stdoutFD stderrFD : Int) (err : String)
  | resume
  | fire (l : Nat)
  | listen (timer descriptor : Option Nat) (status : DescriptorStatus)
  | yield
  | exit (code : Int)
  | ret
  deriving DecidableEq, Repr

/-- The worker is in its event loop or in guest code. -/
def World.atEventPoint (s : World) : Bool :=
  match s.stack with
  | [] => true
  | .guest _ :: _ => true
  | _ => false

/-- Modelled from the spec: the descriptor layer can deliver to `l`, which is
in a descriptor's table and monitors an OFF-to-ON edge of some status bit. -/
def World.canFire (s : World) (l : Nat) : Bool :=
  let L := s.listeners l
  decide (l < s.nextListener) && L.attachedTo.isSome && L.filter == .offToOn &&
    L.monitoring != dsNone

def World.ownerMayAct (s : World) : Bool := s.stack.isEmpty && decide (0 < s.owners)

def step (s : World) : Action → Option (Except String World)
  | .ownerRef =>
    if s.ownerMayAct then some (.ok ((processRef s).setOwners (s.owners + 1))) else none
  | .ownerUnref =>
    if s.ownerMayAct then some (processUnref (s.setOwners (s.owners - 1))) else none
  | .schedule now => if s.ownerMayAct then some (.ok (processSchedule now s)) else none
  | .runTask i stdoutFD stderrFD err =>
    if s.stack.isEmpty then
      s.tasks[i]?.map fun t =>
        processRunTask t.kind stdoutFD stderrFD err ((s.setTasks (s.tasks.eraseIdx i)).push (.task t))
    else none
  | .resume => if s.ownerMayAct then some (.ok (processContinue none s)) else none
  | .fire l =>
    if s.atEventPoint && s.canFire l then
      some (processNotifyStatusChanged (s.listeners l).argument s)
    else none
  | .listen timer descriptor status =>
    match s.stack with
    | .guest t :: _ => some (.ok (processListenForStatus (some t) timer descriptor status s))
    | _ => none
  | .yield =>
    match s.stack with
    | .guest _ :: rest => some (.ok (s.setStack rest))
    | _ => none
  | .exit code =>
    match s.stack with
    | .guest t :: rest => some (.ok ((s.setStack rest).threadExit t code))
    | _ => none
  | .ret =>
    match s.stack with
    | .task _ :: rest => some (processUnref (s.setStack rest))
    | .startReturn :: rest => some (.ok (processStartReturn (s.setStack rest)))
    | .continueReturn :: rest => some (.ok (processContinueReturn (s.setStack rest)))
    | .notifyReturn w :: rest => some (processNotifyStatusChangedReturn w (s.setStack rest))
    | _ => none

/-- The steps of the worker as a relation: one constructor per branch of `step`,
with the guard that branch checks. -/
inductive Step (s : World) : Action → Except String World → Prop
  | ownerRef : s.stack = [] → 0 < s.owners →
      Step s .ownerRef (.ok ((processRef s).setOwners (s.owners + 1)))
  | ownerUnref : s.stack = [] → 0 < s.owners →
      Step s .ownerUnref (processUnref (s.setOwners (s.owners - 1)))
  | schedule (now : SimulationTime) : s.stack = [] → 0 < s.owners →
      Step s (.schedule now) (.ok (processSchedule now s))
  | runTask (i : Nat) (t : Task) (stdoutFD stderrFD : Int) (err : String) :
      s.stack = [] → s.tasks[i]? = some t →
      Step s (.runTask i stdoutFD stderrFD err)
        (processRunTask t.kind stdoutFD stderrFD err
          ((s.setTasks (s.tasks.eraseIdx i)).push (.task t)))
  | resume : s.stack = [] → 0 < s.owners → Step s .resume (.ok (processContinue none s))
  | fire (l : Nat) : s.atEventPoint → s.canFire l →
      Step s (.fire l) (processNotifyStatusChanged (s.listeners l).argument s)
  | listen (t : Nat) (rest : List Frame) (timer descriptor : Option Nat)
      (status : DescriptorStatus) : s.stack = .guest t :: rest →
      Step s (.listen timer descriptor status)
        (.ok (processListenForStatus (some t) timer descriptor status s))
  | yield (t : Nat) (rest : List Frame) : s.stack = .guest t :: rest →
      Step s .yield (.ok (s.setStack rest))
  | exit (t : Nat) (rest : List Frame) (code : Int) : s.stack = .guest t :: rest →
      Step s (.exit code) (.ok ((s.setStack rest).threadExit t code))
  | retTask (t : Task) (rest : List Frame) : s.stack = .task t :: rest →
      Step s .ret (processUnref (s.setStack rest))
  | retStart (rest : List Frame) : s.stack = .startReturn :: rest →
      Step s .ret (.ok (processStartReturn (s.setStack rest)))
  | retContinue (rest : List Frame) : s.stack = .continueReturn :: rest →
      Step s .ret (.ok (processContinueReturn (s.setStack rest)))
  | retNotify (w : Nat) (rest : List Frame) : s.stack = .notifyReturn w :: rest →
      Step s .ret (processNotifyStatusChangedReturn w (s.setStack rest))

/-- `step` is the relation `Step`, computed. -/
theorem step_eq_some_iff {s : World} {a : Action} {r : Except String World} :
    step s a = some r ↔ Step s a r := by
  constructor
  · intro h
    have hMay : s.ownerMayAct → s.stack = [] ∧ 0 < s.owners := by simp [ownerMayAct]
    cases a <;> simp only [step] at h
    case ownerRef | ownerUnref | schedule | resume =>
      split at h
      · cases h
        obtain ⟨hEmpty, hO⟩ := hMay ‹_›
        first
          | exact .ownerRef hEmpty hO | exact .ownerUnref hEmpty hO
          | exact .schedule _ hEmpty hO | exact .resume hEmpty hO
      · cases h
    case runTask i fdOut fdErr err =>
      split at h
      · rcases hT : s.tasks[i]? with _ | t <;> simp only [hT, Option.map_none', Option.map_some',
          Option.some.injEq, reduceCtorEq] at h
        cases h
        exact .runTask i t fdOut fdErr err (List.isEmpty_iff.mp ‹_›) hT
      · cases h
    case fire l =>
      split at h
      · rename_i hFire
        cases h
        simp only [Bool.and_eq_true] at hFire
        exact .fire l hFire.1 hFire.2
      · cases h
    all_goals
      split at h <;> (try cases h) <;>
        first
          | exact .listen _ _ _ _ _ ‹_› | exact .yield _ _ ‹_› | exact .exit _ _ _ ‹_›
          | exact .retTask _ _ ‹_› | exact .retStart _ ‹_› | exact .retContinue _ ‹_›
          | exact .retNotify _ _ ‹_›
  · intro h
    cases h <;> simp_all [step, ownerMayAct]

/-- `process_new` asserts `pluginName` and `pluginPath`; when both are given it
builds `newProcessWorld`. -/
theorem processNew_eq_ok {host : Host} {processID : Nat} {startTime stopTime : SimulationTime}
    {interposeMethod : InterposeMethod} {hostName : String} {pluginName pluginPath : Option String}
    {envv argv : List String} {s : World}
    (h : processNew host processID startTime stopTime interposeMethod hostName pluginName pluginPath
      envv argv = .ok s) :
    ∃ exeName exePath, pluginName = some exeName ∧ pluginPath = some exePath ∧
      s = newProcessWorld host processID startTime stopTime interposeMethod hostName exeName
        exePath envv argv := by
  unfold processNew at h
  split at h
  · cases h
  · cases h
  · cases h
    exact ⟨_, _, rfl, rfl, rfl⟩

/-- The worlds a run can reach: `process_new`, then steps that do not abort. -/
inductive Reachable : World → Prop
  | boot {host : Host} {processID : Nat} {startTime stopTime : SimulationTime}
      {interposeMethod : InterposeMethod} {hostName : String} {pluginName pluginPath : Option String}
      {envv argv : List String} {s : World} :
      processNew host processID startTime stopTime interposeMethod hostName pluginName pluginPath
        envv argv = .ok s → Reachable s
  | step {s s' : World} {a : Action} : Reachable s → step s a = some (.ok s') → Reachable s'

end ShadowProcess
