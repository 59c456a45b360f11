import ShadowProcess.Machine

/-! # The ledger: what the reference invariants read

The process's reference count, its holders (owners, live tasks, live
listeners), the waiter and listener heaps, and each waiter's own events. Most
functions of `process.c` leave the ledger as it is; the lemmas below say so once
per function, so that the invariant proofs never unfold them.
-/

namespace ShadowProcess

set_option autoImplicit false

open World

def Frame.isTask : Frame → Bool
  | .task _ => true
  | _ => false

namespace World

/-- The events of waiter `w`, in trace order. -/
def waiterEvents (s : World) (w : Nat) : List Event := s.trace.filter fun e => e.waiter? = some w

/-- The listeners not yet destroyed. -/
def liveListeners (s : World) : Nat :=
  (List.range s.nextListener).countP fun l => (s.listeners l).live

/-- The scheduled tasks not yet freed: queued, or running on the stack. -/
def liveTasks (s : World) : Nat := s.tasks.length + s.stack.countP Frame.isTask

end World

/-- What the reference and waiter invariants read of a world, besides its stack. -/
structure Ledger where
  refs : Int
  owners : Nat
  queued : Nat
  waiters : Nat → ProcessWaiter
  nextWaiter : Nat
  listeners : Nat → DescriptorListener
  nextListener : Nat
  events : Nat → List Event
  frees : Nat

def World.ledger (s : World) : Ledger where
  refs := s.proc.referenceCount
  owners := s.owners
  queued := s.tasks.length
  waiters := s.waiters
  nextWaiter := s.nextWaiter
  listeners := s.listeners
  nextListener := s.nextListener
  events := s.waiterEvents
  frees := s.trace.count .processFree

/-! ## Functions that leave the ledger alone -/

section Frame

variable (s : World)

theorem waiterEvents_log (e : Event) (w : Nat) :
    (s.log e).waiterEvents w = s.waiterEvents w ++ if e.waiter? = some w then [e] else [] := by
  simp only [waiterEvents, log_trace, List.filter_append, List.filter_cons, List.filter_nil,
    decide_eq_true_eq]

@[simp] theorem ledger_log {e : Event} (hw : e.waiter? = none) (hf : e ≠ .processFree) :
    (s.log e).ledger = s.ledger := by
  have hEvents : (s.log e).waiterEvents = s.waiterEvents :=
    funext fun w => by simp [waiterEvents_log, hw]
  have hFrees : (s.log e).trace.count .processFree = s.trace.count .processFree := by
    simp [List.count_append, List.count_cons, hf]
  unfold World.ledger
  rw [hEvents, hFrees]
  rfl

@[simp] theorem ledger_setThread (t : Nat) (T : Thread) : (s.setThread t T).ledger = s.ledger := rfl

@[simp] theorem ledger_push (f : Frame) : (s.push f).ledger = s.ledger := rfl

@[simp] theorem ledger_setStack (stack : List Frame) : (s.setStack stack).ledger = s.ledger := rfl

@[simp] theorem ledger_setActiveProcess (b : Bool) : (s.setActiveProcess b).ledger = s.ledger := rfl

@[simp] theorem ledger_setExecuting (b : Bool) : (s.setExecuting b).ledger = s.ledger := rfl

@[simp] theorem ledger_setMainThread (t : Option Nat) :
    (s.setMainThread t).ledger = s.ledger := rfl

@[simp] theorem ledger_setDidLogReturnCode : s.setDidLogReturnCode.ledger = s.ledger := rfl

@[simp] theorem ledger_setThreadIDCounter (n : Nat) :
    (s.setThreadIDCounter n).ledger = s.ledger := rfl

@[simp] theorem ledger_setLogFiles (o e : Int) : (s.setLogFiles o e).ledger = s.ledger := rfl

@[simp] theorem ledger_threadNew (t : Nat) (m : InterposeMethod) :
    (s.threadNew t m).ledger = s.ledger := by
  simp [threadNew, Event.waiter?]

@[simp] theorem ledger_threadRun (t : Nat) (argv envv : List String) (e o : Int) :
    (s.threadRun t argv envv e o).ledger = s.ledger := by
  simp [threadRun, Event.waiter?]

@[simp] theorem ledger_threadResume (t : Nat) : (s.threadResume t).ledger = s.ledger := by
  simp [threadResume, Event.waiter?]

@[simp] theorem ledger_threadExit (t : Nat) (code : Int) :
    (s.threadExit t code).ledger = s.ledger := by
  simp [threadExit, Event.waiter?]

theorem ledger_threadTerminate (t : Nat) (site : Site) :
    (s.threadTerminate t site).ledger = s.ledger := by
  simp [threadTerminate, Event.waiter?]

/-- A thread unref made by the process itself. -/
theorem ledger_threadUnref (t : Nat) {site : Site} (h : ∀ w, site ≠ .waiter w) :
    (s.threadUnref t site).ledger = s.ledger := by
  cases site <;> simp_all [threadUnref, Event.waiter?]

@[simp] theorem ledger_processLogReturnCode (code : Int) :
    (processLogReturnCode code s).ledger = s.ledger := by
  unfold processLogReturnCode
  split
  · rfl
  · split <;> simp [Event.waiter?]

@[simp] theorem ledger_processCheck : (processCheck s).ledger = s.ledger := by
  unfold processCheck
  split
  · rfl
  · split
    · rfl
    · simp [ledger_threadUnref, ledger_threadTerminate]

@[simp] theorem ledger_processStartReturn : (processStartReturn s).ledger = s.ledger := by
  simp [processStartReturn]

@[simp] theorem ledger_processContinueReturn : (processContinueReturn s).ledger = s.ledger := by
  simp [processContinueReturn]

@[simp] theorem ledger_processStop : (processStop s).ledger = s.ledger := by
  simp only [processStop]
  split <;> simp [ledger_threadUnref, ledger_threadTerminate]

@[simp] theorem ledger_processContinue (thread : Option Nat) :
    (processContinue thread s).ledger = s.ledger := by
  unfold processContinue
  split
  · split <;> simp
  · rfl

theorem processContinue_stack (thread : Option Nat) :
    (processContinue thread s).stack = s.stack ∨
      ∃ t, (processContinue thread s).stack = .guest t :: .continueReturn :: s.stack := by
  unfold processContinue
  split
  · split
    · exact .inr ⟨_, rfl⟩
    · exact .inl rfl
  · exact .inl rfl

theorem processStart_ok {fdOut fdErr : Int} {err : String} {s' : World}
    (h : processStart fdOut fdErr err s = .ok s') :
    s'.ledger = s.ledger ∧
      (s' = s ∨ ∃ t, s'.stack = .guest t :: .startReturn :: s.stack) := by
  unfold processStart at h
  by_cases hRun : processIsRunning s
  · rw [if_pos hRun] at h
    cases h
    exact ⟨rfl, .inl rfl⟩
  by_cases hOut : fdOut < 0
  · rw [if_neg hRun, if_pos hOut] at h
    cases h
  by_cases hErr : fdErr < 0
  · rw [if_neg hRun, if_neg hOut, if_pos hErr] at h
    cases h
  by_cases hSome : s.proc.mainThread.isSome
  · rw [if_neg hRun, if_neg hOut, if_neg hErr, if_pos hSome] at h
    cases h
  rw [if_neg hRun, if_neg hOut, if_neg hErr, if_neg hSome] at h
  simp only at h
  split at h
  · cases h
  · cases h
    exact ⟨by simp, .inr ⟨s.proc.threadIDCounter, by simp [threadRun, threadNew]⟩⟩

end Frame

/-! ## Freeing and reference counting -/

section Refs

variable (s : World)

theorem ledger_log_processFree :
    (s.log .processFree).ledger = { s.ledger with frees := s.ledger.frees + 1 } := by
  have hEvents : (s.log .processFree).waiterEvents = s.waiterEvents :=
    funext fun w => by simp [waiterEvents_log, Event.waiter?]
  unfold World.ledger
  rw [hEvents]
  simp only [log_trace, List.count_append, List.count_singleton_self]
  rfl

@[simp] theorem ledger_processFree :
    (processFree s).ledger = { s.ledger with frees := s.ledger.frees + 1 } := by
  rcases hMain : s.proc.mainThread with _ | t <;>
    simp only [processFree, hMain, ledger_log_processFree] <;>
    split_ifs <;> simp [ledger_threadUnref, ledger_threadTerminate, Event.waiter?]

@[simp] theorem ledger_processRef :
    (processRef s).ledger = { s.ledger with refs := s.ledger.refs + 1 } := rfl

end Refs

end ShadowProcess
