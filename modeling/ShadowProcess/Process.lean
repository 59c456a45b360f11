import ShadowProcess.Collaborators

/-! # The process lifecycle of `process.c`

Construction, reference counting and teardown, the return-code logger, the
check after every burst, and the three ways into guest code: `_process_start`,
`process_continue` and `process_stop`. A function that calls into guest code is
cut at that call: the part before it pushes the frame that runs the part after
it (`startReturn`, `continueReturn`) and a `guest` frame for the burst itself.
`utility_assert` and `error` abort the simulator; they return `.error` with the
asserted expression or the error text.
-/

namespace ShadowProcess

set_option autoImplicit false

open World

/-- The worker right after `process_new` built a process: the creator's
reference is its one owner reference. -/
def newProcessWorld (host : Host) (processID : Nat) (startTime stopTime : SimulationTime)
    (interposeMethod : InterposeMethod) (hostName exeName exePath : String)
    (envv argv : List String) : World where
  proc :=
    { host, processID, interposeMethod, exeName, exePath, startTime, stopTime, argv, envv
      processName := hostName ++ "." ++ exeName ++ "." ++ toString processID
      isExecuting := false
      didLogReturnCode := false
      mainThread := none
      threadIDCounter := 0
      stderrFD := -1
      stdoutFD := -1
      referenceCount := 1 }
  threads := fun _ => {}
  waiters := fun _ => {}
  nextWaiter := 0
  listeners := fun _ => {}
  nextListener := 0
  tasks := []
  owners := 1
  stack := []
  activeProcess := false
  trace := [.hostRef, .processNew]

/-- `process_new`, returning the worker with the new process and the
caller's reference to it. `pluginSymbol` is unused by the source and omitted. -/
def processNew (host : Host) (processID : Nat) (startTime stopTime : SimulationTime)
    (interposeMethod : InterposeMethod) (hostName : String) (pluginName pluginPath : Option String)
    (envv argv : List String) : Except String World :=
  match pluginName, pluginPath with
  | none, _ => .error "pluginName"
  | _, none => .error "pluginPath"
  | some exeName, some exePath =>
    .ok (newProcessWorld host processID startTime stopTime interposeMethod hostName exeName exePath
      envv argv)

def processGetName (s : World) : String := s.proc.processName

def processIsRunning (s : World) : Bool :=
  match s.proc.mainThread with
  | some t => (s.threads t).running
  | none => false

/-- The line `_process_logReturnCode` logs for `code`. -/
def returnCodeLine (code : Int) (name : String) : String :=
  "main " ++ (if code = 0 then "success" else "error") ++ " code '" ++ toString code ++
    "' for process '" ++ name ++ "'"

def processLogReturnCode (code : Int) (s : World) : World :=
  if s.proc.didLogReturnCode then s
  else
    let line := returnCodeLine code (processGetName s)
    let s := if code = 0 then s.log (.log .message line)
      else (s.log (.log .warning line)).log .pluginError
    s.setDidLogReturnCode

def processCheck (s : World) : World :=
  match s.proc.mainThread with
  | none => s
  | some t =>
    if (s.threads t).running then s
    else
      let s := processLogReturnCode (s.threads t).returnCode s
      ((s.threadTerminate t .check).threadUnref t .check).setMainThread none

/-- `_process_free`. The strings, argument vectors and CPU timer go with the
process's memory and are not recorded. -/
def processFree (s : World) : World :=
  let s := match s.proc.mainThread with
    | some t =>
      let s := if (s.threads t).running then s.threadTerminate t .free else s
      (s.threadUnref t .free).setMainThread none
    | none => s
  let s := s.log .hostUnref
  let s := if 0 ≤ s.proc.stderrFD then s.log (.closeFd s.proc.stderrFD) else s
  let s := if 0 ≤ s.proc.stdoutFD then s.log (.closeFd s.proc.stdoutFD) else s
  s.log .processFree

def processRef (s : World) : World := s.setReferenceCount (s.proc.referenceCount + 1)

def processUnref (s : World) : Except String World :=
  let s := s.setReferenceCount (s.proc.referenceCount - 1)
  if s.proc.referenceCount < 0 then .error "proc->referenceCount >= 0"
  else if s.proc.referenceCount = 0 then .ok (processFree s)
  else .ok s

/-- `_process_start` up to `thread_run`. `stdoutFD` and `stderrFD` are what
`open` returns for the two log files and `err` the text of `errno`. -/
def processStart (stdoutFD stderrFD : Int) (err : String) (s : World) : Except String World :=
  if processIsRunning s then .ok s
  else
    let file (suffix : String) := s.proc.host.dataPath ++ "/" ++ s.proc.processName ++ suffix
    if stdoutFD < 0 then .error ("Opening " ++ file ".stdout" ++ ": " ++ err)
    else if stderrFD < 0 then .error ("Opening " ++ file ".stderr" ++ ": " ++ err)
    else if s.proc.mainThread.isSome then .error "proc->mainThread == NULL"
    else
      let s := s.setLogFiles stdoutFD stderrFD
      match s.proc.interposeMethod with
      | .unknown value => .error ("Bad interposeMethod " ++ toString value)
      | method =>
        let t := s.proc.threadIDCounter
        let s := ((s.setThreadIDCounter (t + 1)).threadNew t method).setMainThread (some t)
        let s := (s.setActiveProcess true).setExecuting true
        .ok (((s.threadRun t s.proc.argv s.proc.envv stderrFD stdoutFD).push .startReturn).push
          (.guest t))

/-- `_process_start` after `thread_run` returns. -/
def processStartReturn (s : World) : World :=
  processCheck (s.setActiveProcess false)

/-- `process_continue` up to `thread_resume`. -/
def processContinue (thread : Option Nat) (s : World) : World :=
  match s.proc.mainThread with
  | some m =>
    if (s.threads m).running then
      let t := thread.getD m
      let s := (s.setActiveProcess true).setExecuting true
      ((s.threadResume t).push .continueReturn).push (.guest t)
    else s
  | none => s

/-- `process_continue` after `thread_resume` returns. -/
def processContinueReturn (s : World) : World :=
  processCheck ((s.setExecuting false).setActiveProcess false)

def processStop (s : World) : World :=
  let s := (s.setActiveProcess true).setExecuting true
  let s := match s.proc.mainThread with
    | some t => ((s.threadTerminate t .stop).threadUnref t .stop).setMainThread none
    | none => s
  processCheck ((s.setExecuting false).setActiveProcess false)

end ShadowProcess
