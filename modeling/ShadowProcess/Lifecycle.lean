import ShadowProcess.MainThread

/-! # The main thread and the executing latch

In every reachable world the main thread runs, or its burst has just ended and
`_process_check` is next; every thread `_process_start` made is released once
the process forgets it; the return code is logged at most once, and once a
guest exited it is logged by the time control is back in the event loop. With
at most one thread made, no thread is resumed after it was terminated or its
guest exited.

`_process_start` sets `plugin.isExecuting` before `thread_run` and, unlike
`process_continue` and `process_stop`, never clears it: once the start task has
returned to the event loop the latch is still set, with no guest code running.
-/

namespace ShadowProcess

set_option autoImplicit false

open World

/-- The innermost frame called a guest burst that has ended; it runs
`_process_check` next. -/
def checkNext : List Frame → Bool
  | .startReturn :: _ | .continueReturn :: _ => true
  | _ => false

/-- No thread is resumed after it was terminated or its guest exited. -/
def NoResumeAfterStop (es : List Event) : Prop :=
  ∀ t e, e.stops t → ¬ List.Sublist [e, .threadResume t] es

theorem pair_sublist_append {a b : Event} {l l' : List Event} (h : List.Sublist [a, b] (l ++ l')) :
    List.Sublist [a, b] l ∨ a ∈ l ∧ b ∈ l' ∨ List.Sublist [a, b] l' := by
  obtain ⟨l1, l2, hEq, h1, h2⟩ := List.sublist_append_iff.mp h
  rcases l1 with _ | ⟨x, _ | ⟨y, l1⟩⟩
  · simp only [List.nil_append] at hEq
    exact .inr (.inr (hEq ▸ h2))
  · simp only [List.singleton_append, List.cons.injEq] at hEq
    obtain ⟨rfl, rfl⟩ := hEq
    exact .inr (.inl ⟨List.singleton_sublist.mp h1, List.singleton_sublist.mp h2⟩)
  · simp only [List.cons_append, List.cons.injEq] at hEq
    obtain ⟨rfl, rfl, hNil⟩ := hEq
    obtain ⟨rfl, -⟩ := List.append_eq_nil.mp hNil.symm
    exact .inl h1

namespace NoResumeAfterStop

variable {es : List Event}

/-- The lifecycle events keep every stop and every resume. -/
theorem of_lifecycle (h : NoResumeAfterStop (es.filter Event.isLifecycle)) :
    NoResumeAfterStop es := fun t e he hSub => h t e he (by
  have hr : Event.isLifecycle (.threadResume t) = true := rfl
  simpa [Event.isLifecycle_of_stops he, hr, List.filter_cons] using hSub.filter Event.isLifecycle)

theorem append (h : NoResumeAfterStop es) {new : List Event}
    (hNew : ∀ t, .threadResume t ∉ new) : NoResumeAfterStop (es ++ new) := fun t e he hSub => by
  rcases pair_sublist_append hSub with h1 | ⟨-, h2⟩ | h3
  · exact h t e he h1
  · exact hNew t h2
  · exact hNew t (h3.subset (by simp))

theorem resume (h : NoResumeAfterStop es) {r : Nat} (hr : ∀ e ∈ es, e.stops r = false) :
    NoResumeAfterStop (es ++ [.threadResume r]) := fun t e he hSub => by
  rcases pair_sublist_append hSub with h1 | ⟨h2, h3⟩ | h3
  · exact h t e he h1
  · obtain rfl : t = r := by simpa using h3
    simp [hr e h2] at he
  · exact absurd h3.length_le (by simp)

end NoResumeAfterStop

namespace MainView

/-- The return code is logged at most once, with the code of an exit. -/
def Logged (v : MainView) : Prop :=
  v.didLogReturnCode = false ∧ v.logs = [] ∨
    v.didLogReturnCode ∧ ∃ t c, .guestExit t c ∈ v.events ∧ v.logs = returnCodeEvents c v.processName

/-- The main-thread invariant of a view under the call stack `st`. -/
structure Inv (v : MainView) (st : List Frame) : Prop where
  /-- The main thread runs, or its burst has just ended. -/
  running : ∀ m, v.mainThread = some m → (v.threads m).running ∨ checkNext st
  mainBelow : ∀ m, v.mainThread = some m → m < v.threadIDCounter
  guestBelow : ∀ t, .guest t ∈ st → t < v.threadIDCounter
  /-- Every thread made is released once the process forgets it. -/
  released : ∀ t,
    v.released t = if t < v.threadIDCounter ∧ v.mainThread ≠ some t then 1 else 0
  stopped : ∀ t, v.Stopped t → (v.threads t).running = false ∧ t < v.threadIDCounter
  exitCode : ∀ m, v.mainThread = some m → (v.threads m).running = false →
    .guestExit m (v.threads m).returnCode ∈ v.events
  logged : v.Logged
  guestMain : ∀ t, .guest t ∈ st → v.mainThread.isSome ∨ v.didLogReturnCode
  /-- With one thread made, an exit is logged or `_process_check` is next. -/
  exitLogged : v.threadIDCounter ≤ 1 → ∀ t c, .guestExit t c ∈ v.events →
    v.didLogReturnCode ∨ v.mainThread.isSome ∧ checkNext st
  noResume : v.threadIDCounter ≤ 1 → NoResumeAfterStop v.events

variable {v : MainView} {st : List Frame}

@[simp] theorem released_log (e : Event) (t : Nat) :
    (v.log e).released t = v.released t + if e.releases t then 1 else 0 := by
  simp [released, List.countP_append, List.countP_cons]

@[simp] theorem logs_log (e : Event) :
    (v.log e).logs = v.logs ++ if e.isReturnCodeLog then [e] else [] := by
  simp only [logs, log_events, List.filter_append, List.filter_cons, List.filter_nil]

theorem stopped_log (e : Event) (t : Nat) : (v.log e).Stopped t ↔ v.Stopped t ∨ e.stops t := by
  simp [Stopped, or_and_right, exists_or]

/-! ### Appending events the invariant does not count -/

section Append

variable {v' : MainView} {new : List Event}

theorem released_append (hEv : v'.events = v.events ++ new) (t : Nat)
    (hNew : new.countP (Event.releases t) = 0) : v'.released t = v.released t := by
  simp [released, hEv, List.countP_append, hNew]

theorem stopped_append (hEv : v'.events = v.events ++ new) {t : Nat}
    (hNew : ∀ e ∈ new, e.stops t = false) (h : v'.Stopped t) : v.Stopped t := by
  obtain ⟨e, he, hs⟩ := h
  rw [hEv, List.mem_append] at he
  exact he.elim (fun he => ⟨e, he, hs⟩) fun he => by simp [hNew e he] at hs

theorem Logged.append (h : v.Logged) (hEv : v'.events = v.events ++ new)
    (hNew : new.filter Event.isReturnCodeLog = []) (hD : v'.didLogReturnCode = v.didLogReturnCode)
    (hN : v'.processName = v.processName) : v'.Logged := by
  have hLogs : v'.logs = v.logs := by simp [logs, hEv, hNew]
  rcases h with ⟨h1, h2⟩ | ⟨h1, t, c, h2, h3⟩
  · exact .inl ⟨hD.trans h1, hLogs.trans h2⟩
  · exact .inr ⟨hD.trans h1, t, c, by rw [hEv]; exact List.mem_append_left _ h2,
      by rw [hLogs, hN, h3]⟩

end Append

/-! ### Popping a frame -/

/-- A frame is popped while the main thread runs and, with one thread made,
every exit was logged. -/
theorem Inv.pop_of_running {f : Frame} (h : v.Inv (f :: st))
    (hRun : ∀ m, v.mainThread = some m → (v.threads m).running)
    (hExit : v.threadIDCounter ≤ 1 → ∀ t c, .guestExit t c ∈ v.events →
      v.didLogReturnCode) :
    v.Inv st where
  running m hm := .inl (hRun m hm)
  mainBelow := h.mainBelow
  guestBelow t ht := h.guestBelow t (List.mem_cons_of_mem _ ht)
  released := h.released
  stopped := h.stopped
  exitCode := h.exitCode
  logged := h.logged
  guestMain t ht := h.guestMain t (List.mem_cons_of_mem _ ht)
  exitLogged hOne t c ht := .inl (hExit hOne t c ht)
  noResume := h.noResume

theorem Inv.pop {f : Frame} (h : v.Inv (f :: st)) (hf : checkNext (f :: st) = false) : v.Inv st :=
  h.pop_of_running (fun m hm => (h.running m hm).resolve_right (by simp [hf]))
    fun hOne t c ht => (h.exitLogged hOne t c ht).resolve_right (by simp [hf])

theorem Inv.push {f : Frame} (h : v.Inv st) (hst : checkNext st = false)
    (hf : ∀ t, f ≠ .guest t) :
    v.Inv (f :: st) where
  running m hm := .inl ((h.running m hm).resolve_right (by simp [hst]))
  mainBelow := h.mainBelow
  guestBelow t ht := h.guestBelow t ((List.mem_cons.mp ht).resolve_left (hf t).symm)
  released := h.released
  stopped := h.stopped
  exitCode := h.exitCode
  logged := h.logged
  guestMain t ht := h.guestMain t ((List.mem_cons.mp ht).resolve_left (hf t).symm)
  exitLogged hOne t c ht := .inl (by simpa [hst] using h.exitLogged hOne t c ht)
  noResume := h.noResume

/-! ### Guest bursts -/

/-- `process_continue` resumes `r` while the main thread `m` runs; with one
thread made, `r` is the main thread. -/
theorem Inv.resume {m r : Nat} (h : v.Inv st) (hst : checkNext st = false)
    (hMain : v.mainThread = some m) (hRun : (v.threads m).running) (hr : r < v.threadIDCounter)
    (hOne : v.threadIDCounter ≤ 1 → r = m) :
    (v.log (.threadResume r)).Inv (.guest r :: .continueReturn :: st) where
  running m' hm' := by
    obtain rfl : m = m' := by simpa [hMain] using hm'
    exact .inl hRun
  mainBelow := h.mainBelow
  guestBelow t ht := by
    simp only [List.mem_cons, Frame.guest.injEq, reduceCtorEq, false_or] at ht
    exact ht.elim (fun h => h ▸ hr) (h.guestBelow t)
  released t := (released_append rfl t (by simp [Event.releases])).trans (h.released t)
  stopped t ht := h.stopped t (stopped_append rfl (by simp [Event.stops]) ht)
  exitCode m' hm' hr' := List.mem_append_left _ (h.exitCode m' hm' hr')
  logged := h.logged.append rfl (by simp [Event.isReturnCodeLog]) rfl rfl
  guestMain _ _ := .inl (by simp [hMain])
  exitLogged hOne' t c ht := .inl ((h.exitLogged hOne' t c (by simpa using ht)).resolve_right
    (by simp [hst]))
  noResume hOne' := (h.noResume hOne').resume fun e he => by
    by_contra hs
    have hStop := (h.stopped r ⟨e, he, by simpa using hs⟩).1
    rw [hOne hOne'] at hStop
    simp [hStop] at hRun

/-- The guest of `t` exits; the frame below, which called the burst, runs the
check next. -/
theorem Inv.exit {t : Nat} (code : Int) (h : v.Inv (.guest t :: st)) (hst : checkNext st) :
    (v.exit t code).Inv st where
  running m hm := by
    by_cases hmt : m = t
    · exact .inr hst
    · have := (h.running m hm).resolve_right (by simp [checkNext])
      exact .inl (by simpa [hmt] using this)
  mainBelow := h.mainBelow
  guestBelow u hu := h.guestBelow u (List.mem_cons_of_mem _ hu)
  released u := (released_append rfl u (by simp [Event.releases])).trans (h.released u)
  stopped u hu := by
    by_cases hut : u = t
    · subst hut
      simp [h.guestBelow u (List.mem_cons_self _ _)]
    · have := h.stopped u (stopped_append rfl (by simp [Event.stops, Ne.symm hut]) hu)
      simpa [hut] using this
  exitCode m hm hr := by
    by_cases hmt : m = t
    · subst hmt
      simp
    · have := (h.running m hm).resolve_right (by simp [checkNext])
      simp [hmt, this] at hr
  logged := h.logged.append rfl (by simp [Event.isReturnCodeLog]) rfl rfl
  guestMain u hu := h.guestMain u (List.mem_cons_of_mem _ hu)
  exitLogged hOne u c hu := by
    simp only [exit_events, log_events, List.mem_append, List.mem_singleton,
      Event.guestExit.injEq] at hu
    rcases hu with hu | ⟨rfl, rfl⟩
    · exact .inl ((h.exitLogged hOne u c hu).resolve_right (by simp [checkNext]))
    · exact (h.guestMain u (List.mem_cons_self _ _)).elim (fun hm => .inr ⟨hm, hst⟩) .inl
  noResume hOne := (h.noResume hOne).append (by simp)

/-- `_process_start` makes thread `threadIDCounter` the main thread and runs it. -/
theorem Inv.start (h : v.Inv st) (hNone : v.mainThread = none) (hg : ∀ u, .guest u ∉ st)
    (method : InterposeMethod) (argv envv : List String) (e o : Int) :
    (v.start method argv envv e o).Inv (.guest v.threadIDCounter :: .startReturn :: st) where
  running m hm := .inl (by simp only [start_mainThread, Option.some.injEq] at hm; simp [← hm])
  mainBelow m hm := by simp only [start_mainThread, Option.some.injEq] at hm; simp [← hm]
  guestBelow u hu := by
    simp only [List.mem_cons, Frame.guest.injEq, reduceCtorEq, false_or] at hu
    rcases hu with rfl | hu
    · simp
    · exact absurd hu (hg u)
  released u := by
    rw [released_append rfl u (by simp [Event.releases]), h.released u]
    by_cases huc : u = v.threadIDCounter
    · simp [huc]
    · simp [hNone, huc, Ne.symm huc, Nat.lt_succ_iff_lt_or_eq]
  stopped u hu := by
    obtain ⟨hr, hlt⟩ := h.stopped u (stopped_append rfl (by simp [Event.stops]) hu)
    simp [Function.update_apply, Nat.ne_of_lt hlt, hr]
    omega
  exitCode m hm hr := by
    simp only [start_mainThread, Option.some.injEq] at hm
    simp [← hm] at hr
  logged := h.logged.append rfl (by simp [Event.isReturnCodeLog]) rfl rfl
  guestMain _ _ := .inl (by simp)
  exitLogged hOne u c hu := by
    simp only [start_events, List.mem_append, List.mem_cons, reduceCtorEq, List.mem_nil_iff,
      or_false] at hu
    have := (h.stopped u ⟨_, hu, by simp [Event.stops]⟩).2
    simp at hOne
    omega
  noResume hOne := (h.noResume (by simp at hOne; omega)).append (by simp)

/-! ### Check, stop and free -/

theorem returnCodeEvents_quiet (code : Int) (name : String) (t : Nat) :
    (returnCodeEvents code name).countP (Event.releases t) = 0 ∧
      (∀ e ∈ returnCodeEvents code name, e.stops t = false) ∧
      .threadResume t ∉ returnCodeEvents code name ∧
      (∀ c, .guestExit t c ∉ returnCodeEvents code name) ∧
      (returnCodeEvents code name).filter Event.isReturnCodeLog = returnCodeEvents code name := by
  unfold returnCodeEvents
  split <;> simp [Event.releases, Event.stops, Event.isReturnCodeLog]

/-- `_process_logReturnCode` with the code of the main thread, whose guest exited. -/
theorem Inv.logReturnCode {m : Nat} (h : v.Inv st) (hMain : v.mainThread = some m)
    (hRun : (v.threads m).running = false) : (v.logReturnCode (v.threads m).returnCode).Inv st := by
  unfold MainView.logReturnCode
  split
  · exact h
  · rename_i hLog
    have hq := returnCodeEvents_quiet (v.threads m).returnCode v.processName
    exact {
      running := h.running
      mainBelow := h.mainBelow
      guestBelow := h.guestBelow
      released := fun t => (released_append rfl t (hq t).1).trans (h.released t)
      stopped := fun t ht => h.stopped t (stopped_append rfl (hq t).2.1 ht)
      exitCode := fun m' hm' hr' => List.mem_append_left _ (h.exitCode m' hm' hr')
      logged := by
        refine .inr ⟨rfl, m, _, List.mem_append_left _ (h.exitCode m hMain hRun), ?_⟩
        rcases h.logged with ⟨-, h2⟩ | ⟨h1, -⟩
        · show (v.events ++ _).filter _ = _
          rw [List.filter_append, show v.events.filter Event.isReturnCodeLog = [] from h2,
            (hq 0).2.2.2.2, List.nil_append]
        · simp [h1] at hLog
      guestMain := fun t _ => .inr rfl
      exitLogged := fun _ _ _ _ => .inl rfl
      noResume := fun hOne => (h.noResume hOne).append fun t => (hq t).2.2.1 }

/-- The process terminates its main thread `t`, releases it and forgets it. -/
theorem Inv.retire {t : Nat} {site : Site} {st' : List Frame} (h : v.Inv st)
    (hMain : v.mainThread = some t) (hSite : ∀ w, site ≠ .waiter w)
    (hGuest : ∀ u, .guest u ∈ st' → .guest u ∈ st ∧ v.didLogReturnCode)
    (hExit : v.threadIDCounter ≤ 1 → ∀ u c, .guestExit u c ∈ v.events →
      v.didLogReturnCode) :
    ((v.terminate t site).release t site).Inv st' := by
  have hEv : ((v.terminate t site).release t site).events =
      v.events ++ [.threadTerminate t site, .threadUnref t site] := by simp
  have hLt := h.mainBelow t hMain
  have hRel : ∀ u, Event.releases u (.threadUnref t site) = (t == u) := by
    cases site <;> simp_all [Event.releases]
  exact {
    running := fun m hm => by simp at hm
    mainBelow := fun m hm => by simp at hm
    guestBelow := fun u hu => h.guestBelow u (hGuest u hu).1
    released := fun u => by
      have hu := h.released u
      simp only [MainView.released] at hu ⊢
      rw [hEv, List.countP_append, hu]
      by_cases hut : u = t
      · subst hut
        simp [hMain, hLt, hRel, Event.releases]
      · simp [hRel, Event.releases, Ne.symm hut, hMain, hut]
    stopped := fun u hu => by
      by_cases hut : u = t
      · subst hut
        simp [hLt]
      · have := h.stopped u (stopped_append hEv (by simp [Event.stops, Ne.symm hut]) hu)
        simpa [Function.update_apply, hut] using this
    exitCode := fun m hm => by simp at hm
    logged := h.logged.append hEv (by cases site <;> simp [Event.isReturnCodeLog]) rfl rfl
    guestMain := fun u hu => .inr (hGuest u hu).2
    exitLogged := fun hOne u c hu => .inl (hExit hOne u c (by simpa [hEv] using hu))
    noResume := fun hOne => by
      rw [hEv]
      exact (h.noResume hOne).append (by simp) }

/-- `_process_check` once the burst called from `f` has returned. -/
theorem Inv.check {f : Frame} (h : v.Inv (f :: st)) : v.check.Inv st := by
  unfold MainView.check
  rcases hMain : v.mainThread with _ | m
  · exact h.pop_of_running (fun m hm => by simp [hMain] at hm)
      fun hOne t c ht => (h.exitLogged hOne t c ht).resolve_right (by simp [hMain])
  · by_cases hRun : (v.threads m).running
    · simp only [hRun, if_true]
      refine h.pop_of_running (fun m' hm' => by simp_all) fun hOne t c ht => ?_
      have hStop := h.stopped t ⟨_, ht, by simp [Event.stops]⟩
      obtain rfl : t = m := by have := h.mainBelow m hMain; omega
      simp [hStop.1] at hRun
    · simp only [hRun, if_false, Bool.false_eq_true]
      exact (h.logReturnCode hMain (by simpa using hRun)).retire (by simp [hMain])
        (fun w => by simp) (fun u hu => ⟨List.mem_cons_of_mem _ hu, by simp⟩)
        fun _ _ _ _ => by simp

/-- `process_stop`, called by the stop task from the event loop. -/
theorem Inv.stop (h : v.Inv st) (hst : checkNext st = false) (hg : ∀ u, .guest u ∉ st) :
    v.stop.Inv st := by
  unfold MainView.stop
  rcases hMain : v.mainThread with _ | t
  · exact h
  · exact h.retire hMain (fun w => by simp) (fun u hu => absurd hu (hg u))
      fun hOne u c hu => (h.exitLogged hOne u c hu).resolve_right (by simp [hst])

/-- `_process_free` outside any burst: the main thread, if any, runs. -/
theorem Inv.free (h : v.Inv st) (hst : checkNext st = false) (hg : ∀ u, .guest u ∉ st) :
    v.free.Inv st := by
  unfold MainView.free
  rcases hMain : v.mainThread with _ | t
  · exact h
  · simp only [(h.running t hMain).resolve_right (by simp [hst]), if_true]
    exact h.retire hMain (fun w => by simp) (fun u hu => absurd hu (hg u))
      fun hOne u c hu => (h.exitLogged hOne u c hu).resolve_right (by simp [hst])

end MainView

/-! ## Worlds -/

/-- The main-thread invariant of a world: of its view and stack, of the threads
its waiters will resume, and of its free. -/
structure World.MainOk (s : World) : Prop where
  view : s.mainView.Inv s.stack
  waiterBelow : ∀ w < s.nextWaiter, ∀ t, (s.waiters w).thread = some t →
    t < s.proc.threadIDCounter
  freed : .processFree ∈ s.trace → s.proc.mainThread = none

namespace World.MainOk

variable {s s' : World}

/-- A step that changes nothing the invariant reads. -/
theorem congr (h : s.MainOk) (hv : s'.mainView = s.mainView) (hSt : s'.stack = s.stack)
    (hn : s'.nextWaiter = s.nextWaiter) (hw : ∀ w, (s'.waiters w).thread = (s.waiters w).thread)
    (hf : s'.trace.count .processFree = s.trace.count .processFree) : s'.MainOk := by
  have hc : s'.proc.threadIDCounter = s.proc.threadIDCounter := congrArg MainView.threadIDCounter hv
  have hm : s'.proc.mainThread = s.proc.mainThread := congrArg MainView.mainThread hv
  refine ⟨hv ▸ hSt ▸ h.view,
    fun w hw' t ht => hc ▸ h.waiterBelow w (hn ▸ hw') t (hw w ▸ ht),
    fun hp => hm ▸ h.freed ?_⟩
  rw [← List.count_pos_iff] at hp ⊢
  omega

/-- A step of waiter and reference functions; a free may only happen outside
any burst. -/
theorem of_freesAtMost (h : s.MainOk) (hF : s.FreesAtMost s')
    (hFree : s.trace.count .processFree < s'.trace.count .processFree →
      checkNext s.stack = false ∧ ∀ u, .guest u ∉ s.stack) : s'.MainOk := by
  obtain ⟨hSt, hn, hw, ⟨hv, hc⟩ | ⟨hv, hc⟩⟩ := hF
  · exact h.congr hv hSt hn hw hc
  · obtain ⟨hst, hg⟩ := hFree hc
    have hCounter : s'.proc.threadIDCounter = s.proc.threadIDCounter := by
      rw [← mainView_threadIDCounter, hv, MainView.free_threadIDCounter, mainView_threadIDCounter]
    refine ⟨by rw [hv, hSt]; exact h.view.free hst hg,
      fun w hw' t ht => hCounter ▸ h.waiterBelow w (hn ▸ hw') t (hw w ▸ ht), fun _ => ?_⟩
    rw [← mainView_mainThread, hv, MainView.free_mainThread]

theorem push (h : s.MainOk) {f : Frame} (hst : checkNext s.stack = false)
    (hf : ∀ u, f ≠ .guest u) : (s.push f).MainOk :=
  ⟨h.view.push hst hf, h.waiterBelow, h.freed⟩

theorem pop (h : s.MainOk) {f : Frame} {rest : List Frame} (hst : s.stack = f :: rest)
    (hf : checkNext (f :: rest) = false) : (s.setStack rest).MainOk :=
  ⟨(hst ▸ h.view).pop hf, h.waiterBelow, h.freed⟩

/-- A step of the process's own functions: the ledger is the same, and the
main thread stays, is forgotten, or is made before any free. -/
theorem of_view (h : s.MainOk) (hL : s'.ledger = s.ledger) (hv : s'.mainView.Inv s'.stack)
    (hc : s.proc.threadIDCounter ≤ s'.proc.threadIDCounter)
    (hm : .processFree ∈ s.trace →
      s'.proc.mainThread = s.proc.mainThread ∨ s'.proc.mainThread = none) : s'.MainOk := by
  have hn : s'.nextWaiter = s.nextWaiter := congrArg Ledger.nextWaiter hL
  have hw : s'.waiters = s.waiters := congrArg Ledger.waiters hL
  have hf : s'.trace.count .processFree = s.trace.count .processFree := congrArg Ledger.frees hL
  refine ⟨hv, fun w hw' t ht => ?_, fun hp => ?_⟩
  · exact Nat.lt_of_lt_of_le (h.waiterBelow w (hn ▸ hw') t (hw ▸ ht)) hc
  · have hp' : .processFree ∈ s.trace := by
      rw [← List.count_pos_iff] at hp ⊢
      omega
    exact (hm hp').elim (fun hm => hm.trans (h.freed hp')) id

end World.MainOk

/-! ## Every step keeps the invariant -/

theorem StackOk.eq_nil_of_task {t : Task} {rest : List Frame} (h : StackOk (.task t :: rest)) :
    rest = [] := by
  rcases rest with _ | ⟨f, rest⟩
  · rfl
  · have := List.rel_of_chain_cons h.1
    simp [Frame.sitsOn] at this

theorem StackOk.checkNext_of_guest {t : Nat} {rest : List Frame} (h : StackOk (.guest t :: rest)) :
    checkNext rest := by
  rcases rest with _ | ⟨f, rest⟩
  · simpa [Frame.isBottom] using h.2
  · have := List.rel_of_chain_cons h.1
    cases f <;> simp_all [Frame.sitsOn, checkNext]

theorem checkNext_of_atEventPoint {s : World} (h : s.atEventPoint) : checkNext s.stack = false := by
  unfold atEventPoint at h
  split at h <;> simp_all [checkNext]

/-- With a holder left, the process has not been freed. -/
theorem count_processFree_eq_zero {s : World} (h : s.ledger.Inv s.stack)
    (hPos : 0 < s.proc.referenceCount) : s.trace.count .processFree = 0 := by
  have := h.frees
  simp only [ledger_refs, show s.proc.referenceCount ≠ 0 by omega, if_false] at this
  exact this

theorem mainView_processSchedule (now : SimulationTime) (s : World) :
    (processSchedule now s).mainView = s.mainView ∧ (processSchedule now s).trace = s.trace ∧
      (processSchedule now s).nextWaiter = s.nextWaiter ∧
      (processSchedule now s).waiters = s.waiters := by
  unfold processSchedule
  dsimp only
  split_ifs <;> simp only [World.scheduleTask, processRef, World.setReferenceCount, World.setTasks,
    World.mainView, and_self]

/-- The scheduler runs a task: `_process_start` makes a main thread only where
there is none and before any free, `process_stop` terminates and forgets it. -/
theorem World.MainOk.runTask {s s' : World} (hI : s.ledger.Inv s.stack) (h : s.MainOk)
    {i : Nat} {t : Task} {fdOut fdErr : Int} {err : String} (hEmpty : s.stack = [])
    (hT : s.tasks[i]? = some t)
    (hr : processRunTask t.kind fdOut fdErr err ((s.setTasks (s.tasks.eraseIdx i)).push (.task t)) =
      .ok s') : s'.MainOk := by
  have hi : i < s.tasks.length := (List.getElem?_eq_some_iff.mp hT).1
  have hFree : s.trace.count .processFree = 0 :=
    count_processFree_eq_zero hI (by have := hI.refs; simp at this; omega)
  have h0 : (s.setTasks (s.tasks.eraseIdx i)).MainOk := h.congr rfl rfl rfl (fun _ => rfl) rfl
  have h1 : ((s.setTasks (s.tasks.eraseIdx i)).push (.task t)).MainOk :=
    h0.push (by simp [hEmpty, checkNext]) (by simp)
  cases hK : t.kind <;> simp only [processRunTask, hK] at hr
  · obtain ⟨hL, -⟩ := processStart_ok _ hr
    rcases processStart_cases _ hr with ⟨rfl, -⟩ | ⟨hNone, ⟨method, hv⟩, hSt, -, -⟩
    · exact h1
    · refine h1.of_view hL ?_ ?_ fun hp => ?_
      · rw [hv, hSt]
        exact h1.view.start hNone (by simp [hEmpty]) method _ _ _ _
      · have hc := congrArg MainView.threadIDCounter hv
        simp only [mainView_threadIDCounter, MainView.start_threadIDCounter] at hc
        omega
      · simp [← List.count_pos_iff, hFree] at hp
  · cases hr
    refine h1.of_view (ledger_processStop _) ?_ (by simp [← mainView_threadIDCounter,
      mainView_processStop]) fun _ => .inr ?_
    · rw [mainView_processStop, processStop_stack]
      exact h1.view.stop (by simp [hEmpty, checkNext]) (by simp [hEmpty])
    · rw [← mainView_mainThread, mainView_processStop, MainView.stop_mainThread]

/-- A listener fires in the event loop or in guest code: the callback resumes
the waiter's thread (or the main thread), made before this step. -/
theorem World.MainOk.fire {s s' : World} (hI : s.ledger.Inv s.stack) (h : s.MainOk) {l : Nat}
    (hPoint : s.atEventPoint) (hCan : s.canFire l)
    (hr : processNotifyStatusChanged (s.listeners l).argument s = .ok s') : s'.MainOk := by
  obtain ⟨hw, hArmed⟩ := hI.armed_of_canFire hCan
  obtain ⟨s'', hOk, -, -, X, rfl⟩ := processNotifyStatusChanged_of_armed s _
    (by simpa using hArmed.live) hArmed.timer.sideArmed hArmed.descriptor.sideArmed
    hArmed.listeners_ne
  rw [hOk] at hr
  cases hr
  set w := (s.listeners l).argument
  set s2 := ({ s with listeners := X }.log (.notify w (s.waiters w).thread)).push
    (.notifyReturn w)
  have h2 : s2.MainOk := by
    have : ({ s with listeners := X }.log (.notify w (s.waiters w).thread)).MainOk :=
      h.congr (by simp [Event.isLifecycle]) rfl rfl (fun _ => rfl) (by simp)
    exact this.push (checkNext_of_atEventPoint hPoint) (by simp)
  rcases processContinue_cases s2 (s.waiters w).thread with ⟨hEq, -⟩ |
    ⟨m, hMain, hRun, hv, hSt, -, -⟩
  · rw [hEq]; exact h2
  · have hLt : ((s.waiters w).thread.getD m) < s.proc.threadIDCounter := by
      rcases hTh : (s.waiters w).thread with _ | t
      · exact h.view.mainBelow m hMain
      · exact h.waiterBelow w hw t hTh
    refine h2.of_view (ledger_processContinue s2 _) ?_ (by
      simp [← mainView_threadIDCounter, hv]) fun _ => .inl (by
      simp [← mainView_mainThread, hv])
    rw [hv, hSt]
    refine h2.view.resume (by simp [s2, checkNext]) hMain hRun hLt fun hOne => ?_
    have hm : m < s.proc.threadIDCounter := h.view.mainBelow m hMain
    have hc : s2.mainView.threadIDCounter = s.proc.threadIDCounter := rfl
    omega

/-- Guest code of thread `t` blocks: the new waiter resumes `t`, a thread the
process made. -/
theorem World.MainOk.listen {s : World} (h : s.MainOk) {t : Nat} {rest : List Frame}
    (hSt : s.stack = .guest t :: rest) (timer descriptor : Option Nat)
    (status : DescriptorStatus) :
    (processListenForStatus (some t) timer descriptor status s).MainOk := by
  cases hNone : (timer.isNone && descriptor.isNone)
  · have hA := Ledger.listen_arms s.ledger (some t) timer descriptor status hNone
    rw [← ledger_processListenForStatus] at hA
    have hv := mainView_processListenForStatus s (some t) timer descriptor status
    have hc : (processListenForStatus (some t) timer descriptor status s).proc.threadIDCounter =
        s.proc.threadIDCounter := congrArg MainView.threadIDCounter hv
    refine ⟨by rw [hv, stack_processListenForStatus]; exact h.view, fun v hv' u hu => ?_,
      fun hp => (congrArg MainView.mainThread hv).trans (h.freed ?_)⟩
    · have hW := congrFun hA.waiters v
      simp only [ledger_waiters, ledger_nextWaiter, Function.update_apply] at hW hv' hA
      rw [hc]
      rw [hW] at hu
      split at hu
      · cases hu
        exact h.view.guestBelow t (by simp [hSt])
      · have hn := hA.nextWaiter
        simp only [ledger_nextWaiter] at hn
        exact h.waiterBelow v (by omega) u hu
    · have hf := hA.frees
      simp only [World.ledger] at hf
      rw [← List.count_pos_iff] at hp ⊢
      omega
  · have hEq : processListenForStatus (some t) timer descriptor status s = s := by
      simp [processListenForStatus, hNone]
    rw [hEq]
    exact h

open World.MainOk in
theorem step_mainOk {s s' : World} {a : Action} (hI : s.ledger.Inv s.stack) (h : s.MainOk)
    (hStep : step s a = some (.ok s')) : s'.MainOk := by
  have hI' := step_inv hI hStep
  generalize hr : (Except.ok s' : Except String World) = r at hStep
  cases step_eq_some_iff.mp hStep with
  | ownerRef =>
    cases hr
    exact h.congr (by simp) rfl rfl (fun _ => rfl) rfl
  | ownerUnref hEmpty =>
    have hF := (FreesAtMost.of_eq rfl rfl (fun _ => rfl) (by simp) rfl).trans
      (freesAtMost_processUnref _ hr.symm)
    exact h.of_freesAtMost hF fun _ => by simp [hEmpty, checkNext]
  | schedule now =>
    cases hr
    obtain ⟨hv, ht, hn, hw⟩ := mainView_processSchedule now s
    exact h.congr hv (processSchedule_stack s now) hn (fun w => by rw [hw]) (by rw [ht])
  | runTask i t fdOut fdErr err hEmpty hT => exact h.runTask hI hEmpty hT hr.symm
  | resume hEmpty =>
    cases hr
    rcases processContinue_cases s none with ⟨hEq, -⟩ | ⟨m, hMain, hRun, hv, hSt, -, -⟩
    · rw [hEq]; exact h
    · refine h.of_view (ledger_processContinue s none) ?_ (by
        simp [← mainView_threadIDCounter, hv]) fun _ => .inl (by
        simp [← mainView_mainThread, hv])
      rw [hv, hSt]
      exact h.view.resume (by simp [hEmpty, checkNext]) hMain hRun
        (h.view.mainBelow m hMain) fun _ => rfl
  | fire l hPoint hCan => exact h.fire hI hPoint hCan hr.symm
  | listen t rest timer descriptor status hSt =>
    cases hr
    exact h.listen hSt timer descriptor status
  | yield t rest hSt =>
    cases hr
    exact h.pop hSt rfl
  | exit t rest code hSt =>
    cases hr
    have hNext := (hSt ▸ hI.nested).checkNext_of_guest
    refine (h.pop hSt rfl).of_view (ledger_threadExit _ t code) ?_ le_rfl fun _ => .inl rfl
    rw [mainView_threadExit, threadExit_stack]
    exact (hSt ▸ h.view).exit code hNext
  | retTask t rest hSt =>
    have hRest := (hSt ▸ hI.nested).eq_nil_of_task
    subst hRest
    exact (h.pop hSt rfl).of_freesAtMost (freesAtMost_processUnref _ hr.symm)
      fun _ => by simp [checkNext]
  | retStart rest hSt =>
    cases hr
    refine h.of_view (ledger_processStartReturn _) ?_ (by
      simp [← mainView_threadIDCounter]) fun _ => ?_
    · rw [mainView_processStartReturn, processStartReturn_stack, setStack_stack]
      exact (hSt ▸ h.view).check
    · simpa [← mainView_mainThread] using MainView.check_mainThread s.mainView
  | retContinue rest hSt =>
    cases hr
    refine h.of_view (ledger_processContinueReturn _) ?_ (by
      simp [← mainView_threadIDCounter]) fun _ => ?_
    · rw [mainView_processContinueReturn, processContinueReturn_stack, setStack_stack]
      exact (hSt ▸ h.view).check
    · simpa [← mainView_mainThread] using MainView.check_mainThread s.mainView
  | retNotify w rest hSt =>
    have hF := freesAtMost_processNotifyStatusChangedReturn _ w hr.symm
    refine (h.pop hSt rfl).of_freesAtMost hF fun hLt => ?_
    have hNil : s'.stack = [] := by
      by_contra hNe
      have := count_processFree_eq_zero hI' (hI'.refs_pos hNe)
      omega
    rw [← hF.1, hNil]
    simp [checkNext]

/-- The world `process_new` builds satisfies the invariant. -/
theorem processNew_mainOk {host : Host} {processID : Nat} {startTime stopTime : SimulationTime}
    {interposeMethod : InterposeMethod} {hostName : String} {pluginName pluginPath : Option String}
    {envv argv : List String} {s : World}
    (h : processNew host processID startTime stopTime interposeMethod hostName pluginName pluginPath
      envv argv = .ok s) : s.MainOk := by
  obtain ⟨_, _, -, -, rfl⟩ := processNew_eq_ok h
  refine ⟨⟨fun m hm => ?_, fun m hm => ?_, fun t ht => ?_, fun t => ?_, fun t ht => ?_,
    fun m hm => ?_, .inl ⟨rfl, ?_⟩, fun t ht => ?_, fun _ t c ht => ?_,
    fun _ t e _ hSub => ?_⟩,
    fun w hw => absurd hw (Nat.not_lt_zero w), fun _ => rfl⟩ <;>
    simp_all [newProcessWorld, MainView.released, MainView.Stopped, MainView.logs,
      Event.isLifecycle]

theorem reachable_mainOk {s : World} (h : Reachable s) : s.MainOk := by
  induction h with
  | boot h => exact processNew_mainOk h
  | step hR hStep ih => exact step_mainOk (reachable_inv hR) ih hStep

/-- Over every reachable world: outside a burst the main thread is unset or
runs, so `_process_start` finds it running or unset and its assertion holds;
every thread made is released once when the process forgets it, and it has
forgotten its main thread once freed; the return-code lines are none, or those
of one exit's code, with the plugin error exactly when that code is nonzero.
With at most one thread made, no thread is resumed after it was terminated or
its guest exited, and once a guest exited its code is logged by the time
control is back in the event loop. -/
theorem main_thread_lifecycle {s : World} (hR : Reachable s) :
    (s.stack = [] → s.proc.mainThread = none ∨ processIsRunning s) ∧
      (s.proc.threadIDCounter ≤ 1 → NoResumeAfterStop s.trace) ∧
      (∀ t < s.proc.threadIDCounter,
        s.trace.countP (Event.releases t) = if s.proc.mainThread = some t then 0 else 1) ∧
      (.processFree ∈ s.trace → s.proc.mainThread = none) ∧
      (s.trace.filter Event.isReturnCodeLog = [] ∨ ∃ t c, .guestExit t c ∈ s.trace ∧
        s.trace.filter Event.isReturnCodeLog = returnCodeEvents c s.proc.processName) ∧
      (s.proc.threadIDCounter ≤ 1 → s.stack = [] → (∃ t c, .guestExit t c ∈ s.trace) →
        ∃ t c, .guestExit t c ∈ s.trace ∧
          s.trace.filter Event.isReturnCodeLog = returnCodeEvents c s.proc.processName) := by
  have h := reachable_mainOk hR
  have hv := h.view
  have hLogs : s.mainView.logs = s.trace.filter Event.isReturnCodeLog := by
    simp only [MainView.logs, mainView_events, List.filter_filter]
    exact List.filter_congr fun e _ => by
      cases hr : e.isReturnCodeLog <;> simp [Event.isLifecycle_of_isReturnCodeLog, hr]
  have hExit : ∀ t c, .guestExit t c ∈ s.mainView.events ↔ .guestExit t c ∈ s.trace := by
    simp [Event.isLifecycle]
  have hLogged : s.mainView.Logged → s.trace.filter Event.isReturnCodeLog = [] ∨
      ∃ t c, .guestExit t c ∈ s.trace ∧
        s.trace.filter Event.isReturnCodeLog = returnCodeEvents c s.proc.processName := by
    rintro (⟨-, h2⟩ | ⟨-, t, c, h2, h3⟩)
    · exact .inl (hLogs ▸ h2)
    · exact .inr ⟨t, c, (hExit t c).mp h2, hLogs ▸ h3⟩
  refine ⟨fun hEmpty => ?_, fun hOne => (hv.noResume hOne).of_lifecycle, fun t ht => ?_, h.freed,
    hLogged hv.logged, fun hOne hEmpty ⟨t, c, htc⟩ => ?_⟩
  · rcases hMain : s.proc.mainThread with _ | m
    · exact .inl rfl
    · have := (hv.running m hMain).resolve_right (by simp [hEmpty, checkNext])
      simp only [processIsRunning, hMain]
      exact .inr this
  · have hRel := hv.released t
    simp only [MainView.released, mainView_events, List.countP_filter] at hRel
    have hRelease : (fun e => Event.releases t e && e.isLifecycle) = Event.releases t :=
      funext fun e => by
        cases hr : e.releases t
        · rfl
        · simpa using Event.isLifecycle_of_releases hr
    rw [hRelease] at hRel
    rw [hRel]
    by_cases hm : s.proc.mainThread = some t <;> simp [hm, ht]
  · have hDid := (hv.exitLogged hOne t c ((hExit t c).mpr htc)).resolve_right
      (by simp [hEmpty, checkNext])
    rcases hv.logged with ⟨h1, -⟩ | ⟨-, t', c', h2, h3⟩
    · exact absurd (h1.symm.trans hDid) Bool.false_ne_true
    · exact ⟨t', c', (hExit t' c').mp h2, hLogs ▸ h3⟩

/-- The owner schedules the process; the start task fires and the guest exits
with code 3 in its first burst. -/
def exitRun : List Action :=
  [.schedule 0, .runTask 0 3 4 "", .exit 3, .ret, .ret]

theorem main_thread_lifecycle_exitRun :
    ∃ s, Reachable s ∧
      (s.stack = [] → s.proc.mainThread = none ∨ processIsRunning s) ∧
      (s.proc.threadIDCounter ≤ 1 → NoResumeAfterStop s.trace) ∧
      (∀ t < s.proc.threadIDCounter,
        s.trace.countP (Event.releases t) = if s.proc.mainThread = some t then 0 else 1) ∧
      (.processFree ∈ s.trace → s.proc.mainThread = none) ∧
      (s.trace.filter Event.isReturnCodeLog = [] ∨ ∃ t c, .guestExit t c ∈ s.trace ∧
        s.trace.filter Event.isReturnCodeLog = returnCodeEvents c s.proc.processName) ∧
      (s.proc.threadIDCounter ≤ 1 → s.stack = [] → (∃ t c, .guestExit t c ∈ s.trace) →
        ∃ t c, .guestExit t c ∈ s.trace ∧
          s.trace.filter Event.isReturnCodeLog = returnCodeEvents c s.proc.processName) := by
  have hR := reachable_run exitRun
    (@Reachable.boot ⟨"/data"⟩ 1 0 0 .preload "host" (some "app") (some "/bin/app") [] [] _ rfl)
    rfl
  exact ⟨_, hR, main_thread_lifecycle hR⟩

/-! ## Aborts -/

/-- The errors of `_process_start`, in the order it checks. -/
theorem processStart_error {fdOut fdErr : Int} {err e : String} {s : World}
    (h : processStart fdOut fdErr err s = .error e) :
    processIsRunning s = false ∧
      let file (suffix : String) := s.proc.host.dataPath ++ "/" ++ s.proc.processName ++ suffix
      (fdOut < 0 ∧ e = "Opening " ++ file ".stdout" ++ ": " ++ err ∨
        0 ≤ fdOut ∧ fdErr < 0 ∧ e = "Opening " ++ file ".stderr" ++ ": " ++ err ∨
        0 ≤ fdOut ∧ 0 ≤ fdErr ∧ s.proc.mainThread.isSome ∧
          e = "proc->mainThread == NULL" ∨
        0 ≤ fdOut ∧ 0 ≤ fdErr ∧ s.proc.mainThread = none ∧
          ∃ v, s.proc.interposeMethod = .unknown v ∧
            e = "Bad interposeMethod " ++ toString v) := by
  unfold processStart at h
  by_cases hRun : processIsRunning s
  · rw [if_pos hRun] at h
    cases h
  rw [if_neg hRun] at h
  refine ⟨by simpa using hRun, ?_⟩
  by_cases hOut : fdOut < 0
  · rw [if_pos hOut] at h
    cases h
    exact .inl ⟨hOut, rfl⟩
  rw [if_neg hOut] at h
  by_cases hErr : fdErr < 0
  · rw [if_pos hErr] at h
    cases h
    exact .inr (.inl ⟨by omega, hErr, rfl⟩)
  rw [if_neg hErr] at h
  by_cases hSome : s.proc.mainThread.isSome
  · rw [if_pos hSome] at h
    cases h
    exact .inr (.inr (.inl ⟨by omega, by omega, hSome, rfl⟩))
  rw [if_neg hSome] at h
  simp only at h
  split at h
  · rename_i v hv
    cases h
    exact .inr (.inr (.inr
      ⟨by omega, by omega, Option.not_isSome_iff_eq_none.mp hSome, v, hv, rfl⟩))
  · cases h

/-- In a reachable world a step aborts only in `_process_start` run by the start
task, with the text of one of its `error` calls: a log file could not be
opened, or the interposition method is unknown. Its assertion
`proc->mainThread == NULL` never fails. -/
theorem step_abort_cases {s : World} (hR : Reachable s) {a : Action} {e : String}
    (h : step s a = some (.error e)) :
    ∃ i fdOut fdErr err t, a = .runTask i fdOut fdErr err ∧ s.tasks[i]? = some t ∧
      t.kind = .start ∧
      let file (suffix : String) := s.proc.host.dataPath ++ "/" ++ s.proc.processName ++ suffix
      (fdOut < 0 ∧ e = "Opening " ++ file ".stdout" ++ ": " ++ err ∨
        0 ≤ fdOut ∧ fdErr < 0 ∧ e = "Opening " ++ file ".stderr" ++ ": " ++ err ∨
        0 ≤ fdOut ∧ 0 ≤ fdErr ∧
          ∃ v, s.proc.interposeMethod = .unknown v ∧ e = "Bad interposeMethod " ++ toString v) := by
  obtain ⟨i, fdOut, fdErr, err, t, rfl, hT, hK, hStart⟩ := step_spec (reachable_inv hR) h
  have hEmpty : s.stack = [] := by
    generalize Except.error e = r at h
    cases step_eq_some_iff.mp h with
    | runTask _ _ _ _ _ hEmpty => exact hEmpty
  obtain ⟨hRun, hCases⟩ := processStart_error hStart
  refine ⟨i, fdOut, fdErr, err, t, rfl, hT, hK, ?_⟩
  rcases hCases with h1 | h2 | ⟨-, -, hSome, -⟩ | ⟨h3, h4, -, h5⟩
  · exact .inl h1
  · exact .inr (.inl h2)
  · have hv := (reachable_mainOk hR).view
    rcases hMain : s.proc.mainThread with _ | m
    · simp [hMain] at hSome
    · have hr : (s.threads m).running := (hv.running m hMain).resolve_right
        (by simp [hEmpty, checkNext])
      simp [processIsRunning, hMain, hr] at hRun
  · exact .inr (.inr ⟨h3, h4, h5⟩)

/-- A process with an unknown interposition method: its start task aborts. -/
def badMethodWorld : World :=
  newProcessWorld ⟨"/data"⟩ 1 0 0 (.unknown 7) "host" "app" "/bin/app" [] []

theorem step_abort_cases_badMethod :
    ∃ (s : World) (a : Action) (e : String), Reachable s ∧ step s a = some (.error e) ∧
      ∃ i fdOut fdErr err t, a = .runTask i fdOut fdErr err ∧ s.tasks[i]? = some t ∧
        t.kind = .start ∧
        let file (suffix : String) := s.proc.host.dataPath ++ "/" ++ s.proc.processName ++ suffix
        (fdOut < 0 ∧ e = "Opening " ++ file ".stdout" ++ ": " ++ err ∨
          0 ≤ fdOut ∧ fdErr < 0 ∧ e = "Opening " ++ file ".stderr" ++ ": " ++ err ∨
          0 ≤ fdOut ∧ 0 ≤ fdErr ∧
            ∃ v, s.proc.interposeMethod = .unknown v ∧ e = "Bad interposeMethod " ++ toString v) := by
  have hR : Reachable (processSchedule 0 badMethodWorld) := reachable_run [.schedule 0]
    (@Reachable.boot ⟨"/data"⟩ 1 0 0 (.unknown 7) "host" (some "app") (some "/bin/app") [] []
      _ rfl)
    rfl
  have hStep : step (processSchedule 0 badMethodWorld) (.runTask 0 3 4 "") =
      some (.error "Bad interposeMethod 7") := rfl
  exact ⟨_, _, _, hR, hStep, step_abort_cases hR hStep⟩

/-! ## The executing latch -/

/-- After the start task returns to the event loop, with the guest's first burst
over, `plugin.isExecuting` is still set. -/
theorem start_task_leaves_executing :
    ∃ s, Reachable s ∧ s.stack = [] ∧ s.proc.isExecuting = true :=
  ⟨_, reachable_run startRun
    (@Reachable.boot ⟨"/data"⟩ 1 0 0 .preload "host" (some "app") (some "/bin/app") [] [] _ rfl)
    rfl, by decide, by decide⟩

end ShadowProcess
