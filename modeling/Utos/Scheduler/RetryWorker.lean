import Mathlib.Data.Multiset.Range
import Utos.Core.Exceptions
import Utos.Coroutine.Custody
import Utos.Coroutine.Trace

namespace Utos.Scheduler.RetryWorker

open Coroutine Program Core.Exceptions

/-- _RetryJob. Jobs are objects that the queue refers to by number; the coroutine of a job is known by it too. -/
structure Job where
  taskId : String
  retryCount : Nat := 0
  maxRetries : Int := 3
  lastError : Option String := none

structure Metrics where
  jobsSubmitted : Nat := 0
  jobsSucceeded : Nat := 0
  jobsRetried : Nat := 0
  jobsFailed : Nat := 0
  movedToDlq : Nat := 0
  deriving DecidableEq, Repr

inductive Status
  | success
  | retry
  | failed
  deriving DecidableEq, Repr

structure JobResult where
  taskId : String
  status : Status
  attempts : Nat
  error : Option String := none

/-- A worker, the jobs that were made so far, and the calls of its callback. -/
structure Worker where
  maxRetries : Int := 3
  backoffBase : Int := 1
  hasDlqCallback : Bool := false
  jobs : Nat → Job := fun _ => { taskId := "" }
  made : Nat := 0
  queue : List Nat := []
  metrics : Metrics := {}
  dlqCalls : List (Nat × String) := []

/-- What is awaited: asyncio.sleep, and the coroutine of a job. -/
inductive Request
  | sleep (seconds : Int)
  | coroutine (job : Nat)

/-- A coroutine returns, or raises an exception with a text. -/
abbrev Answer : Request → Type
  | .sleep _ => Unit
  | .coroutine _ => Except String Unit

abbrev Operation (α : Type) := Program Worker Request Answer Exn α

namespace Worker

variable (w : Worker)

def submit (taskId : String) : Worker :=
  { w with jobs := Function.update w.jobs w.made { taskId := taskId, maxRetries := w.maxRetries }
           made := w.made + 1
           queue := w.queue ++ [w.made]
           metrics := { w.metrics with jobsSubmitted := w.metrics.jobsSubmitted + 1 } }

def getBackoffSeconds (retryCount : Nat) : Int :=
  if retryCount = 0 then 0 else w.backoffBase * 2 ^ (retryCount - 1)

def succeed : Worker := { w with metrics := { w.metrics with jobsSucceeded := w.metrics.jobsSucceeded + 1 } }

/-- job.last_error = error; job.retry_count += 1 -/
def failOnce (job : Nat) (error : String) : Worker :=
  { w with jobs := Function.update w.jobs job
             { w.jobs job with lastError := some error, retryCount := (w.jobs job).retryCount + 1 } }

def requeue (job : Nat) : Worker :=
  { w with queue := w.queue ++ [job], metrics := { w.metrics with jobsRetried := w.metrics.jobsRetried + 1 } }

/-- What the callback raises is logged; what it submits is submitted after it. -/
def moveToDlq (job : Nat) (error : String) : Worker :=
  { w with metrics := { w.metrics with jobsFailed := w.metrics.jobsFailed + 1, movedToDlq := w.metrics.movedToDlq + 1 }
           dlqCalls := if w.hasDlqCallback then w.dlqCalls ++ [(job, error)] else w.dlqCalls }

end Worker

/-- The end of _process_job, when the coroutine has returned or raised. -/
def settle (job : Nat) (outcome : Except String Unit) : Operation JobResult :=
  .get (fun w => match outcome with
    | .ok () => .put w.succeed (.ret ⟨(w.jobs job).taskId, .success, (w.jobs job).retryCount + 1, none⟩)
    | .error error =>
        let w := w.failOnce job error
        let result := fun status => ⟨(w.jobs job).taskId, status, (w.jobs job).retryCount, some error⟩
        if ((w.jobs job).retryCount : Int) < (w.jobs job).maxRetries then .put (w.requeue job) (.ret (result .retry))
        else .put (w.moveToDlq job error) (.ret (result .failed)))

def runJob (job : Nat) : Operation JobResult := .call (.coroutine job) (settle job)

def processJob (job : Nat) : Operation JobResult :=
  .get (fun w =>
    let backoff := w.getBackoffSeconds (w.jobs job).retryCount
    if 0 < backoff ∧ 0 < (w.jobs job).retryCount then .call (.sleep backoff) (fun _ => runJob job) else runJob job)

def processQueue : Operation (List JobResult) := drain Worker.queue (fun w => { w with queue := [] }) processJob

/-- The executions that have ended, each with its job. -/
abbrev Log := List (Nat × Except String Unit)

abbrev Workers := Pool Worker Log Request Answer Exn (List JobResult)

/-- A call of submit, by a job or by others; a call of process_queue, which is given a task
name of its own; the end of a sleep or of a coroutine, with which its task goes on at once. -/
inductive Event
  | submit (taskId : String)
  | processQueue (task : Nat)
  | answer (task : Nat) (outcome : Except String Unit)

/-- The coroutine that is awaited ends like this. -/
def ends (outcome : Except String Unit) : Handler Log Request Answer
  | log, .sleep _ => ((), log)
  | log, .coroutine job => (outcome, log ++ [(job, outcome)])

def step (P : Workers) : Event → Workers
  | .submit taskId => { P with store := P.store.submit taskId }
  | .processQueue task => if (P.tasks task).isNone then P.start task processQueue else P
  | .answer task outcome => (P.act (ends outcome) task).resume task

/-- RetryWorker.__init__ -/
def opening (maxRetries backoffBase : Int) (hasDlqCallback : Bool) : Workers :=
  { store := { maxRetries := maxRetries, backoffBase := backoffBase, hasDlqCallback := hasDlqCallback }, world := [] }

end Utos.Scheduler.RetryWorker

namespace Utos.Scheduler.RetryWorker

open Coroutine Program Core.Exceptions

def executions (log : Log) (job : Nat) : Nat := log.countP (fun e => e.1 = job)

def failures (log : Log) (job : Nat) : Nat := log.countP (fun e => e.1 = job && !e.2.isOk)

/-- max(1, max_retries) -/
def limit (maxRetries : Int) : Nat := (max 1 maxRetries).toNat

def Worker.limit (w : Worker) : Nat := RetryWorker.limit w.maxRetries

/-- A job that is queued or in flight has only failed, and may be executed again. -/
structure Live (log : Log) (w : Worker) (job : Nat) : Prop where
  executed : executions log job = failures log job
  counted : failures log job = (w.jobs job).retryCount
  bounded : failures log job < w.limit

structure Succeeded (log : Log) (w : Worker) (job : Nat) : Prop where
  executed : executions log job ≤ w.limit
  failed : failures log job < w.limit

structure Dead (log : Log) (w : Worker) (job : Nat) : Prop where
  executed : executions log job = w.limit
  failed : failures log job = w.limit

/-- Every job that was made is queued, in flight, has succeeded, or was moved to the dead letters. -/
structure Accounts (F S D : Multiset Nat) (log : Log) (w : Worker) : Prop where
  places : Multiset.range w.made = (w.queue : Multiset Nat) + F + S + D
  submitted : w.metrics.jobsSubmitted = w.made
  succeeded : w.metrics.jobsSucceeded = S.card
  moved : w.metrics.movedToDlq = D.card
  calls : (w.dlqCalls.map Prod.fst : Multiset Nat) = if w.hasDlqCallback then D else 0
  maxRetries : ∀ job < w.made, (w.jobs job).maxRetries = w.maxRetries
  fresh : ∀ job, w.made ≤ job → executions log job = 0
  live : ∀ job ∈ (w.queue : Multiset Nat) + F, Live log w job
  settled : ∀ job ∈ S, Succeeded log w job
  dead : ∀ job ∈ D, Dead log w job

def Kept (maxRetries : Int) (hasDlqCallback : Bool) : Invariant Nat Log Worker := fun F log w =>
  w.maxRetries = maxRetries ∧ w.hasDlqCallback = hasDlqCallback ∧ ∃ S D, Accounts F S D log w

variable {F S D S' D' : Multiset Nat} {log : Log} {w w' : Worker} {job : Nat} {outcome : Except String Unit}

theorem limit_pos (w : Worker) : 0 < w.limit := by
  rw [Worker.limit, RetryWorker.limit]
  omega

theorem executions_concat (log : Log) (outcome : Except String Unit) (job other : Nat) :
    executions (log ++ [(job, outcome)]) other = executions log other + if job = other then 1 else 0 := by
  simp [executions, List.countP_append, List.countP_singleton]

theorem failures_concat (log : Log) (outcome : Except String Unit) (job other : Nat) :
    failures (log ++ [(job, outcome)]) other = failures log other + if job = other ∧ outcome.isOk = false then 1 else 0 := by
  simp [failures, List.countP_append, List.countP_singleton]

theorem failures_le (log : Log) (job : Nat) : failures log job ≤ executions log job :=
  List.countP_mono_left (fun _ _ he => (Bool.and_eq_true_iff.mp he).1)

/-- What an execution of a job does not change. -/
structure Spares (job : Nat) (w w' : Worker) : Prop where
  maxRetries : w'.maxRetries = w.maxRetries
  callback : w'.hasDlqCallback = w.hasDlqCallback
  made : w'.made = w.made
  submitted : w'.metrics.jobsSubmitted = w.metrics.jobsSubmitted
  others : ∀ other, other ≠ job → w'.jobs other = w.jobs other
  own : (w'.jobs job).maxRetries = (w.jobs job).maxRetries

theorem Spares.limit (h : Spares job w w') : w'.limit = w.limit := by rw [Worker.limit, Worker.limit, h.maxRetries]

section spared

variable {other : Nat} (hother : other ≠ job)

include hother

theorem executions_other : executions (log ++ [(job, outcome)]) other = executions log other := by
  rw [executions_concat, if_neg hother.symm, add_zero]

theorem failures_other : failures (log ++ [(job, outcome)]) other = failures log other := by
  rw [failures_concat, if_neg (fun h => hother h.1.symm), add_zero]

theorem Live.spared (h : Live log w other) (hspares : Spares job w w') : Live (log ++ [(job, outcome)]) w' other := by
  refine ⟨?_, ?_, ?_⟩
  · rw [executions_other hother, failures_other hother, h.executed]
  · rw [failures_other hother, hspares.others other hother, h.counted]
  · rw [failures_other hother, hspares.limit]
    exact h.bounded

theorem Succeeded.spared (h : Succeeded log w other) (hspares : Spares job w w') :
    Succeeded (log ++ [(job, outcome)]) w' other := by
  refine ⟨?_, ?_⟩
  · rw [executions_other hother, hspares.limit]
    exact h.executed
  · rw [failures_other hother, hspares.limit]
    exact h.failed

theorem Dead.spared (h : Dead log w other) (hspares : Spares job w w') : Dead (log ++ [(job, outcome)]) w' other := by
  refine ⟨?_, ?_⟩
  · rw [executions_other hother, hspares.limit]
    exact h.executed
  · rw [failures_other hother, hspares.limit]
    exact h.failed

end spared

namespace Accounts

theorem notMem (h : Accounts (job ::ₘ F) S D log w) :
    job < w.made ∧ job ∉ (w.queue : Multiset Nat) + F + S + D := by
  have hplaces := h.places
  rw [Multiset.add_cons, Multiset.cons_add, Multiset.cons_add] at hplaces
  have hnodup := Multiset.nodup_range w.made
  rw [hplaces, Multiset.nodup_cons] at hnodup
  exact ⟨Multiset.mem_range.mp (hplaces ▸ Multiset.mem_cons_self job _), hnodup.1⟩

/-- A job in flight has been executed, and has found its place. -/
theorem settle (h : Accounts (job ::ₘ F) S D log w) (hspares : Spares job w w')
    (hplaces : (w'.queue : Multiset Nat) + F + S' + D' = (w.queue : Multiset Nat) + (job ::ₘ F) + S + D)
    (hsucceeded : w'.metrics.jobsSucceeded = S'.card) (hmoved : w'.metrics.movedToDlq = D'.card)
    (hcalls : (w'.dlqCalls.map Prod.fst : Multiset Nat) = if w.hasDlqCallback then D' else 0)
    (hlive : ∀ j ∈ (w'.queue : Multiset Nat), j ∈ (w.queue : Multiset Nat) ∨ j = job ∧ Live (log ++ [(job, outcome)]) w' job)
    (hover : ∀ j ∈ S', j ∈ S ∨ j = job ∧ Succeeded (log ++ [(job, outcome)]) w' job)
    (hdead : ∀ j ∈ D', j ∈ D ∨ j = job ∧ Dead (log ++ [(job, outcome)]) w' job) :
    Accounts F S' D' (log ++ [(job, outcome)]) w' := by
  obtain ⟨hmade, hnone⟩ := h.notMem
  have hne : ∀ j ∈ (w.queue : Multiset Nat) + F + S + D, j ≠ job := fun j hj hjob => hnone (hjob ▸ hj)
  refine ⟨?_, ?_, hsucceeded, hmoved, ?_, fun j hj => ?_, fun j hj => ?_, fun j hj => ?_, fun j hj => ?_, fun j hj => ?_⟩
  · rw [hspares.made, h.places, hplaces]
  · rw [hspares.submitted, hspares.made, h.submitted]
  · rw [hspares.callback, hcalls]
  · rw [hspares.made] at hj
    rw [hspares.maxRetries]
    by_cases hjob : j = job
    · rw [hjob, hspares.own, h.maxRetries job hmade]
    · rw [hspares.others j hjob, h.maxRetries j hj]
  · rw [hspares.made] at hj
    rw [executions_other (hmade.trans_le hj).ne', h.fresh j hj]
  · have hold : j ∈ (w.queue : Multiset Nat) + F → Live (log ++ [(job, outcome)]) w' j := by
      intro hj
      have hother := hne j (Multiset.mem_add.mpr (.inl (Multiset.mem_add.mpr (.inl hj))))
      refine (h.live j ?_).spared hother hspares
      rw [Multiset.add_cons]
      exact Multiset.mem_cons_of_mem hj
    rcases Multiset.mem_add.mp hj with hj | hj
    · rcases hlive j hj with hj | ⟨rfl, hlive⟩
      · exact hold (Multiset.mem_add.mpr (.inl hj))
      · exact hlive
    · exact hold (Multiset.mem_add.mpr (.inr hj))
  · rcases hover j hj with hj | ⟨rfl, hover⟩
    · exact (h.settled j hj).spared (hne j (Multiset.mem_add.mpr (.inl (Multiset.mem_add.mpr (.inr hj))))) hspares
    · exact hover
  · rcases hdead j hj with hj | ⟨rfl, hdead⟩
    · exact (h.dead j hj).spared (hne j (Multiset.mem_add.mpr (.inr hj))) hspares
    · exact hdead

theorem succeed (h : Accounts (job ::ₘ F) S D log w) :
    Accounts F (job ::ₘ S) D (log ++ [(job, .ok ())]) w.succeed := by
  have hlive := h.live job (Multiset.mem_add.mpr (.inr (Multiset.mem_cons_self job F)))
  refine h.settle ⟨rfl, rfl, rfl, rfl, fun _ _ => rfl, rfl⟩ ?_ ?_ h.moved h.calls (fun j hj => .inl hj) (fun j hj => ?_)
    (fun j hj => .inl hj)
  · simp only [Worker.succeed, Multiset.add_cons, Multiset.cons_add]
  · rw [Multiset.card_cons, ← h.succeeded]
    rfl
  · rcases Multiset.mem_cons.mp hj with rfl | hj
    · refine .inr ⟨rfl, ?_, ?_⟩
      · rw [executions_concat, if_pos rfl, hlive.executed]
        exact hlive.bounded
      · rw [failures_concat, if_neg (by simp [Except.isOk, Except.toBool]), add_zero]
        exact hlive.bounded
    · exact .inl hj

theorem failed_counts (h : Accounts (job ::ₘ F) S D log w) (error : String) :
    executions (log ++ [(job, .error error)]) job = (w.jobs job).retryCount + 1 ∧
      failures (log ++ [(job, .error error)]) job = (w.jobs job).retryCount + 1 := by
  have hlive := h.live job (Multiset.mem_add.mpr (.inr (Multiset.mem_cons_self job F)))
  rw [executions_concat, failures_concat, if_pos rfl, if_pos ⟨rfl, rfl⟩, hlive.executed, hlive.counted]
  exact ⟨rfl, rfl⟩

theorem spares_requeue (w : Worker) (job : Nat) (error : String) : Spares job w ((w.failOnce job error).requeue job) :=
  ⟨rfl, rfl, rfl, rfl, fun _ hother => Function.update_of_ne hother _ _, by simp [Worker.requeue, Worker.failOnce]⟩

theorem spares_moveToDlq (w : Worker) (job : Nat) (error : String) :
    Spares job w ((w.failOnce job error).moveToDlq job error) :=
  ⟨rfl, rfl, rfl, rfl, fun _ hother => Function.update_of_ne hother _ _, by simp [Worker.moveToDlq, Worker.failOnce]⟩

theorem requeue (h : Accounts (job ::ₘ F) S D log w) (error : String)
    (hretry : ((w.jobs job).retryCount : Int) + 1 < (w.jobs job).maxRetries) :
    Accounts F S D (log ++ [(job, .error error)]) ((w.failOnce job error).requeue job) := by
  obtain ⟨hexecutions, hfailures⟩ := h.failed_counts error
  refine h.settle (spares_requeue w job error) ?_ h.succeeded h.moved h.calls (fun j hj => ?_) (fun j hj => .inl hj)
    (fun j hj => .inl hj)
  · simp only [Worker.requeue, Worker.failOnce, ← Multiset.coe_add, Multiset.coe_singleton, Multiset.add_cons,
      Multiset.cons_add, Multiset.add_assoc, Multiset.singleton_add]
  · simp only [Worker.requeue, Worker.failOnce, Multiset.mem_coe, List.mem_append, List.mem_singleton] at hj
    rcases hj with hj | rfl
    · exact .inl hj
    · refine .inr ⟨rfl, hexecutions.trans hfailures.symm, ?_, ?_⟩
      · rw [hfailures]
        simp [Worker.requeue, Worker.failOnce]
      · rw [hfailures, (spares_requeue w j error).limit, Worker.limit, RetryWorker.limit, ← h.maxRetries j h.notMem.1]
        omega

theorem moveToDlq (h : Accounts (job ::ₘ F) S D log w) (error : String)
    (hlast : ¬ ((w.jobs job).retryCount : Int) + 1 < (w.jobs job).maxRetries) :
    Accounts F S (job ::ₘ D) (log ++ [(job, .error error)]) ((w.failOnce job error).moveToDlq job error) := by
  have hlive := h.live job (Multiset.mem_add.mpr (.inr (Multiset.mem_cons_self job F)))
  obtain ⟨hexecutions, hfailures⟩ := h.failed_counts error
  have hlimit : (w.jobs job).retryCount + 1 = ((w.failOnce job error).moveToDlq job error).limit := by
    have hbounded := hlive.bounded
    rw [hlive.counted, Worker.limit, RetryWorker.limit, ← h.maxRetries job h.notMem.1] at hbounded
    rw [(spares_moveToDlq w job error).limit, Worker.limit, RetryWorker.limit, ← h.maxRetries job h.notMem.1]
    omega
  refine h.settle (spares_moveToDlq w job error) ?_ h.succeeded ?_ ?_ (fun j hj => .inl hj) (fun j hj => .inl hj)
    (fun j hj => ?_)
  · simp only [Worker.moveToDlq, Worker.failOnce, Multiset.add_cons, Multiset.cons_add]
  · rw [Multiset.card_cons, ← h.moved]
    rfl
  · exact coe_concat_ite job error h.calls
  · rcases Multiset.mem_cons.mp hj with rfl | hj
    · exact .inr ⟨rfl, hexecutions.trans hlimit, hfailures.trans hlimit⟩
    · exact .inl hj

theorem take (h : Accounts F S D log w) : Accounts ((w.queue : Multiset Nat) + F) S D log { w with queue := [] } := by
  refine ⟨?_, h.submitted, h.succeeded, h.moved, h.calls, h.maxRetries, h.fresh, fun job hjob => ?_,
    fun job hjob => ⟨(h.settled job hjob).1, (h.settled job hjob).2⟩, fun job hjob => ⟨(h.dead job hjob).1, (h.dead job hjob).2⟩⟩
  · rw [Multiset.coe_nil, zero_add]
    exact h.places
  · rw [Multiset.coe_nil, zero_add] at hjob
    have hlive := h.live job hjob
    exact ⟨hlive.executed, hlive.counted, hlive.bounded⟩

theorem submit (h : Accounts F S D log w) (taskId : String) : Accounts F S D log (w.submit taskId) := by
  have hjobs : ∀ job ∈ (w.queue : Multiset Nat) + F, (w.submit taskId).jobs job = w.jobs job := by
    intro job hjob
    have hmade : job ∈ Multiset.range w.made := by
      rw [h.places]
      exact Multiset.mem_add.mpr (.inl (Multiset.mem_add.mpr (.inl hjob)))
    exact Function.update_of_ne (Multiset.mem_range.mp hmade).ne _ _
  have hqueue : ((w.submit taskId).queue : Multiset Nat) = w.made ::ₘ (w.queue : Multiset Nat) := by
    rw [Worker.submit, ← Multiset.coe_add, Multiset.coe_singleton, add_comm, Multiset.singleton_add]
  refine ⟨?_, ?_, h.succeeded, h.moved, h.calls, fun job hjob => ?_, fun job hjob => ?_, fun job hjob => ?_,
    fun job hjob => ⟨(h.settled job hjob).1, (h.settled job hjob).2⟩, fun job hjob => ⟨(h.dead job hjob).1, (h.dead job hjob).2⟩⟩
  · rw [hqueue, Worker.submit, Multiset.range_succ, h.places]
    simp only [Multiset.cons_add]
  · rw [Worker.submit, h.submitted]
  · rcases Nat.lt_succ_iff_lt_or_eq.mp hjob with hjob | rfl
    · exact (congrArg Job.maxRetries (Function.update_of_ne hjob.ne _ _)).trans (h.maxRetries job hjob)
    · simp [Worker.submit]
  · exact h.fresh job (Nat.le_of_succ_le hjob)
  · rw [hqueue, Multiset.cons_add] at hjob
    rcases Multiset.mem_cons.mp hjob with rfl | hjob
    · have hnone := h.fresh w.made le_rfl
      have hfailures : failures log w.made = 0 := Nat.le_zero.mp (hnone ▸ failures_le log w.made)
      refine ⟨hnone.trans hfailures.symm, ?_, hfailures ▸ limit_pos _⟩
      rw [hfailures]
      simp [Worker.submit]
    · have hlive := h.live job hjob
      exact ⟨hlive.executed, by rw [hjobs job hjob, hlive.counted], hlive.bounded⟩

end Accounts

/-- How a job goes on after its requests. -/
def Carried (job : Nat) : (q : Request) → (Answer q → Operation JobResult) → Prop
  | .sleep _, k => k = fun _ => runJob job
  | .coroutine job', k => job' = job ∧ k = settle job

variable {maxRetries : Int} {hasDlqCallback : Bool} {P : Workers}

theorem settles_processJob :
    Settles processJob Carried (Kept maxRetries hasDlqCallback) (fun h => ∃ outcome, h = ends outcome) := by
  refine ⟨fun job F log w hkept => ?_, fun job q k F log w h hends hcarried hkept => ?_⟩
  · left
    simp only [processJob, advance]
    split
    · exact ⟨_, _, w, rfl, rfl, hkept⟩
    · exact ⟨_, _, w, rfl, ⟨rfl, rfl⟩, hkept⟩
  · obtain ⟨outcome, rfl⟩ := hends
    cases q with
    | sleep seconds =>
        obtain rfl := hcarried
        exact .inl ⟨_, _, w, rfl, ⟨rfl, rfl⟩, hkept⟩
    | coroutine job' =>
        obtain ⟨rfl, rfl⟩ := hcarried
        obtain ⟨hmax, hcallback, S, D, haccounts⟩ := hkept
        right
        cases outcome with
        | ok u => exact ⟨_, _, rfl, hmax, hcallback, _, _, haccounts.succeed⟩
        | error error =>
            simp only [ends, settle, advance]
            split
            next hretry =>
              exact ⟨_, _, rfl, hmax, hcallback, _, _, haccounts.requeue error (by simpa [Worker.failOnce] using hretry)⟩
            next hlast =>
              exact ⟨_, _, rfl, hmax, hcallback, _, _, haccounts.moveToDlq error (by simpa [Worker.failOnce] using hlast)⟩

abbrev Sound (maxRetries : Int) (hasDlqCallback : Bool) (P : Workers) : Prop :=
  ∃ own, Custody processJob Carried (Kept maxRetries hasDlqCallback) own P

theorem Sound.step (h : Sound maxRetries hasDlqCallback P) (e : Event) : Sound maxRetries hasDlqCallback (step P e) := by
  obtain ⟨own, hP⟩ := h
  cases e with
  | submit taskId =>
      refine ⟨own, hP.store (fun F hkept => ?_)⟩
      obtain ⟨hmax, hcallback, S, D, haccounts⟩ := hkept
      exact ⟨hmax, hcallback, S, D, haccounts.submit taskId⟩
  | processQueue task =>
      simp only [RetryWorker.step, Option.isNone_iff_eq_none]
      split
      next hfresh =>
        refine hP.start settles_processJob hfresh (fun F hkept => ?_)
        obtain ⟨hmax, hcallback, S, D, haccounts⟩ := hkept
        exact ⟨hmax, hcallback, S, D, haccounts.take⟩
      next => exact ⟨own, hP⟩
  | answer task outcome => exact hP.answer settles_processJob ⟨outcome, rfl⟩

/-- Jobs are neither lost nor doubled, executed no more often than allowed, and reported
when they have failed for good. -/
structure Conserved (maxRetries : Int) (hasDlqCallback : Bool) (P : Workers) : Prop where
  once : P.store.queue.Nodup
  bounded : ∀ job, executions P.world job ≤ limit maxRetries
  running : ∀ task job k, P.tasks task = some (.asked (.coroutine job) k) → executions P.world job < limit maxRetries
  alone : ∀ i j job k k', P.tasks i = some (.asked (.coroutine job) k) → P.tasks j = some (.asked (.coroutine job) k') → i = j
  balance : P.Quiescent → P.store.metrics.jobsSubmitted =
    P.store.metrics.jobsSucceeded + P.store.metrics.movedToDlq + P.store.queue.length
  letters : hasDlqCallback = true → ∀ job, (P.store.dlqCalls.map Prod.fst).count job =
    if failures P.world job = limit maxRetries then 1 else 0

namespace Accounts

theorem nodup (h : Accounts F S D log w) : ((w.queue : Multiset Nat) + F + S + D).Nodup :=
  h.places ▸ Multiset.nodup_range w.made

theorem place (h : Accounts F S D log w) (hjob : executions log job ≠ 0) :
    Live log w job ∨ Succeeded log w job ∨ job ∈ D := by
  have hmade : job ∈ Multiset.range w.made :=
    Multiset.mem_range.mpr (Nat.lt_of_not_le (fun hmade => hjob (h.fresh job hmade)))
  rw [h.places] at hmade
  rcases Multiset.mem_add.mp hmade with hmade | hmade
  · rcases Multiset.mem_add.mp hmade with hmade | hmade
    · exact .inl (h.live job hmade)
    · exact .inr (.inl (h.settled job hmade))
  · exact .inr (.inr hmade)

theorem executions_le (h : Accounts F S D log w) (job : Nat) : executions log job ≤ w.limit := by
  by_cases hjob : executions log job = 0
  · exact hjob ▸ Nat.zero_le _
  · rcases h.place hjob with hlive | hover | hdead
    · exact hlive.executed ▸ hlive.bounded.le
    · exact hover.executed
    · exact (h.dead job hdead).executed.le

/-- The dead letters are the jobs that have failed as often as they may. -/
theorem mem_dead (h : Accounts F S D log w) (job : Nat) : job ∈ D ↔ failures log job = w.limit := by
  refine ⟨fun hdead => (h.dead job hdead).failed, fun hfailed => ?_⟩
  have hexecuted : executions log job ≠ 0 := by
    have hpos := limit_pos w
    have hle := failures_le log job
    omega
  rcases h.place hexecuted with hlive | hover | hdead
  · exact absurd hfailed hlive.bounded.ne
  · exact absurd hfailed hover.failed.ne
  · exact hdead

end Accounts

theorem Sound.conserved (h : Sound maxRetries hasDlqCallback P) : Conserved maxRetries hasDlqCallback P := by
  obtain ⟨own, hP⟩ := h
  obtain ⟨hmax, hcallback, S, D, haccounts⟩ := hP.inv
  have hlimit : P.store.limit = limit maxRetries := by rw [Worker.limit, hmax]
  have hrunning : ∀ task job k, P.tasks task = some (.asked (.coroutine job) k) → job ∈ own task := by
    intro task job k htask
    obtain ⟨x, k', hcarried, hmem⟩ := (htask ▸ hP.holds task).of_asked
    exact hcarried.1 ▸ hmem
  refine ⟨?_, fun job => hlimit ▸ haccounts.executions_le job, fun task job k htask => ?_,
    fun i j job k k' hi hj => ?_, fun hquiet => ?_, fun htrue job => ?_⟩
  · have hnodup := haccounts.nodup
    rw [add_assoc, add_assoc, Multiset.nodup_add] at hnodup
    exact Multiset.coe_nodup.mp hnodup.1
  · obtain ⟨F, hF, -⟩ := Custody.sum_others own task
    have hflying : job ∈ (P.store.queue : Multiset Nat) + own.sum (fun _ held => held) :=
      Multiset.mem_add.mpr (.inr (hF ▸ Multiset.mem_add.mpr (.inl (hrunning task job k htask))))
    have hlive := haccounts.live job hflying
    rw [hlive.executed, ← hlimit]
    exact hlive.bounded
  · by_contra hij
    obtain ⟨F, hF⟩ := Custody.sum_two own hij
    have hnodup := haccounts.nodup
    rw [hF, Multiset.nodup_add, Multiset.nodup_add, Multiset.nodup_add, Multiset.nodup_add] at hnodup
    have hdisjoint := hnodup.1.1.2.1.2.2
    exact Multiset.disjoint_left.mp hdisjoint (hrunning i job k hi) (Multiset.mem_add.mpr (.inl (hrunning j job k' hj)))
  · obtain ⟨-, -, S', D', hover⟩ := hP.quiet hquiet
    have hcard := congrArg Multiset.card hover.places
    simp only [Multiset.card_range, Multiset.card_add, Multiset.coe_card, Multiset.card_zero] at hcard
    rw [hover.submitted, hover.succeeded, hover.moved]
    omega
  · have hcalls := haccounts.calls
    rw [if_pos (hcallback.trans htrue)] at hcalls
    have hnodup : D.Nodup := (Multiset.nodup_add.mp haccounts.nodup).2.1
    rw [← Multiset.coe_count, hcalls, Multiset.count_eq_of_nodup hnodup, ← hlimit]
    exact if_congr (haccounts.mem_dead job) rfl rfl

theorem sound_opening (maxRetries backoffBase : Int) (hasDlqCallback : Bool) :
    Sound maxRetries hasDlqCallback (opening maxRetries backoffBase hasDlqCallback) := by
  refine ⟨0, ⟨rfl, rfl, 0, 0, ?_⟩, fun _ => .idle⟩
  refine ⟨rfl, rfl, rfl, rfl, ?_, fun job hjob => absurd hjob (Nat.not_lt_zero job), fun _ _ => rfl, fun job hjob => ?_,
    fun job hjob => absurd hjob (Multiset.notMem_zero job), fun job hjob => absurd hjob (Multiset.notMem_zero job)⟩
  · exact (ite_self _).symm
  · rw [Finsupp.sum_zero_index, add_zero] at hjob
    exact absurd hjob (Multiset.notMem_zero job)

/-- In every run of submits, overlapping passes and executions that end in any way. -/
theorem conserved_run (maxRetries backoffBase : Int) (hasDlqCallback : Bool) (es : List Event) :
    Conserved maxRetries hasDlqCallback (es.foldl step (opening maxRetries backoffBase hasDlqCallback)) :=
  (foldl_keeps (I := Sound maxRetries hasDlqCallback) (fun _ e h => h.step e) es
    (sound_opening maxRetries backoffBase hasDlqCallback)).conserved

end Utos.Scheduler.RetryWorker
