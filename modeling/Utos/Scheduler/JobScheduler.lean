import Mathlib.Algebra.Order.Ring.Rat
import Mathlib.Data.NNRat.Defs
import Mathlib.Tactic.Linarith
import Utos.Core.Exceptions
import Utos.Coroutine.Flight
import Utos.Coroutine.Trace

namespace Utos.Scheduler.Jobs

open Coroutine Program Core.Exceptions

/-- ScheduledTask; its coroutine is asked for by the number of the task. -/
structure ScheduledTask where
  name : String := ""
  taskType : String := ""
  intervalSeconds : Int := 0
  hasCoroutine : Bool := false
  lastRun : Option ℚ := none
  nextRun : Option ℚ := none
  enabled : Bool := true
  runCount : Nat := 0
  failureCount : Nat := 0

structure Metrics where
  tasksAdded : Nat := 0
  tasksRemoved : Nat := 0
  tasksExecuted : Nat := 0
  tasksFailed : Nat := 0
  deriving DecidableEq, Repr

/-- A scheduler, the time, the tasks made so far, by number, and the calls of their coroutines.
The number of a task stands for the uuid drawn for it; tasks lists the keys of _tasks. -/
structure JobScheduler where
  clock : ℚ := 0
  made : Nat := 0
  objects : Nat → ScheduledTask := fun _ => {}
  tasks : List Nat := []
  metrics : Metrics := {}
  calls : List (Nat × ℚ) := []

inductive TaskResult
  | success (taskId : Nat) (result : String)
  | failed (taskId : Nat) (error : String)
  deriving DecidableEq, Repr

/-- What is awaited: a coroutine, which returns or raises an exception with a text. -/
inductive Request
  | coroutine (taskId : Nat)

abbrev Answer : Request → Type
  | .coroutine _ => Except String String

abbrev Operation (α : Type) := Program JobScheduler Request Answer Exn α

namespace JobScheduler

variable (s : JobScheduler)

def addTask (name taskType : String) (intervalSeconds : Int) (hasCoroutine enabled : Bool) : JobScheduler :=
  { s with
    made := s.made + 1
    objects := Function.update s.objects s.made
      { name, taskType, intervalSeconds, hasCoroutine, enabled, nextRun := some (s.clock + intervalSeconds) }
    tasks := s.tasks ++ [s.made]
    metrics := { s.metrics with tasksAdded := s.metrics.tasksAdded + 1 } }

def removeTask (id : Nat) : JobScheduler :=
  if id ∈ s.tasks then
    { s with tasks := s.tasks.erase id, metrics := { s.metrics with tasksRemoved := s.metrics.tasksRemoved + 1 } }
  else s

/-- enable_task and disable_task -/
def setEnabled (id : Nat) (enabled : Bool) : JobScheduler :=
  if id ∈ s.tasks then { s with objects := Function.update s.objects id { s.objects id with enabled := enabled } } else s

/-- run_task up to the call of the coroutine. -/
def begin (id : Nat) : JobScheduler :=
  { s with
    objects := Function.update s.objects id
      { s.objects id with lastRun := some s.clock, nextRun := some (s.clock + (s.objects id).intervalSeconds) }
    calls := s.calls ++ [(id, s.clock)] }

def succeed (id : Nat) : JobScheduler :=
  { s with
    objects := Function.update s.objects id { s.objects id with runCount := (s.objects id).runCount + 1 }
    metrics := { s.metrics with tasksExecuted := s.metrics.tasksExecuted + 1 } }

def fail (id : Nat) : JobScheduler :=
  { s with
    objects := Function.update s.objects id { s.objects id with failureCount := (s.objects id).failureCount + 1 }
    metrics := { s.metrics with tasksFailed := s.metrics.tasksFailed + 1 } }

/-- t.enabled and (t.next_run is None or t.next_run <= now) -/
def due (id : Nat) (now : ℚ) : Bool :=
  (s.objects id).enabled && match (s.objects id).nextRun with
    | some nextRun => decide (nextRun ≤ now)
    | none => true

def getPendingTasks (now : ℚ) : List Nat := s.tasks.filter (fun id => s.due id now)

end JobScheduler

/-- The end of run_task. A removed task is no longer in _tasks, but its counts go on. -/
def settle (id : Nat) : Except String String → Operation (Option TaskResult)
  | .ok result => .get (fun s => .put (s.succeed id) (.ret (some (.success id result))))
  | .error error => .get (fun s => .put (s.fail id) (.ret (some (.failed id error))))

def runTask (id : Nat) : Operation (Option TaskResult) :=
  .get (fun s =>
    if id ∈ s.tasks ∧ (s.objects id).enabled ∧ (s.objects id).hasCoroutine then
      .put (s.begin id) (.call (.coroutine id) (settle id))
    else .ret none)

def runEach : List Nat → List TaskResult → Operation (List TaskResult)
  | [], results => .ret results
  | id :: rest, results => .bind (runTask id) (fun result => runEach rest (results ++ result.toList))

def runAll : Operation (List TaskResult) := .get (fun s => runEach s.tasks [])

/-- The tasks whose coroutines have returned, and those whose coroutines have raised. -/
structure History where
  succeeded : List Nat := []
  failed : List Nat := []

def ends (outcome : Except String String) : Handler History Request Answer
  | history, .coroutine id => (outcome, match outcome with
      | .ok _ => { history with succeeded := history.succeeded ++ [id] }
      | .error _ => { history with failed := history.failed ++ [id] })

abbrev Jobs := Pool JobScheduler History Request Answer Exn (List TaskResult)

/-- What changes a scheduler: its methods, the clock, and coroutines that return or raise, upon
which the call that waits for them goes on. Calls run under names of their own. -/
inductive Event
  | addTask (name taskType : String) (intervalSeconds : Int) (hasCoroutine enabled : Bool)
  | removeTask (id : Nat)
  | setEnabled (id : Nat) (enabled : Bool)
  | tick (seconds : ℚ≥0)
  | runTask (caller id : Nat)
  | runAll (caller : Nat)
  | answer (caller : Nat) (outcome : Except String String)

def step (P : Jobs) : Event → Jobs
  | .addTask name taskType intervalSeconds hasCoroutine enabled =>
      { P with store := P.store.addTask name taskType intervalSeconds hasCoroutine enabled }
  | .removeTask id => { P with store := P.store.removeTask id }
  | .setEnabled id enabled => { P with store := P.store.setEnabled id enabled }
  | .tick seconds => { P with store := { P.store with clock := P.store.clock + seconds } }
  | .runTask caller id =>
      if (P.tasks caller).isNone then P.start caller (.bind (Jobs.runTask id) (fun result => .ret result.toList)) else P
  | .runAll caller => if (P.tasks caller).isNone then P.start caller Jobs.runAll else P
  | .answer caller outcome => (P.act (ends outcome) caller).resume caller

def opening : Jobs := { store := {}, world := {} }

/-- When the coroutine of a task was last called. -/
def JobScheduler.lastCall (s : JobScheduler) (id : Nat) : Option ℚ :=
  ((s.calls.filter (fun entry => entry.1 = id)).getLast?).map Prod.snd

/-- Every call of a coroutine is in flight or was counted once, for its task and in the metrics;
every task that was added is listed or was removed. -/
structure Accounts (F : Multiset Nat) (history : History) (s : JobScheduler) : Prop where
  added : s.metrics.tasksAdded = s.metrics.tasksRemoved + s.tasks.length
  once : s.tasks.Nodup
  known : ∀ id ∈ s.tasks, id < s.made
  executed : s.metrics.tasksExecuted = history.succeeded.length
  failed : s.metrics.tasksFailed = history.failed.length
  runs : ∀ id, (s.objects id).runCount = history.succeeded.count id
  failures : ∀ id, (s.objects id).failureCount = history.failed.count id
  calls : (s.calls.map Prod.fst : Multiset Nat) = (history.succeeded : Multiset Nat) + history.failed + F
  called : ∀ entry ∈ s.calls, entry.1 < s.made ∧ entry.2 ≤ s.clock
  lastRun : ∀ id, (s.objects id).lastRun = s.lastCall id
  nextRun : ∀ id t, s.lastCall id = some t → (s.objects id).nextRun = some (t + (s.objects id).intervalSeconds)

variable {F : Multiset Nat} {history : History} {s : JobScheduler} {id : Nat}

theorem lastCall_begin (s : JobScheduler) (id other : Nat) :
    (s.begin id).lastCall other = if other = id then some s.clock else s.lastCall other := by
  simp only [JobScheduler.lastCall, JobScheduler.begin, List.filter_append]
  by_cases h : id = other
  · subst h
    simp
  · simp [h, Ne.symm h]

theorem begin_self (s : JobScheduler) (id : Nat) : (s.begin id).objects id =
    { s.objects id with lastRun := some s.clock, nextRun := some (s.clock + (s.objects id).intervalSeconds) } :=
  Function.update_self ..

theorem begin_of_ne (s : JobScheduler) {id other : Nat} (hother : other ≠ id) :
    (s.begin id).objects other = s.objects other := Function.update_of_ne hother ..

theorem lastCall_fresh (h : Accounts F history s) : s.lastCall s.made = none := by
  have hnone : s.calls.filter (fun entry => entry.1 = s.made) = [] := by
    apply List.filter_eq_nil_iff.mpr
    intro entry hentry
    simpa using (h.called entry hentry).1.ne
  rw [JobScheduler.lastCall, hnone]
  rfl

theorem update_field {β : Type} {objects : Nat → ScheduledTask} (task : ScheduledTask) (f : ScheduledTask → β)
    (hf : f task = f (objects id)) (other : Nat) : f (Function.update objects id task other) = f (objects other) := by
  by_cases hother : other = id
  · subst hother
    rw [Function.update_self, hf]
  · rw [Function.update_of_ne hother]

namespace Accounts

theorem addTask (h : Accounts F history s) (name taskType : String) (intervalSeconds : Int)
    (hasCoroutine enabled : Bool) : Accounts F history (s.addTask name taskType intervalSeconds hasCoroutine enabled) := by
  have hnew : s.made ∉ s.tasks := fun hmem => absurd (h.known _ hmem) (lt_irrefl _)
  have hcalls : s.made ∉ (s.calls.map Prod.fst : Multiset Nat) := by
    intro hmem
    obtain ⟨entry, hentry, heq⟩ := List.mem_map.mp (Multiset.mem_coe.mp hmem)
    exact absurd (h.called entry hentry).1 heq.ge.not_gt
  rw [h.calls] at hcalls
  simp only [Multiset.mem_add, Multiset.mem_coe, not_or] at hcalls
  refine ⟨?_, ?_, fun id hid => ?_, h.executed, h.failed, fun id => ?_, fun id => ?_, h.calls, fun entry hentry => ?_,
    fun id => ?_, fun id t ht => ?_⟩
  · have hadded := h.added
    simp only [JobScheduler.addTask, List.length_append, List.length_singleton]
    omega
  · exact List.nodup_append.mpr ⟨h.once, List.nodup_singleton _, fun x hx y hy heq =>
      hnew (List.mem_singleton.mp hy ▸ heq ▸ hx)⟩
  · rcases List.mem_append.mp hid with hid | hid
    · exact Nat.lt_succ_of_lt (h.known id hid)
    · exact List.mem_singleton.mp hid ▸ Nat.lt_succ_self _
  · have hzero : history.succeeded.count s.made = 0 := List.count_eq_zero.mpr hcalls.1.1
    have hold := h.runs s.made
    exact (update_field _ ScheduledTask.runCount (hzero.symm.trans hold.symm) id).trans (h.runs id)
  · have hzero : history.failed.count s.made = 0 := List.count_eq_zero.mpr hcalls.1.2
    have hold := h.failures s.made
    exact (update_field _ ScheduledTask.failureCount (hzero.symm.trans hold.symm) id).trans (h.failures id)
  · exact ⟨Nat.lt_succ_of_lt (h.called entry hentry).1, (h.called entry hentry).2⟩
  · have hnone : none = (s.objects s.made).lastRun := ((h.lastRun s.made).trans (lastCall_fresh h)).symm
    exact (update_field _ ScheduledTask.lastRun hnone id).trans (h.lastRun id)
  · have hne : id ≠ s.made := by
      rintro rfl
      cases (lastCall_fresh h).symm.trans ht
    have hsame : (s.addTask name taskType intervalSeconds hasCoroutine enabled).objects id = s.objects id :=
      Function.update_of_ne hne _ _
    rw [hsame]
    exact h.nextRun id t ht

theorem removeTask (h : Accounts F history s) (id : Nat) : Accounts F history (s.removeTask id) := by
  unfold JobScheduler.removeTask
  split
  next hid =>
    refine ⟨?_, h.once.erase id, fun other hother => h.known other (List.mem_of_mem_erase hother), h.executed, h.failed,
      h.runs, h.failures, h.calls, h.called, h.lastRun, h.nextRun⟩
    have hadded := h.added
    have hlength := List.length_erase_add_one hid
    dsimp only
    omega
  next => exact h

theorem setEnabled (h : Accounts F history s) (id : Nat) (enabled : Bool) :
    Accounts F history (s.setEnabled id enabled) := by
  unfold JobScheduler.setEnabled
  split
  · have hfield {β : Type} (f : ScheduledTask → β) := @update_field id _ s.objects
      { s.objects id with enabled := enabled } f
    refine ⟨h.added, h.once, h.known, h.executed, h.failed, fun other => ?_, fun other => ?_, h.calls, h.called,
      fun other => ?_, fun other t ht => ?_⟩
    · exact (hfield ScheduledTask.runCount rfl other).trans (h.runs other)
    · exact (hfield ScheduledTask.failureCount rfl other).trans (h.failures other)
    · exact (hfield ScheduledTask.lastRun rfl other).trans (h.lastRun other)
    · rw [hfield ScheduledTask.nextRun rfl other, hfield ScheduledTask.intervalSeconds rfl other]
      exact h.nextRun other t ht
  · exact h

theorem tick (h : Accounts F history s) (seconds : ℚ≥0) :
    Accounts F history { s with clock := s.clock + seconds } := by
  refine ⟨h.added, h.once, h.known, h.executed, h.failed, h.runs, h.failures, h.calls, fun entry hentry => ?_,
    h.lastRun, h.nextRun⟩
  exact ⟨(h.called entry hentry).1, (h.called entry hentry).2.trans (le_add_of_nonneg_right seconds.2)⟩

theorem begin (h : Accounts F history s) (hid : id < s.made) : Accounts (id ::ₘ F) history (s.begin id) := by
  have hfield {β : Type} (f : ScheduledTask → β) := @update_field id _ s.objects
    { s.objects id with lastRun := some s.clock, nextRun := some (s.clock + (s.objects id).intervalSeconds) } f
  refine ⟨h.added, h.once, h.known, h.executed, h.failed, fun other => ?_, fun other => ?_, ?_, fun entry hentry => ?_,
    fun other => ?_, fun other t ht => ?_⟩
  · exact (hfield ScheduledTask.runCount rfl other).trans (h.runs other)
  · exact (hfield ScheduledTask.failureCount rfl other).trans (h.failures other)
  · rw [JobScheduler.begin, List.map_append, ← Multiset.coe_add, h.calls, Multiset.add_cons, add_comm]
    rfl
  · rcases List.mem_append.mp hentry with hentry | hentry
    · exact h.called entry hentry
    · rw [List.mem_singleton.mp hentry]
      exact ⟨hid, le_rfl⟩
  · rw [lastCall_begin]
    by_cases hother : other = id
    · rw [if_pos hother, hother, begin_self]
    · rw [if_neg hother, begin_of_ne s hother]
      exact h.lastRun other
  · rw [lastCall_begin] at ht
    by_cases hother : other = id
    · rw [if_pos hother] at ht
      cases ht
      rw [hother, begin_self]
    · rw [if_neg hother] at ht
      rw [begin_of_ne s hother]
      exact h.nextRun other t ht

/-- A coroutine has ended: one more run or one more failure of its task. -/
theorem settled (h : Accounts (id ::ₘ F) history s) {history' : History} {s' : JobScheduler} {task : ScheduledTask}
    (hs' : s' = { s with objects := Function.update s.objects id task, metrics := s'.metrics })
    (hkept : task.lastRun = (s.objects id).lastRun ∧ task.nextRun = (s.objects id).nextRun ∧
      task.intervalSeconds = (s.objects id).intervalSeconds)
    (hadded : s'.metrics.tasksAdded = s.metrics.tasksAdded ∧ s'.metrics.tasksRemoved = s.metrics.tasksRemoved)
    (hexecuted : s'.metrics.tasksExecuted = history'.succeeded.length)
    (hfailed : s'.metrics.tasksFailed = history'.failed.length)
    (hcalls : (history'.succeeded : Multiset Nat) + history'.failed = id ::ₘ (history.succeeded + history.failed))
    (hruns : ∀ other, (s'.objects other).runCount = history'.succeeded.count other)
    (hfailures : ∀ other, (s'.objects other).failureCount = history'.failed.count other) :
    Accounts F history' s' := by
  have hobjects : s'.objects = Function.update s.objects id task := by rw [hs']
  have hlast : ∀ other, s'.lastCall other = s.lastCall other := by
    intro other
    rw [JobScheduler.lastCall, JobScheduler.lastCall, hs']
  refine ⟨?_, by rw [hs']; exact h.once, by rw [hs']; exact h.known, hexecuted, hfailed, hruns, hfailures, ?_,
    by rw [hs']; exact h.called, fun other => ?_, fun other t ht => ?_⟩
  · rw [hadded.1, hadded.2, h.added, hs']
  · have hold := h.calls
    rw [hcalls, hs', hold, Multiset.add_cons, Multiset.cons_add]
  · rw [hlast, hobjects, update_field _ ScheduledTask.lastRun hkept.1]
    exact h.lastRun other
  · rw [hlast] at ht
    rw [hobjects, update_field _ ScheduledTask.nextRun hkept.2.1, update_field _ ScheduledTask.intervalSeconds hkept.2.2]
    exact h.nextRun other t ht

theorem count_update {history : List Nat} {f : ScheduledTask → Nat} {task : ScheduledTask}
    (hf : f task = f (s.objects id) + 1) (h : ∀ other, f (s.objects other) = history.count other) (other : Nat) :
    f (Function.update s.objects id task other) = (history ++ [id]).count other := by
  rw [List.count_append]
  by_cases hother : other = id
  · subst hother
    rw [Function.update_self, hf, h other, List.count_singleton_self]
  · rw [Function.update_of_ne hother, h other, List.count_singleton, if_neg (by simpa using Ne.symm hother), add_zero]

theorem succeed (h : Accounts (id ::ₘ F) history s) :
    Accounts F { history with succeeded := history.succeeded ++ [id] } (s.succeed id) := by
  refine h.settled rfl ⟨rfl, rfl, rfl⟩ ⟨rfl, rfl⟩ ?_ h.failed ?_ (fun other => ?_) (fun other => ?_)
  · simp only [JobScheduler.succeed, List.length_append, List.length_singleton, h.executed]
  · rw [← Multiset.coe_add, Multiset.coe_singleton, add_right_comm, add_comm, Multiset.singleton_add]
  · exact count_update rfl h.runs other
  · refine Eq.trans (update_field _ ScheduledTask.failureCount ?_ other) (h.failures other)
    rfl

theorem fail (h : Accounts (id ::ₘ F) history s) :
    Accounts F { history with failed := history.failed ++ [id] } (s.fail id) := by
  refine h.settled rfl ⟨rfl, rfl, rfl⟩ ⟨rfl, rfl⟩ h.executed ?_ ?_ (fun other => ?_) (fun other => ?_)
  · simp only [JobScheduler.fail, List.length_append, List.length_singleton, h.failed]
  · rw [← Multiset.coe_add, Multiset.coe_singleton, ← add_assoc, add_comm, Multiset.singleton_add]
  · refine Eq.trans (update_field _ ScheduledTask.runCount ?_ other) (h.runs other)
    rfl
  · exact count_update rfl h.failures other

end Accounts

def holds : Request → Multiset Nat → Prop
  | .coroutine id, held => held = {id}

def flight : Flight JobScheduler History Request Answer (Multiset Nat) Exn (List TaskResult) where
  holds := holds
  inv := Accounts
  answers h := ∃ outcome, h = ends outcome

theorem balances_runTask (id : Nat) : Balances flight (Jobs.runTask id) := by
  intro F history s haccounts
  unfold Jobs.runTask
  simp only [Lands]
  split
  next hready =>
    refine ⟨_, rfl, haccounts.begin (haccounts.known id hready.1), ?_⟩
    rintro h ⟨outcome, rfl⟩ F' history' s' haccounts'
    cases outcome with
    | ok result => exact Accounts.succeed haccounts'
    | error error => exact Accounts.fail haccounts'
  next => exact haccounts

theorem balances_runEach (ids : List Nat) (results : List TaskResult) : Balances flight (runEach ids results) := by
  induction ids generalizing results with
  | nil => exact balances_ret results
  | cons id rest ih => exact balances_bind (balances_runTask id) (fun result => ih _)

theorem balanced_step {P : Jobs} (h : ∃ own, Balanced flight own P) (e : Event) : ∃ own, Balanced flight own (step P e) := by
  obtain ⟨own, hP⟩ := h
  cases e with
  | addTask name taskType intervalSeconds hasCoroutine enabled => exact ⟨own, hP.store (fun _ h => h.addTask ..)⟩
  | removeTask id => exact ⟨own, hP.store (fun _ h => h.removeTask id)⟩
  | setEnabled id enabled => exact ⟨own, hP.store (fun _ h => h.setEnabled id enabled)⟩
  | tick seconds => exact ⟨own, hP.store (fun _ h => h.tick seconds)⟩
  | runTask caller id =>
      simp only [step, Option.isNone_iff_eq_none]
      split
      next hfresh =>
        exact hP.start_balances hfresh (fun _ => trivial) (balances_bind (balances_runTask id) (fun result => balances_ret _))
      next => exact ⟨own, hP⟩
  | runAll caller =>
      simp only [step, Option.isNone_iff_eq_none]
      split
      next hfresh => exact hP.start_balances hfresh (fun _ => trivial) (fun F _ s => balances_runEach s.tasks [] F _ s)
      next => exact ⟨own, hP⟩
  | answer caller outcome => exact hP.answer ⟨outcome, rfl⟩

/-- In every run, with any calls of run_task and run_all overlapping, tasks removed, enabled and
disabled while their coroutines run, and coroutines that return or raise. -/
theorem accounted_run (es : List Event) : ∃ F, (es.foldl step opening).InFlight holds F ∧
    Accounts F (es.foldl step opening).world (es.foldl step opening).store := by
  have hopening : ∃ own, Balanced flight own opening := by
    refine ⟨0, Balanced.idle ⟨rfl, List.nodup_nil, ?_, rfl, rfl, fun _ => rfl, fun _ => rfl, rfl, ?_, fun _ => rfl, ?_⟩⟩
    · exact fun id hid => absurd hid List.not_mem_nil
    · exact fun entry hentry => absurd hentry List.not_mem_nil
    · exact fun id t ht => (by cases ht)
  obtain ⟨own, hP⟩ := foldl_keeps (I := fun P : Jobs => ∃ own, Balanced flight own P) (fun P e h => balanced_step h e) es hopening
  exact hP.inFlight

end Utos.Scheduler.Jobs

namespace Utos.Scheduler.Jobs

open Coroutine Program Core.Exceptions

/-- Times that come a span apart, and within a window, are few. -/
theorem length_mul_le_of_pairwise {d x y : ℚ} {times : List ℚ} (hspaced : times.Pairwise (fun a b => a + d ≤ b))
    (hwindow : ∀ t ∈ times, x ≤ t ∧ t ≤ y) (hxy : x ≤ y + d) : times.length * d ≤ y - x + d := by
  induction times generalizing x with
  | nil =>
      rw [List.length_nil, Nat.cast_zero, zero_mul]
      linarith
  | cons a rest ih =>
      obtain ⟨hfirst, hrest⟩ := List.pairwise_cons.mp hspaced
      obtain ⟨hxa, hay⟩ := hwindow a List.mem_cons_self
      have hle := ih (x := a + d) hrest
        (fun t ht => ⟨hfirst t ht, (hwindow t (List.mem_cons_of_mem a ht)).2⟩) (by linarith)
      rw [List.length_cons, Nat.cast_succ]
      linarith

/-- run_task is called for tasks that get_pending_tasks lists at the time, and run_all is not called. -/
def Punctual (P : Jobs) : Event → Prop
  | .runTask caller id => P.tasks caller = none → id ∈ P.store.getPendingTasks P.store.clock
  | .runAll _ => False
  | _ => True

/-- When the coroutine of a task was called. -/
def JobScheduler.callsOf (s : JobScheduler) (id : Nat) : List ℚ :=
  (s.calls.filter (fun entry => entry.1 = id)).map Prod.snd

def JobScheduler.interval (s : JobScheduler) (id : Nat) : ℚ := (s.objects id).intervalSeconds

/-- The calls came one after the other, those of each task by its interval apart. -/
structure Spaced (s : JobScheduler) : Prop where
  sorted : s.calls.Pairwise (fun a b => a.2 ≤ b.2)
  apart : ∀ id, (s.callsOf id).Pairwise (fun a b => a + s.interval id ≤ b)

variable {F : Multiset Nat} {history : History} {s s' : JobScheduler} {id : Nat}

theorem Spaced.of_eq (h : Spaced s) (hcalls : s'.calls = s.calls)
    (hinterval : ∀ id, s.callsOf id ≠ [] → s'.interval id = s.interval id) : Spaced s' := by
  refine ⟨hcalls ▸ h.sorted, fun id => ?_⟩
  have hsame : s'.callsOf id = s.callsOf id := by rw [JobScheduler.callsOf, hcalls, JobScheduler.callsOf]
  by_cases hnone : s.callsOf id = []
  · rw [hsame, hnone]
    exact List.Pairwise.nil
  · rw [hsame, hinterval id hnone]
    exact h.apart id

theorem mem_callsOf {t : ℚ} : t ∈ s.callsOf id ↔ (id, t) ∈ s.calls := by
  simp [JobScheduler.callsOf]

theorem callsOf_begin (s : JobScheduler) (id other : Nat) :
    (s.begin id).callsOf other = if other = id then s.callsOf other ++ [s.clock] else s.callsOf other := by
  simp only [JobScheduler.callsOf, JobScheduler.begin, List.filter_append, List.map_append]
  by_cases h : id = other
  · subst h
    simp
  · simp [h, Ne.symm h]

theorem lastCall_eq (s : JobScheduler) (id : Nat) : s.lastCall id = (s.callsOf id).getLast? := by
  rw [JobScheduler.lastCall, JobScheduler.callsOf, List.getLast?_map]

/-- No change of a task changes its interval. -/
theorem interval_update {task : ScheduledTask} (hs' : s'.objects = Function.update s.objects id task)
    (hsame : task.intervalSeconds = (s.objects id).intervalSeconds) (other : Nat) : s'.interval other = s.interval other := by
  rw [JobScheduler.interval, hs', update_field task ScheduledTask.intervalSeconds hsame, JobScheduler.interval]

theorem interval_begin (s : JobScheduler) (id : Nat) : ∀ other, (s.begin id).interval other = s.interval other :=
  interval_update rfl rfl

theorem interval_succeed (s : JobScheduler) (id : Nat) : ∀ other, (s.succeed id).interval other = s.interval other :=
  interval_update rfl rfl

theorem interval_fail (s : JobScheduler) (id : Nat) : ∀ other, (s.fail id).interval other = s.interval other :=
  interval_update rfl rfl

theorem interval_setEnabled (s : JobScheduler) (id : Nat) (enabled : Bool) :
    ∀ other, (s.setEnabled id enabled).interval other = s.interval other := by
  unfold JobScheduler.setEnabled
  split
  · exact interval_update rfl rfl
  · exact fun _ => rfl

/-- The last call of a task that is due is its interval ago, and so are the others. -/
theorem Spaced.begin (h : Spaced s) (haccounts : Accounts F history s) (hdue : s.due id s.clock = true) :
    Spaced (s.begin id) := by
  refine ⟨?_, fun other => ?_⟩
  · refine List.pairwise_append.mpr ⟨h.sorted, List.pairwise_singleton _ _, fun a ha b hb => ?_⟩
    rw [List.mem_singleton.mp hb]
    exact (haccounts.called a ha).2
  · rw [callsOf_begin, interval_begin]
    by_cases hother : other = id
    · subst hother
      rw [if_pos rfl]
      refine List.pairwise_append.mpr ⟨h.apart other, List.pairwise_singleton _ _, fun a ha b hb => ?_⟩
      rw [List.mem_singleton.mp hb]
      have hne : s.callsOf other ≠ [] := List.ne_nil_of_mem ha
      have hlast : s.lastCall other = some ((s.callsOf other).getLast hne) := by
        rw [lastCall_eq, List.getLast?_eq_some_getLast hne]
      have hnext := haccounts.nextRun other _ hlast
      rw [JobScheduler.due, hnext, Bool.and_eq_true, decide_eq_true_iff] at hdue
      have hsorted : (s.callsOf other).Pairwise (· ≤ ·) :=
        List.pairwise_map.mpr (h.sorted.sublist List.filter_sublist)
      have hle : a ≤ (s.callsOf other).getLast hne := by
        rcases List.mem_iff_getElem.mp ha with ⟨i, hi, rfl⟩
        rw [List.getLast_eq_getElem]
        exact hsorted.rel_get_of_le (by simp; omega)
      rw [JobScheduler.interval]
      linarith [hdue.2]
    · rw [if_neg hother]
      exact h.apart other

def punctualFlight : Flight JobScheduler History Request Answer (Multiset Nat) Exn (List TaskResult) where
  holds := holds
  inv F history s := Accounts F history s ∧ Spaced s
  answers h := ∃ outcome, h = ends outcome

/-- A call of run_task for a task that is due. -/
theorem lands_runTask (hinv : punctualFlight.inv F history s) (hdue : s.due id s.clock = true) :
    Lands punctualFlight (.bind (Jobs.runTask id) (fun result => .ret result.toList)) punctualFlight.Ended
      F history s := by
  obtain ⟨haccounts, hspaced⟩ := hinv
  refine lands_bind ?_
  unfold Jobs.runTask
  simp only [Lands]
  split
  next hready =>
    refine ⟨_, rfl, ⟨haccounts.begin (haccounts.known id hready.1), hspaced.begin haccounts hdue⟩, ?_⟩
    rintro h ⟨outcome, rfl⟩ F' history' s' ⟨haccounts', hspaced'⟩
    cases outcome with
    | ok result => exact ⟨trivial, Accounts.succeed haccounts', hspaced'.of_eq rfl (fun other _ => interval_succeed s' id other)⟩
    | error error => exact ⟨trivial, Accounts.fail haccounts', hspaced'.of_eq rfl (fun other _ => interval_fail s' id other)⟩
  next => exact ⟨trivial, haccounts, hspaced⟩

theorem spaced_step {P : Jobs} {e : Event} (h : ∃ own, Balanced punctualFlight own P) (hpunctual : Punctual P e) :
    ∃ own, Balanced punctualFlight own (step P e) := by
  obtain ⟨own, hP⟩ := h
  cases e with
  | addTask name taskType intervalSeconds hasCoroutine enabled =>
      refine ⟨own, hP.store (fun F h => ⟨h.1.addTask .., h.2.of_eq rfl (fun id hcalls => ?_)⟩)⟩
      obtain ⟨t, ht⟩ := List.exists_mem_of_ne_nil _ hcalls
      have hne : id ≠ P.store.made := (h.1.called _ (mem_callsOf.mp ht)).1.ne
      exact congrArg (fun task : ScheduledTask => (task.intervalSeconds : ℚ)) (Function.update_of_ne hne _ _)
  | removeTask id =>
      refine ⟨own, hP.store (fun F h => ⟨h.1.removeTask id, h.2.of_eq ?_ (fun other _ => ?_)⟩)⟩
      · unfold JobScheduler.removeTask
        split <;> rfl
      · unfold JobScheduler.removeTask
        split <;> rfl
  | setEnabled id enabled =>
      refine ⟨own, hP.store (fun F h => ⟨h.1.setEnabled id enabled, h.2.of_eq ?_ (fun other _ => ?_)⟩)⟩
      · unfold JobScheduler.setEnabled
        split <;> rfl
      · exact interval_setEnabled P.store id enabled other
  | tick seconds => exact ⟨own, hP.store (fun F h => ⟨h.1.tick seconds, h.2.of_eq rfl (fun _ _ => rfl)⟩)⟩
  | runTask caller id =>
      simp only [step, Option.isNone_iff_eq_none]
      split
      next hfresh =>
        have hdue := (List.mem_filter.mp (hpunctual hfresh)).2
        exact hP.start hfresh (fun F hinv => lands_runTask hinv hdue)
      next => exact ⟨own, hP⟩
  | runAll caller => exact hpunctual.elim
  | answer caller outcome => exact hP.answer ⟨outcome, rfl⟩

/-- A driver that runs what is pending calls the coroutine of a task with a positive interval no more
often in a window of any length than the interval fits into it, and once more. -/
theorem callsOf_window_le {es : List Event} (hes : AllMeet step Punctual opening es) (id : Nat) {x y : ℚ} (hxy : x ≤ y)
    (hpositive : 0 < (es.foldl step opening).store.interval id) :
    (((es.foldl step opening).store.callsOf id).filter (fun t => x ≤ t ∧ t ≤ y)).length ≤
      (y - x) / (es.foldl step opening).store.interval id + 1 := by
  have hopening : ∃ own, Balanced punctualFlight own opening := by
    refine ⟨0, Balanced.idle ⟨⟨rfl, List.nodup_nil, ?_, rfl, rfl, fun _ => rfl, fun _ => rfl, rfl, ?_, fun _ => rfl, ?_⟩,
      List.Pairwise.nil, fun _ => List.Pairwise.nil⟩⟩
    · exact fun id hid => absurd hid List.not_mem_nil
    · exact fun entry hentry => absurd hentry List.not_mem_nil
    · exact fun id t ht => (by cases ht)
  obtain ⟨own, hP⟩ := foldl_of_allMeet (I := fun P : Jobs => ∃ own, Balanced punctualFlight own P)
    (fun P e h he => spaced_step h he) hopening hes
  have hspaced := (hP.inv.2.apart id).sublist
    (List.filter_sublist (p := fun t => decide (x ≤ t ∧ t ≤ y)))
  have hlength := length_mul_le_of_pairwise hspaced (fun t ht => of_decide_eq_true (List.mem_filter.mp ht).2)
    (by linarith)
  rw [← sub_le_iff_le_add, le_div_iff₀ hpositive]
  linarith

/-- A task that syncs every thirty seconds. -/
def synced : List Event :=
  [.addTask "sync" "sync" 30 true true, .tick 30, .runTask 0 0, .answer 0 (.ok "synced"), .tick 30, .runTask 1 0]

theorem callsOf_window_le_synced :
    (((synced.foldl step opening).store.callsOf 0).filter (fun t => (0 : ℚ) ≤ t ∧ t ≤ 60)).length ≤
      (60 - 0) / (synced.foldl step opening).store.interval 0 + 1 := by
  refine callsOf_window_le ?_ 0 (by norm_num) ?_
  · refine ⟨trivial, trivial, fun _ => ?_, trivial, trivial, fun _ => ?_, trivial⟩
    · exact List.mem_filter.mpr ⟨List.mem_singleton_self 0, by decide +kernel⟩
    · exact List.mem_filter.mpr ⟨List.mem_singleton_self 0, by decide +kernel⟩
  · decide +kernel

end Utos.Scheduler.Jobs
