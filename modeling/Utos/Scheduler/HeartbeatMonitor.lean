import Mathlib.Data.Rat.Defs
import Utos.Core.Dict
import Utos.Core.Exceptions
import Utos.Coroutine.Flight
import Utos.Coroutine.Trace

namespace Utos.Scheduler.Heartbeat

open Core Coroutine Program Core.Exceptions

structure HealthCheckResult where
  component : String
  healthy : Bool
  lastCheck : ℚ
  error : Option String := none
  deriving DecidableEq, Repr

/-- An object that a check function returns in a tuple: bool(x), and str(x) unless it is None. -/
structure Item where
  truthy : Bool
  text : Option String
  deriving DecidableEq, Repr

/-- What a check function returns. -/
inductive CheckValue
  | value (truthy : Bool)
  | tuple (items : List Item)
  deriving DecidableEq, Repr

structure Metrics where
  checksRegistered : Nat := 0
  checksRun : Nat := 0
  checksHealthy : Nat := 0
  checksUnhealthy : Nat := 0
  deriving DecidableEq, Repr

/-- A monitor and the time; a check function is known by a number. -/
structure HeartbeatMonitor where
  clock : ℚ := 0
  checks : Dict String Nat := ∅
  results : Dict String HealthCheckResult := ∅
  metrics : Metrics := {}

/-- What is awaited: a check function, which returns or raises an exception with a text. -/
inductive Request
  | checkFn (checkFn : Nat) (component : String)

abbrev Answer : Request → Type
  | .checkFn .. => Except String CheckValue

abbrev Operation (α : Type) := Program HeartbeatMonitor Request Answer Exn α

/-- Whether the component is healthy, and the error; result[0] of an empty tuple raises. -/
def judge : Except String CheckValue → Bool × Option String
  | .ok (.value truthy) => (truthy, none)
  | .ok (.tuple []) => (false, some "tuple index out of range")
  | .ok (.tuple [first]) => (first.truthy, none)
  | .ok (.tuple (first :: second :: _)) => (first.truthy, second.text)
  | .error error => (false, some error)

namespace HeartbeatMonitor

variable (m : HeartbeatMonitor)

def register (component : String) (checkFn : Nat) : HeartbeatMonitor :=
  { m with checks := m.checks.set component checkFn
           metrics := { m.metrics with checksRegistered := m.metrics.checksRegistered + 1 } }

def unregister (component : String) : HeartbeatMonitor :=
  match m.checks.get component with
  | none => m
  | some _ => { m with checks := m.checks.pop component, results := m.results.pop component }

def record (result : HealthCheckResult) : HeartbeatMonitor :=
  { m with
    results := m.results.set result.component result
    metrics := if result.healthy then { m.metrics with checksHealthy := m.metrics.checksHealthy + 1 }
      else { m.metrics with checksUnhealthy := m.metrics.checksUnhealthy + 1 } }

def getUnhealthy : List HealthCheckResult := (m.results.entries.map Prod.snd).filter (fun r => !r.healthy)

def getHealthy : List HealthCheckResult := (m.results.entries.map Prod.snd).filter (fun r => r.healthy)

def getResult (component : String) : Option HealthCheckResult := m.results.get component

end HeartbeatMonitor

/-- The end of check, which waited for the function without looking whether it is still registered. -/
def settle (component : String) (outcome : Except String CheckValue) : Operation HealthCheckResult :=
  .get (fun m =>
    let result : HealthCheckResult := ⟨component, (judge outcome).1, m.clock, (judge outcome).2⟩
    .put (m.record result) (.ret result))

def check (component : String) : Operation HealthCheckResult :=
  .get (fun m => match m.checks.get component with
    | none => .ret ⟨component, false, m.clock, some "Component not registered"⟩
    | some checkFn =>
        .put { m with metrics := { m.metrics with checksRun := m.metrics.checksRun + 1 } }
          (.call (.checkFn checkFn component) (settle component)))

def checkAll : Operation (List HealthCheckResult) :=
  .get (fun m => settleAll check (m.checks.entries.map Prod.fst) [])

/-- What has been seen of a component: a check that ended, or that it was unregistered; the last comes first. -/
inductive Entry
  | ended (component : String) (outcome : Except String CheckValue)
  | unregistered (component : String)

abbrev History := List Entry

def ends (outcome : Except String CheckValue) : Handler History Request Answer
  | history, .checkFn _ component => (outcome, .ended component outcome :: history)

abbrev Monitors := Pool HeartbeatMonitor History Request Answer Exn (List HealthCheckResult)

inductive Event
  | register (component : String) (checkFn : Nat)
  | unregister (component : String)
  | tick (now : ℚ)
  | check (caller : Nat) (component : String)
  | checkAll (caller : Nat)
  | answer (caller : Nat) (outcome : Except String CheckValue)

def step (P : Monitors) : Event → Monitors
  | .register component checkFn => { P with store := P.store.register component checkFn }
  | .unregister component =>
      { P with store := P.store.unregister component
               world := if (P.store.checks.get component).isSome then .unregistered component :: P.world else P.world }
  | .tick now => { P with store := { P.store with clock := now } }
  | .check caller component =>
      if (P.tasks caller).isNone then P.start caller (.bind (Heartbeat.check component) (fun result => .ret [result])) else P
  | .checkAll caller => if (P.tasks caller).isNone then P.start caller Heartbeat.checkAll else P
  | .answer caller outcome => (P.act (ends outcome) caller).resume caller

def opening : Monitors := { store := {}, world := [] }

/-- What the last check of a component has returned since it was last unregistered. -/
def latest (component : String) : History → Option (Except String CheckValue)
  | [] => none
  | .ended other outcome :: earlier => if other = component then some outcome else latest component earlier
  | .unregistered other :: earlier => if other = component then none else latest component earlier

variable {F : Multiset String} {history : History} {m : HeartbeatMonitor} {component : String}

/-- Every check that was begun is in flight or was counted once, and the results are those of the
last checks. -/
structure Accounts (F : Multiset String) (history : History) (m : HeartbeatMonitor) : Prop where
  run : m.metrics.checksRun = m.metrics.checksHealthy + m.metrics.checksUnhealthy + F.card
  results : ∀ component, (m.getResult component).map (fun r => (r.healthy, r.error)) = (latest component history).map judge
  named : ∀ component r, m.getResult component = some r → r.component = component

namespace Accounts

theorem unregister (h : Accounts F history m) (component : String) : Accounts F
    (if (m.checks.get component).isSome then .unregistered component :: history else history) (m.unregister component) := by
  unfold HeartbeatMonitor.unregister
  cases hcheck : m.checks.get component with
  | none => exact h
  | some checkFn =>
      refine ⟨h.run, fun other => ?_, fun other r hr => ?_⟩
      · rw [Option.isSome_some, if_pos rfl, latest, HeartbeatMonitor.getResult, Dict.get_pop]
        by_cases hother : other = component
        · rw [if_pos hother, if_pos hother.symm, Option.map_none, Option.map_none]
        · rw [if_neg hother, if_neg (Ne.symm hother)]
          exact h.results other
      · rw [HeartbeatMonitor.getResult, Dict.get_pop] at hr
        by_cases hother : other = component
        · rw [if_pos hother] at hr
          cases hr
        · rw [if_neg hother] at hr
          exact h.named other r hr

theorem record (h : Accounts (component ::ₘ F) history m) (outcome : Except String CheckValue) :
    Accounts F (.ended component outcome :: history)
      (m.record ⟨component, (judge outcome).1, m.clock, (judge outcome).2⟩) := by
  refine ⟨?_, fun other => ?_, fun other r hr => ?_⟩
  · have hrun := h.run
    rw [Multiset.card_cons] at hrun
    simp only [HeartbeatMonitor.record]
    split <;> dsimp only <;> omega
  · rw [latest, HeartbeatMonitor.getResult, HeartbeatMonitor.record, Dict.get_set]
    by_cases hother : other = component
    · rw [if_pos hother, if_pos hother.symm, Option.map_some, Option.map_some]
    · rw [if_neg hother, if_neg (Ne.symm hother)]
      exact h.results other
  · rw [HeartbeatMonitor.getResult, HeartbeatMonitor.record, Dict.get_set] at hr
    by_cases hother : other = component
    · rw [if_pos hother] at hr
      cases hr
      exact hother.symm
    · rw [if_neg hother] at hr
      exact h.named other r hr

end Accounts

def holds : Request → Multiset String → Prop
  | .checkFn _ component, held => held = {component}

/-- Checks that keep an account of what is in flight. -/
def flight (inv : Multiset String → History → HeartbeatMonitor → Prop) :
    Flight HeartbeatMonitor History Request Answer (Multiset String) Exn (List HealthCheckResult) where
  holds := holds
  inv := inv
  answers h := ∃ outcome, h = ends outcome

/-- What the begin and the end of a check keep, all checks do. -/
theorem balances_check {inv : Multiset String → History → HeartbeatMonitor → Prop}
    (hbegin : ∀ component checkFn F history m, m.checks.get component = some checkFn → inv F history m →
      inv (component ::ₘ F) history { m with metrics := { m.metrics with checksRun := m.metrics.checksRun + 1 } })
    (hend : ∀ component outcome F history m, inv (component ::ₘ F) history m → inv F (.ended component outcome :: history)
      (m.record ⟨component, (judge outcome).1, m.clock, (judge outcome).2⟩)) (component : String) :
    Balances (flight inv) (Heartbeat.check component) := by
  intro F history m hinv
  unfold Heartbeat.check
  simp only [Lands]
  cases hcheck : m.checks.get component with
  | none => exact hinv
  | some checkFn =>
      refine ⟨_, rfl, hbegin component checkFn F history m hcheck hinv, ?_⟩
      rintro h ⟨outcome, rfl⟩ F' history' m' hinv'
      exact hend component outcome F' history' m' hinv'

theorem balances_accounts (component : String) : Balances (flight Accounts) (Heartbeat.check component) := by
  refine balances_check (fun component checkFn F history m _ h => ?_) (fun component outcome F history m h => h.record outcome)
    component
  refine ⟨?_, h.results, h.named⟩
  rw [h.run, Multiset.card_cons, add_assoc]

theorem balanced_step {P : Monitors} (h : ∃ own, Balanced (flight Accounts) own P) (e : Event) :
    ∃ own, Balanced (flight Accounts) own (step P e) := by
  obtain ⟨own, hP⟩ := h
  cases e with
  | register component checkFn => exact ⟨own, hP.store (fun F h => ⟨h.run, h.results, h.named⟩)⟩
  | unregister component => exact ⟨own, hP.store (fun F h => h.unregister component)⟩
  | tick now => exact ⟨own, hP.store (fun F h => ⟨h.run, h.results, h.named⟩)⟩
  | check caller component =>
      simp only [step, Option.isNone_iff_eq_none]
      split
      next hfresh =>
        exact hP.start_balances hfresh (fun _ => trivial) (balances_bind (balances_accounts component) (fun r => balances_ret _))
      next => exact ⟨own, hP⟩
  | checkAll caller =>
      simp only [step, Option.isNone_iff_eq_none]
      split
      next hfresh => exact hP.start_balances hfresh (fun _ => trivial) (fun F _ m => balances_settleAll balances_accounts _ [] F _ m)
      next => exact ⟨own, hP⟩
  | answer caller outcome => exact hP.answer ⟨outcome, rfl⟩

theorem balanced_run (es : List Event) : ∃ own, Balanced (flight Accounts) own (es.foldl step opening) := by
  refine foldl_keeps (I := fun P : Monitors => ∃ own, Balanced (flight Accounts) own P) (fun P e h => balanced_step h e) es ?_
  exact ⟨0, Balanced.idle ⟨rfl, fun _ => rfl, fun _ _ hr => (by cases hr)⟩⟩

/-- The checks are counted, and the healthy and the unhealthy components are those whose last check,
since they were last unregistered, found them so. -/
structure Reported (F : Multiset String) (history : History) (m : HeartbeatMonitor) : Prop where
  run : m.metrics.checksRun = m.metrics.checksHealthy + m.metrics.checksUnhealthy + F.card
  healthy : ∀ component, component ∈ m.getHealthy.map HealthCheckResult.component ↔
    ∃ outcome, latest component history = some outcome ∧ (judge outcome).1 = true
  unhealthy : ∀ component, component ∈ m.getUnhealthy.map HealthCheckResult.component ↔
    ∃ outcome, latest component history = some outcome ∧ (judge outcome).1 = false
  once : ((m.getHealthy ++ m.getUnhealthy).map HealthCheckResult.component).Nodup

namespace Accounts

theorem mem_results (h : Accounts F history m) (found : Bool) (component : String) :
    component ∈ ((m.results.entries.map Prod.snd).filter (fun r => r.healthy == found)).map HealthCheckResult.component ↔
      ∃ outcome, latest component history = some outcome ∧ (judge outcome).1 = found := by
  have hresults := h.results component
  constructor
  · intro hmem
    obtain ⟨r, hr, rfl⟩ := List.mem_map.mp hmem
    obtain ⟨hr, hfound⟩ := List.mem_filter.mp hr
    obtain ⟨entry, hentry, rfl⟩ := List.mem_map.mp hr
    have hget : m.getResult entry.1 = some entry.2 := Dict.get_of_mem hentry
    rw [h.named _ _ hget, hget] at hresults
    cases hlatest : latest entry.1 history with
    | none =>
        rw [hlatest] at hresults
        cases hresults
    | some outcome =>
        rw [hlatest, Option.map_some, Option.map_some, Option.some.injEq] at hresults
        refine ⟨outcome, h.named _ _ hget ▸ hlatest, ?_⟩
        rw [← hresults]
        exact beq_iff_eq.mp hfound
  · rintro ⟨outcome, hlatest, hfound⟩
    rw [hlatest, Option.map_some] at hresults
    obtain ⟨r, hget, hjudge⟩ := Option.map_eq_some_iff.mp hresults
    refine List.mem_map.mpr ⟨r, List.mem_filter.mpr ⟨?_, ?_⟩, h.named _ _ hget⟩
    · exact List.mem_map_of_mem (f := Prod.snd) (Dict.mem_of_get hget)
    · rw [beq_iff_eq, ← hfound, ← hjudge]

theorem nodup_components (h : Accounts F history m) :
    ((m.results.entries.map Prod.snd).map HealthCheckResult.component).Nodup := by
  have hkeys : (m.results.entries.map Prod.snd).map HealthCheckResult.component = m.results.entries.map Prod.fst := by
    rw [List.map_map]
    exact List.map_congr_left (fun entry hentry => h.named _ _ (Dict.get_of_mem hentry))
  rw [hkeys]
  exact m.results.nodup

theorem reported (h : Accounts F history m) : Reported F history m := by
  have hhealthy : m.getHealthy = (m.results.entries.map Prod.snd).filter (fun r => r.healthy == true) := by
    simp [HeartbeatMonitor.getHealthy]
  have hunhealthy : m.getUnhealthy = (m.results.entries.map Prod.snd).filter (fun r => r.healthy == false) := by
    simp [HeartbeatMonitor.getUnhealthy]
  refine ⟨h.run, fun component => hhealthy ▸ h.mem_results true component,
    fun component => hunhealthy ▸ h.mem_results false component, ?_⟩
  refine ((List.Perm.map _ ?_).nodup_iff).mpr h.nodup_components
  exact List.filter_append_perm HealthCheckResult.healthy _

end Accounts

/-- In every run, with checks that overlap and components registered and unregistered meanwhile. -/
theorem reported_run (es : List Event) : ∃ F, (es.foldl step opening).InFlight holds F ∧
    Reported F (es.foldl step opening).world (es.foldl step opening).store := by
  obtain ⟨own, hP⟩ := balanced_run es
  obtain ⟨F, hF, haccounts⟩ := hP.inFlight
  exact ⟨F, hF, haccounts.reported⟩

/-- The component is not registered, it has no result, and no check of it is in flight. -/
def Forgotten (component : String) (F : Multiset String) (m : HeartbeatMonitor) : Prop :=
  m.checks.get component = none ∧ m.getResult component = none ∧ component ∉ F

/-- From a certain point of the history on, at which it was unregistered, the component is forgotten. -/
def ForgottenSince (component : String) (before : History) (F : Multiset String) (history : History)
    (m : HeartbeatMonitor) : Prop := Entry.unregistered component :: before <:+ history → Forgotten component F m

variable {before : History} {P : Monitors}

theorem balances_forgotten (component other : String) (before : History) :
    Balances (flight (ForgottenSince component before)) (Heartbeat.check other) := by
  refine balances_check (fun other checkFn F history m hcheck h hsince => ?_)
    (fun other outcome F history m h hsince => ?_) other
  · obtain ⟨hchecks, hresult, hidle⟩ := h hsince
    refine ⟨hchecks, hresult, fun hmem => ?_⟩
    rcases Multiset.mem_cons.mp hmem with rfl | hmem
    · cases hcheck.symm.trans hchecks
    · exact hidle hmem
  · -- The point is not reached by the end of a check.
    rcases List.suffix_cons_iff.mp hsince with heq | hsince
    · cases heq
    obtain ⟨hchecks, hresult, hidle⟩ := h hsince
    have hother : component ≠ other := fun heq => hidle (heq ▸ Multiset.mem_cons_self other F)
    refine ⟨hchecks, ?_, fun hmem => hidle (Multiset.mem_cons_of_mem hmem)⟩
    rw [HeartbeatMonitor.getResult, HeartbeatMonitor.record, Dict.get_set, if_neg hother]
    exact hresult

/-- A call of a method, or the answer to one, as far as no entry of the history is at stake. -/
theorem forgotten_step (h : ∃ own, Balanced (flight (ForgottenSince component before)) own P) (e : Event)
    (hregister : ∀ checkFn, e = .register component checkFn → ¬ Entry.unregistered component :: before <:+ P.world)
    (hunregister : ∀ other, e = .unregister other → ∀ F, ForgottenSince component before F P.world P.store →
      ForgottenSince component before F (step P e).world (step P e).store) :
    ∃ own, Balanced (flight (ForgottenSince component before)) own (step P e) := by
  obtain ⟨own, hP⟩ := h
  cases e with
  | register other checkFn =>
      refine ⟨own, hP.store (fun F h hsince => ?_)⟩
      have hother : component ≠ other := fun heq => hregister checkFn (by rw [heq]) hsince
      exact ⟨(Dict.get_set_of_ne _ _ _ hother).trans (h hsince).1, (h hsince).2⟩
  | unregister other => exact ⟨own, hP.store (hunregister other rfl)⟩
  | tick now => exact ⟨own, hP.store (fun F h => h)⟩
  | check caller other =>
      simp only [step, Option.isNone_iff_eq_none]
      split
      next hfresh =>
        exact hP.start_balances hfresh (fun _ => trivial)
          (balances_bind (balances_forgotten component other before) (fun r => balances_ret _))
      next => exact ⟨own, hP⟩
  | checkAll caller =>
      simp only [step, Option.isNone_iff_eq_none]
      split
      next hfresh =>
        exact hP.start_balances hfresh (fun _ => trivial)
          (fun F _ m => balances_settleAll (fun other => balances_forgotten component other before) _ [] F _ m)
      next => exact ⟨own, hP⟩
  | answer caller outcome => exact hP.answer ⟨outcome, rfl⟩

/-- What has been seen stays. -/
theorem world_suffix (P : Monitors) (e : Event) : P.world <:+ (step P e).world := by
  cases e with
  | register | tick => exact List.suffix_rfl
  | unregister component =>
      simp only [step]
      split
      · exact List.suffix_cons _ _
      · exact List.suffix_rfl
  | check caller component | checkAll caller =>
      simp only [step]
      split <;> exact List.suffix_rfl
  | answer caller outcome =>
      simp only [step, Pool.resume_world, Pool.act]
      split
      next q k _ =>
        cases q
        exact List.suffix_cons _ _
      next => exact List.suffix_rfl

/-- Before the point nothing is said. -/
theorem forgotten_before (component : String) (es : List Event) (hbefore : (es.foldl step opening).world.length ≤ before.length) :
    ∃ own, Balanced (flight (ForgottenSince component before)) own (es.foldl step opening) := by
  have hlate {history : History} (hlength : history.length ≤ before.length) :
      ¬ Entry.unregistered component :: before <:+ history := fun hsince => by
    have hle := hsince.length_le
    rw [List.length_cons] at hle
    omega
  induction es using List.reverseRecOn with
  | nil => exact ⟨0, Balanced.idle (fun hsince => absurd hsince (hlate (Nat.zero_le _)))⟩
  | append_singleton es e ih =>
      rw [List.foldl_append, List.foldl_cons, List.foldl_nil] at hbefore ⊢
      have hearlier := (world_suffix _ e).length_le.trans hbefore
      refine forgotten_step (ih hearlier) e (fun _ _ => hlate hearlier) (fun other he F _ hsince => ?_)
      exact absurd hsince (hlate hbefore)

/-- Once unregistered, a component stays forgotten until it is registered again. -/
theorem forgotten_after (h : ∃ own, Balanced (flight (ForgottenSince component before)) own P)
    (hsince : Entry.unregistered component :: before <:+ P.world) {es : List Event}
    (hregister : ∀ e ∈ es, ∀ checkFn, e ≠ .register component checkFn) : (es.foldl step P).store.getResult component = none := by
  induction es generalizing P with
  | nil =>
      obtain ⟨own, hP⟩ := h
      exact (hP.inv hsince).2.1
  | cons e es ih =>
      refine ih (forgotten_step h e ?_ ?_) (hsince.trans (world_suffix P e))
        (fun e' he' => hregister e' (List.mem_cons_of_mem e he'))
      · exact fun checkFn he => absurd he (hregister e List.mem_cons_self checkFn)
      · rintro other rfl F hforgotten -
        obtain ⟨hchecks, hresult, hidle⟩ := hforgotten hsince
        have hpop {V : Type} (d : Dict String V) (hnone : d.get component = none) : (d.pop other).get component = none := by
          rw [Dict.get_pop, hnone, ite_self]
        simp only [step, HeartbeatMonitor.unregister]
        split
        · exact ⟨hchecks, hresult, hidle⟩
        · exact ⟨hpop _ hchecks, hpop _ hresult, hidle⟩

theorem not_mem_inFlight (hP : P.InFlight holds F)
    (hidle : ∀ caller checkFn k, P.tasks caller ≠ some (.asked (.checkFn checkFn component) k)) : component ∉ F := by
  intro hmem
  obtain ⟨own, hown, rfl⟩ := hP
  rw [Finsupp.sum, Multiset.mem_sum] at hmem
  obtain ⟨caller, -, hcaller⟩ := hmem
  have hholds := hown caller
  cases htask : P.tasks caller with
  | none =>
      rw [htask] at hholds
      exact Multiset.notMem_zero component (hholds ▸ hcaller)
  | some task =>
      rw [htask] at hholds
      cases task with
      | asked q k =>
          obtain ⟨checkFn, other⟩ := q
          obtain rfl : component = other := Multiset.mem_singleton.mp (hholds ▸ hcaller)
          exact hidle caller checkFn k htask
      | answered | done => exact Multiset.notMem_zero component (hholds ▸ hcaller)

/-- A component that was unregistered while no check of it was in flight has no result until it is
registered again, whatever checks are begun and end meanwhile. -/
theorem getResult_unregistered {es es' : List Event} {checkFn : Nat}
    (hchecks : (es.foldl step opening).store.checks.get component = some checkFn)
    (hidle : ∀ caller checkFn k, (es.foldl step opening).tasks caller ≠ some (.asked (.checkFn checkFn component) k))
    (hregister : ∀ e ∈ es', ∀ checkFn, e ≠ .register component checkFn) :
    ((es ++ .unregister component :: es').foldl step opening).store.getResult component = none := by
  obtain ⟨own, hP⟩ := forgotten_before component es le_rfl
  have hworld : (step (es.foldl step opening) (.unregister component)).world =
      .unregistered component :: (es.foldl step opening).world := by
    simp only [step, hchecks, Option.isSome_some, if_true]
  rw [List.foldl_append, List.foldl_cons]
  refine forgotten_after (P := step (es.foldl step opening) (.unregister component))
    ⟨own, fun _ => ?_, hP.lands⟩ (hworld ▸ List.suffix_rfl) hregister
  have hself {V : Type} (d : Dict String V) : (d.pop component).get component = none := by rw [Dict.get_pop, if_pos rfl]
  refine ⟨?_, ?_, not_mem_inFlight ⟨own, hP.holds, rfl⟩ hidle⟩
  · simp only [step, HeartbeatMonitor.unregister, hchecks, hself]
  · simp only [step, HeartbeatMonitor.unregister, hchecks, HeartbeatMonitor.getResult, hself]

theorem tasks_answer (P : Monitors) {caller other : Nat} (h : other ≠ caller) (outcome : Except String CheckValue) :
    (step P (.answer caller outcome)).tasks other = P.tasks other := Pool.tasks_answer_of_ne h

/-- Both components are checked, and one of them is unregistered. -/
def checkedOnce : List Event :=
  [.register "redis" 1, .register "db" 2, .checkAll 0, .answer 0 (.ok (.value true)), .answer 0 (.ok (.value false))]

def checkedAgain : List Event := [.checkAll 1, .answer 1 (.ok (.value true))]

theorem getResult_unregistered_checked :
    ((checkedOnce ++ Event.unregister "redis" :: checkedAgain).foldl step opening).store.getResult "redis" = none := by
  have hchecks : (checkedOnce.foldl step opening).store.checks.get "redis" = some 1 := rfl
  refine getResult_unregistered hchecks (fun caller checkFn k htask => ?_) (fun e he checkFn heq => ?_)
  · by_cases hcaller : caller = 0
    · subst hcaller
      cases htask
    · have hidle : (checkedOnce.foldl step opening).tasks caller = none := by
        simp only [checkedOnce, List.foldl_cons, List.foldl_nil]
        rw [tasks_answer _ hcaller, tasks_answer _ hcaller]
        exact Function.update_of_ne hcaller _ _
      cases hidle.symm.trans htask
  · subst heq
    simp [checkedAgain] at he

end Utos.Scheduler.Heartbeat
