import Utos.Coroutine.Pool
import Utos.Coroutine.Trace
import Utos.Execution.Engine

namespace Utos.Execution.Interleaving

open Coroutine Program Core.DomainTypes Core.Exceptions Models OrderState Executor Engine

/-- The calls of the engine's operations as tasks of one event loop. -/
abbrev Floor := Pool ExecutionEngine Unit AdapterReq AdapterAns Exn Unit

abbrev Answers := (q : AdapterReq) → AdapterAns q

/-- A call runs up to its first await, what a task awaits is answered, or a task goes on. -/
inductive Event
  | call (task : Nat) (c : Call)
  | answer (task : Nat) (answers : Answers)
  | resume (task : Nat)

variable (localOrderId : Nat → String)

def step (P : Floor) : Event → Floor
  | .call i c => P.start i (perform localOrderId c)
  | .answer i answers => P.act (fun w q => (answers q, w)) i
  | .resume i => P.resume i

def runEvents (P : Floor) (events : List Event) : Floor := events.foldl (step localOrderId) P

/-- An engine that has tracked nothing, and no calls under way. -/
def idle (executor : OrderExecutor) : Floor := ⟨{ executor := executor }, (), fun _ => none⟩

theorem length_localId (n : Nat) : (localId n).length = n + 6 := by
  have hlength : "local_".toList.length = 6 := by simp
  unfold localId
  simp only [String.length_ofList, List.length_append, List.length_replicate]
  omega

/-- A call may be made in the state that it finds, and what a task is told is so as the task goes on. -/
def Meets (admits : ExecutionEngine → Call → Prop)
    (told : ExecutionEngine → (q : AdapterReq) → AdapterAns q → Prop) (P : Floor) : Event → Prop
  | .call _ c => admits P.store c
  | .answer _ _ => True
  | .resume i => ∀ q a k, P.tasks i = some (.answered q a k) → told P.store q a

section

variable {O : Type} {localOrderId : Nat → String} {π : Protocol ExecutionEngine AdapterReq AdapterAns O}
variable {Apart : O → O → Prop} {own : Nat → Option O} {o : O} {P : Floor}

theorem under_transition {R : Except Exn Unit → O → ExecutionEngine → Prop} {s : ExecutionEngine} {ref : Nat}
    {status : ExecutionOrderStatus}
    (hok : status ∈ transitions (s.tracker.objects ref).status →
      π.inv { s with tracker := s.tracker.setStatus ref status } ∧
        π.guar o s { s with tracker := s.tracker.setStatus ref status } ∧
        R (.ok ()) o { s with tracker := s.tracker.setStatus ref status })
    (herror : ∀ exc, R (.error exc) o s) : Under π (transition ref status) R o s := by
  rw [transition, under_attempt]
  by_cases hmem : status ∈ transitions (s.tracker.objects ref).status
  · simp only [validateTransition, if_pos hmem]
    exact hok hmem
  · simp only [validateTransition, if_neg hmem]
    exact herror _

theorem under_getAdapter {R : Except Exn Adapter → O → ExecutionEngine → Prop} {s : ExecutionEngine}
    {acct : Option UUID} : Under π (getAdapter acct) R o s ↔ R (adapterFor s acct) o s := by
  simp only [getAdapter, bind_eq, under_bind, under_read, thenUnder_ok, under_lift]

/-- Dispatching an order: what the others leave alone survives the retries, and
of a result that comes back all is known that the exchange may be trusted with. -/
theorem under_attempts {adapter : Adapter} {ref : Nat} {args : PlaceArgs} (J : ExecutionEngine → Prop)
    (K : ExecutionEngine → OrderResult → Prop) (hspend : ∀ q, π.spend o q = o) (hasks : ∀ s q, J s → π.asks o s q)
    (hrely : ∀ s s', J s → π.inv s' → π.rely o s s' → J s')
    (htold : ∀ s result, J s → π.told s (.placeOrder adapter ref args) (.ok result) → K s result)
    (x : OrderExecutor) (n : Nat) (delay : ℚ) (last : Option Exn) {s : ExecutionEngine} (h : J s) :
    Under π (x.attempts adapter ref args n delay last)
      (fun r o' s' => o' = o ∧ J s' ∧ ∀ result, r = .ok result → K s' result) o s := by
  induction n generalizing delay last s with
  | zero => exact ⟨rfl, h, fun result hr => by cases hr⟩
  | succ n ih =>
      refine (under_call _ _).mpr ⟨hasks s _ h, fun answer s' ht hi hr => ?_⟩
      rw [hspend] at hr ⊢
      have h' := hrely s s' h hi hr
      cases answer with
      | ok result =>
          refine ⟨rfl, h', fun result' heq => ?_⟩
          cases heq
          exact htold s' result h' ht
      | error exc =>
          dsimp only
          split
          · split
            · exact ⟨rfl, h', fun result heq => by cases heq⟩
            · refine (under_call _ _).mpr ⟨hasks s' _ h', fun _ s'' _ hi' hr' => ?_⟩
              rw [hspend] at hr' ⊢
              exact ih _ _ (hrely s' s'' h' hi' hr')
          · split <;> exact ⟨rfl, h', fun result heq => by cases heq⟩

theorem sound_answer (localOrderId : Nat → String) (hf : π.Fair Apart) (hspend : ∀ o q, π.spend o q = o)
    (hP : P.Sound π Apart own) (i : Nat) (answers : Answers) :
    (step localOrderId P (.answer i answers)).Sound π Apart own ∧
      (step localOrderId P (.answer i answers)).store = P.store := by
  by_cases hasked : ∃ q k, P.tasks i = some (.asked q k)
  · obtain ⟨q, k, ht⟩ := hasked
    refine ⟨?_, by simp only [step, Pool.act, ht]⟩
    rcases hP.tasks i _ ht with ⟨r, hr⟩ | ⟨o, ho, -⟩
    · cases hr
    · have hact := hP.act (h := fun w q => (answers q, w)) hf ht ho
      rwa [hspend, ← ho, Function.update_eq_self] at hact
  · have hsame : step localOrderId P (.answer i answers) = P := by
      simp only [step, Pool.act]
      split
      next q k ht => exact absurd ⟨q, k, ht⟩ hasked
      next => rfl
    rw [hsame]
    exact ⟨hP, rfl⟩

theorem sound_resume (localOrderId : Nat → String) (hf : π.Fair Apart) (hP : P.Sound π Apart own) {i : Nat}
    (htold : ∀ q a k, P.tasks i = some (.answered q a k) → π.told P.store q a) :
    (step localOrderId P (.resume i)).Sound π Apart own ∧
      ∀ o', (∀ o, own i = some o → Apart o o') → π.rely o' P.store (step localOrderId P (.resume i)).store := by
  cases ho : own i with
  | none =>
      have hsame : step localOrderId P (.resume i) = P := hP.resume_none ho
      rw [hsame]
      exact ⟨hP, fun o' _ => hf.refl _ _⟩
  | some o =>
      obtain ⟨hs, hwrote⟩ := hP.resume hf ho htold
      exact ⟨hs, fun o' hapart => hf.wrote (hapart o rfl) hwrote⟩

variable {admits : ExecutionEngine → Call → Prop}

/-- Along a run tasks that need not be kept apart stay sound, and what they write others may count on. -/
theorem sound_run (hf : π.Fair Apart) (hall : ∀ o o', Apart o o') (hspend : ∀ o q, π.spend o q = o)
    (hperform : ∀ c s, π.inv s → admits s c → Under π (perform localOrderId c) (fun _ _ _ => True) o s)
    (hsound : ∃ own, P.Sound π Apart own) {events : List Event}
    (hmeets : AllMeet (step localOrderId) (Meets admits π.told) P events) :
    (∃ own, (runEvents localOrderId P events).Sound π Apart own) ∧
      ∀ o', π.rely o' P.store (runEvents localOrderId P events).store := by
  refine foldl_of_allMeet (I := fun Q => (∃ own, Q.Sound π Apart own) ∧ ∀ o', π.rely o' P.store Q.store)
    (fun Q e hQ he => ?_) ⟨hsound, fun _ => hf.refl _ _⟩ hmeets
  obtain ⟨⟨own, hQ⟩, hrely⟩ := hQ
  cases e with
  | call i c =>
      obtain ⟨hs, hwrote⟩ := hQ.start (i := i) hf (fun _ _ _ _ => hall _ _) (hperform c Q.store hQ.inv he)
      exact ⟨⟨_, hs⟩, fun o' => hf.trans _ _ _ _ (hrely o') (hf.wrote (hall _ _) hwrote)⟩
  | answer i answers =>
      obtain ⟨hs, hstore⟩ := sound_answer localOrderId hf hspend hQ i answers
      exact ⟨⟨_, hs⟩, fun o' => hstore ▸ hrely o'⟩
  | resume i =>
      obtain ⟨hs, hwrote⟩ := sound_resume localOrderId hf hQ he
      exact ⟨⟨_, hs⟩, fun o' => hf.trans _ _ _ _ (hrely o') (hwrote o' (fun _ _ => hall _ _))⟩

end

end Utos.Execution.Interleaving
