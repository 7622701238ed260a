import Utos.Core.Exceptions
import Utos.Coroutine.Custody
import Utos.Coroutine.Trace

namespace Utos.Notification.Queue

open Coroutine Program Core.Exceptions

/-- QueuedNotification without what send_fn alone reads. -/
structure QueuedNotification where
  id : String
  channel : String
  retryCount : Nat := 0
  maxRetries : Int := 3
  deriving DecidableEq, Repr

inductive Status
  | success
  | failed
  | retry
  deriving DecidableEq, Repr

structure NotificationResult where
  notificationId : String
  channel : String
  status : Status
  error : Option String := none
  deriving DecidableEq, Repr

structure Metrics where
  enqueued : Nat := 0
  sent : Nat := 0
  retried : Nat := 0
  failed : Nat := 0
  movedToDlq : Nat := 0
  deriving DecidableEq, Repr

/-- A queue, the notification objects that it has seen, by number, and the calls of its callback. -/
structure NotificationQueue where
  hasSendFn : Bool := false
  hasDlqCallback : Bool := false
  objects : List QueuedNotification := []
  queue : List Nat := []
  metrics : Metrics := {}
  dlqCalls : List (Nat × String) := []

/-- What is awaited: send_fn, which returns or raises an exception with a text. -/
inductive Request
  | send (notification : Nat)

abbrev Answer : Request → Type
  | .send _ => Except String Bool

abbrev Operation (α : Type) := Program NotificationQueue Request Answer Exn α

namespace NotificationQueue

variable (q : NotificationQueue)

def object (n : Nat) : QueuedNotification := q.objects.getD n { id := "", channel := "" }

def enqueue (n : Nat) : NotificationQueue :=
  { q with queue := q.queue ++ [n], metrics := { q.metrics with enqueued := q.metrics.enqueued + 1 } }

def succeed : NotificationQueue := { q with metrics := { q.metrics with sent := q.metrics.sent + 1 } }

/-- notification.retry_count += 1 -/
def failOnce (n : Nat) : NotificationQueue :=
  { q with objects := q.objects.modify n (fun notification => { notification with retryCount := notification.retryCount + 1 }) }

def requeue (n : Nat) : NotificationQueue :=
  { q with queue := q.queue ++ [n], metrics := { q.metrics with retried := q.metrics.retried + 1 } }

/-- What the callback raises is logged. -/
def moveToDlq (n : Nat) (error : String) : NotificationQueue :=
  { q with metrics := { q.metrics with failed := q.metrics.failed + 1, movedToDlq := q.metrics.movedToDlq + 1 }
           dlqCalls := if q.hasDlqCallback then q.dlqCalls ++ [(n, error)] else q.dlqCalls }

def result (n : Nat) (status : Status) (error : Option String) : NotificationResult :=
  ⟨(q.object n).id, (q.object n).channel, status, error⟩

/-- except Exception as exc -/
def fail (n : Nat) (error : String) : Operation NotificationResult :=
  let q := q.failOnce n
  if ((q.object n).retryCount : Int) < (q.object n).maxRetries then .put (q.requeue n) (.ret (q.result n .retry (some error)))
  else .put (q.moveToDlq n error) (.ret (q.result n .failed (some error)))

end NotificationQueue

/-- The end of _process_one, when send_fn has returned or raised. -/
def settle (n : Nat) (outcome : Except String Bool) : Operation NotificationResult :=
  .get (fun q => match outcome with
    | .ok true => .put q.succeed (.ret (q.result n .success none))
    | .ok false => q.fail n "Send returned False"
    | .error error => q.fail n error)

def processOne (n : Nat) : Operation NotificationResult :=
  .get (fun q =>
    if q.hasSendFn = false then .ret (q.result n .failed (some "No send function configured"))
    else .call (.send n) (settle n))

def process : Operation (List NotificationResult) := drain NotificationQueue.queue (fun q => { q with queue := [] }) processOne

/-- What was enqueued, and what became of the calls of send_fn. -/
structure History where
  enqueued : List Nat := []
  sends : List (Nat × Except String Bool) := []

abbrev Queues := Pool NotificationQueue History Request Answer Exn (List NotificationResult)

/-- A new object is enqueued, or one that has been before; process is called, under a task
name of its own; send_fn returns or raises, and its task goes on at once. -/
inductive Event
  | enqueue (notification : QueuedNotification)
  | again (n : Nat)
  | process (task : Nat)
  | answer (task : Nat) (outcome : Except String Bool)

def sends (outcome : Except String Bool) : Handler History Request Answer
  | history, .send n => (outcome, { history with sends := history.sends ++ [(n, outcome)] })

def put (P : Queues) (q : NotificationQueue) (n : Nat) : Queues :=
  { P with store := q.enqueue n, world := { P.world with enqueued := P.world.enqueued ++ [n] } }

def step (P : Queues) : Event → Queues
  | .enqueue notification =>
      put P { P.store with objects := P.store.objects ++ [notification] } P.store.objects.length
  | .again n => if n < P.store.objects.length then put P P.store n else P
  | .process task => if (P.tasks task).isNone then P.start task process else P
  | .answer task outcome => (P.act (sends outcome) task).resume task

/-- NotificationQueue.__init__ -/
def opening (hasSendFn hasDlqCallback : Bool) : Queues :=
  { store := { hasSendFn := hasSendFn, hasDlqCallback := hasDlqCallback }, world := {} }

end Utos.Notification.Queue

namespace Utos.Notification.Queue

open Coroutine Program Core.Exceptions

def wasSent : Except String Bool → Bool
  | .ok sent => sent
  | .error _ => false

/-- The notifications that send_fn has sent, once for each time. -/
def History.sent (history : History) : List Nat := (history.sends.filter (fun e => wasSent e.2)).map Prod.fst

/-- Every notification is queued, in flight, has been sent, or was moved to the dead letters. -/
structure Accounts (F D : Multiset Nat) (history : History) (q : NotificationQueue) : Prop where
  places : (history.enqueued : Multiset Nat) = (q.queue : Multiset Nat) + F + (history.sent : Multiset Nat) + D
  enqueued : q.metrics.enqueued = history.enqueued.length
  sent : q.metrics.sent = history.sent.length
  failed : q.metrics.failed = D.card
  calls : (q.dlqCalls.map Prod.fst : Multiset Nat) = if q.hasDlqCallback then D else 0

variable {F D : Multiset Nat} {history : History} {q : NotificationQueue} {n : Nat} {hasDlqCallback : Bool} {P : Queues}

theorem sent_concat (history : History) (n : Nat) (outcome : Except String Bool) :
    { history with sends := history.sends ++ [(n, outcome)] : History }.sent =
      history.sent ++ if wasSent outcome then [n] else [] := by
  cases h : wasSent outcome <;> simp [History.sent, h]

theorem sent_unsent {outcome : Except String Bool} (hunsent : wasSent outcome = false) :
    { history with sends := history.sends ++ [(n, outcome)] : History }.sent = history.sent := by
  rw [sent_concat, hunsent]
  exact List.append_nil _

namespace Accounts

theorem succeed (h : Accounts (n ::ₘ F) D history q) :
    Accounts F D { history with sends := history.sends ++ [(n, .ok true)] } q.succeed := by
  have hsent : { history with sends := history.sends ++ [(n, .ok true)] : History }.sent = history.sent ++ [n] :=
    sent_concat history n (.ok true)
  refine ⟨?_, h.enqueued, ?_, h.failed, h.calls⟩
  · rw [hsent, h.places, NotificationQueue.succeed, ← Multiset.coe_add, Multiset.coe_singleton]
    simp only [Multiset.add_cons, Multiset.cons_add, Multiset.singleton_add, add_comm _ ({n} : Multiset Nat)]
  · rw [hsent, List.length_append, ← h.sent]
    rfl

theorem requeue (h : Accounts (n ::ₘ F) D history q) {outcome : Except String Bool} (hunsent : wasSent outcome = false) :
    Accounts F D { history with sends := history.sends ++ [(n, outcome)] } ((q.failOnce n).requeue n) := by
  refine ⟨?_, h.enqueued, ?_, h.failed, h.calls⟩
  · rw [sent_unsent hunsent, h.places]
    simp only [NotificationQueue.requeue, NotificationQueue.failOnce, ← Multiset.coe_add, Multiset.coe_singleton,
      Multiset.add_cons, Multiset.cons_add, Multiset.add_assoc, Multiset.singleton_add]
  · rw [sent_unsent hunsent]
    exact h.sent

theorem moveToDlq (h : Accounts (n ::ₘ F) D history q) {outcome : Except String Bool} (hunsent : wasSent outcome = false)
    (error : String) :
    Accounts F (n ::ₘ D) { history with sends := history.sends ++ [(n, outcome)] } ((q.failOnce n).moveToDlq n error) := by
  refine ⟨?_, h.enqueued, ?_, ?_, ?_⟩
  · rw [sent_unsent hunsent, h.places]
    simp only [NotificationQueue.moveToDlq, NotificationQueue.failOnce, Multiset.add_cons, Multiset.cons_add]
  · rw [sent_unsent hunsent]
    exact h.sent
  · rw [Multiset.card_cons, ← h.failed]
    rfl
  · exact coe_concat_ite n error h.calls

theorem enqueue (h : Accounts F D history q) (n : Nat) :
    Accounts F D { history with enqueued := history.enqueued ++ [n] } (q.enqueue n) := by
  refine ⟨?_, ?_, h.sent, h.failed, h.calls⟩
  · rw [← Multiset.coe_add, h.places]
    simp only [NotificationQueue.enqueue, ← Multiset.coe_add, Multiset.add_assoc, add_comm _ ([n] : Multiset Nat)]
    rfl
  · rw [List.length_append, ← h.enqueued]
    rfl

theorem take (h : Accounts F D history q) : Accounts ((q.queue : Multiset Nat) + F) D history { q with queue := [] } := by
  refine ⟨?_, h.enqueued, h.sent, h.failed, h.calls⟩
  rw [Multiset.coe_nil, zero_add]
  exact h.places

end Accounts

/-- How a notification goes on after its request. -/
def Carried (n : Nat) : (q : Request) → (Answer q → Operation NotificationResult) → Prop
  | .send m, k => m = n ∧ k = settle n

def Kept (hasDlqCallback : Bool) : Invariant Nat History NotificationQueue := fun F history q =>
  q.hasSendFn = true ∧ q.hasDlqCallback = hasDlqCallback ∧ ∃ D, Accounts F D history q

theorem fail_carries (h : Accounts (n ::ₘ F) D history q) {outcome : Except String Bool} (hunsent : wasSent outcome = false)
    (error : String) (hable : q.hasSendFn = true) (hcallback : q.hasDlqCallback = hasDlqCallback) :
    Carries Carried (Kept hasDlqCallback) n F { history with sends := history.sends ++ [(n, outcome)] } (q.fail n error) q := by
  right
  simp only [NotificationQueue.fail]
  split
  · exact ⟨_, _, rfl, hable, hcallback, _, h.requeue hunsent⟩
  · exact ⟨_, _, rfl, hable, hcallback, _, h.moveToDlq hunsent error⟩

theorem settles_processOne : Settles processOne Carried (Kept hasDlqCallback) (fun h => ∃ outcome, h = sends outcome) := by
  refine ⟨fun n F history q hkept => ?_, fun n request k F history q h hsends hcarried hkept => ?_⟩
  · left
    obtain ⟨hable, hrest⟩ := hkept
    simp only [processOne, advance, hable]
    exact ⟨_, _, q, rfl, ⟨rfl, rfl⟩, hable, hrest⟩
  · obtain ⟨outcome, rfl⟩ := hsends
    obtain ⟨m⟩ := request
    obtain ⟨rfl, rfl⟩ := hcarried
    obtain ⟨hable, hcallback, D, haccounts⟩ := hkept
    cases outcome with
    | ok sent =>
        cases sent with
        | true => exact .inr ⟨_, _, rfl, hable, hcallback, D, haccounts.succeed⟩
        | false => exact fail_carries haccounts rfl _ hable hcallback
    | error error => exact fail_carries haccounts rfl error hable hcallback

/-- A queue with a send function. -/
abbrev Sound (hasDlqCallback : Bool) (P : Queues) : Prop := ∃ own, Custody processOne Carried (Kept hasDlqCallback) own P

theorem Sound.step (h : Sound hasDlqCallback P) (e : Event) : Sound hasDlqCallback (step P e) := by
  obtain ⟨own, hP⟩ := h
  have hput : ∀ objects n, Sound hasDlqCallback (put P { P.store with objects := objects } n) := by
    refine fun objects n => ⟨own, hP.store (fun F hkept => ?_)⟩
    obtain ⟨hable, hcallback, D, haccounts⟩ := hkept
    exact ⟨hable, hcallback, D, ((⟨haccounts.places, haccounts.enqueued, haccounts.sent, haccounts.failed, haccounts.calls⟩ :
      Accounts F D P.world { P.store with objects := objects }).enqueue n)⟩
  cases e with
  | enqueue notification => exact hput _ _
  | again n =>
      simp only [Queue.step]
      split
      · exact hput P.store.objects n
      · exact ⟨own, hP⟩
  | process task =>
      simp only [Queue.step, Option.isNone_iff_eq_none]
      split
      next hfresh =>
        refine hP.start settles_processOne hfresh (fun F hkept => ?_)
        obtain ⟨hable, hcallback, D, haccounts⟩ := hkept
        exact ⟨hable, hcallback, D, haccounts.take⟩
      next => exact ⟨own, hP⟩
  | answer task outcome => exact hP.answer settles_processOne ⟨outcome, rfl⟩

/-- The metrics balance, and a notification that is not pending was sent, or handed to the
callback if there is one, once for each time it was enqueued. -/
structure Conserved (P : Queues) : Prop where
  balance : P.store.metrics.enqueued = P.store.metrics.sent + P.store.metrics.failed + P.store.queue.length
  settled : P.store.hasDlqCallback = true → ∀ n, n ∉ P.store.queue →
    P.world.enqueued.count n = P.world.sent.count n + (P.store.dlqCalls.map Prod.fst).count n

theorem Sound.conserved (h : Sound hasDlqCallback P) (hquiet : P.Quiescent) : Conserved P := by
  obtain ⟨own, hP⟩ := h
  obtain ⟨-, -, D, haccounts⟩ := hP.quiet hquiet
  have hplaces := haccounts.places
  rw [add_zero] at hplaces
  refine ⟨?_, fun hcallback n hpending => ?_⟩
  · have hcard := congrArg Multiset.card hplaces
    simp only [Multiset.card_add, Multiset.coe_card] at hcard
    rw [haccounts.enqueued, haccounts.sent, haccounts.failed]
    omega
  · have hcount := congrArg (Multiset.count n) hplaces
    have hcalls := haccounts.calls
    rw [if_pos hcallback] at hcalls
    rw [← hcalls] at hcount
    simp only [Multiset.count_add, Multiset.coe_count, List.count_eq_zero_of_not_mem hpending, zero_add] at hcount
    exact hcount

/-- A queue without one: what a pass has taken is lost. -/
structure Mute (L : Multiset Nat) (P : Queues) : Prop where
  unable : P.store.hasSendFn = false
  quiet : P.Quiescent
  places : (P.world.enqueued : Multiset Nat) = (P.store.queue : Multiset Nat) + L
  enqueued : P.store.metrics.enqueued = P.world.enqueued.length
  sent : P.store.metrics.sent = 0
  failed : P.store.metrics.failed = 0
  sends : P.world.sends = []
  calls : P.store.dlqCalls = []

theorem advance_unable (hunable : q.hasSendFn = false) (ns : List Nat) (results : List NotificationResult) :
    ∃ results', (settleAll processOne ns results).advance q = (.done (.ok results'), q) := by
  induction ns generalizing results with
  | nil => exact ⟨results, rfl⟩
  | cons n ns ih =>
      have hone : (processOne n).advance q = (.done (.ok (q.result n .failed (some "No send function configured"))), q) := by
        simp only [processOne, advance, hunable, if_true]
      rw [settleAll, advance_bind_done hone]
      exact ih _

variable {L : Multiset Nat}

/-- There is a send function, or nothing that the pass would take. -/
def Sendable (P : Queues) (e : Event) : Prop :=
  ∀ task, e = .process task → P.tasks task = none → P.store.hasSendFn = true ∨ P.store.queue = []

theorem Mute.put (h : Mute L P) (objects : List QueuedNotification) (n : Nat) :
    Mute L (put P { P.store with objects := objects } n) := by
  refine ⟨h.unable, h.quiet, ?_, ?_, h.sent, h.failed, h.sends, h.calls⟩
  · simp only [Queue.put, NotificationQueue.enqueue, ← Multiset.coe_add, h.places, Multiset.add_assoc, add_comm L]
  · simp only [Queue.put, NotificationQueue.enqueue, List.length_append, h.enqueued]
    rfl

theorem Mute.process (h : Mute L P) (task : Nat) : Mute ((P.store.queue : Multiset Nat) + L) (P.start task Queue.process) := by
  obtain ⟨results, hadvance⟩ := advance_unable (q := { P.store with queue := [] }) h.unable P.store.queue []
  have hprocess : Queue.process.advance P.store = (.done (.ok results), { P.store with queue := [] }) := hadvance
  rw [Pool.start, hprocess]
  refine ⟨h.unable, fun i t htask => ?_, ?_, h.enqueued, h.sent, h.failed, h.sends, h.calls⟩
  · dsimp only at htask
    by_cases hi : i = task
    · subst hi
      rw [Function.update_self] at htask
      exact ⟨_, (Option.some.inj htask).symm⟩
    · rw [Function.update_of_ne hi] at htask
      exact h.quiet i t htask
  · rw [Multiset.coe_nil, zero_add]
    exact h.places

/-- A pass loses what the queue held; nothing else does. -/
theorem Mute.step (h : Mute L P) (e : Event) :
    (Sendable P e → Mute L (step P e)) ∧ (¬ Sendable P e → ∃ L', L' ≠ 0 ∧ Mute (L' + L) (step P e)) := by
  cases e with
  | enqueue notification => exact ⟨fun _ => h.put _ _, fun hno => absurd (fun _ he => by cases he) hno⟩
  | again n =>
      refine ⟨fun _ => ?_, fun hno => absurd (fun _ he => by cases he) hno⟩
      simp only [Queue.step]
      split
      · exact h.put P.store.objects n
      · exact h
  | answer task outcome =>
      refine ⟨fun _ => ?_, fun hno => absurd (fun _ he => by cases he) hno⟩
      rw [Queue.step, Pool.answer_idle (Queue.sends outcome) (h.quiet task)]
      exact h
  | process task =>
      simp only [Queue.step, Option.isNone_iff_eq_none]
      split
      next hfresh =>
        have hsendable : Sendable P (.process task) ↔ P.store.queue = [] := by
          refine ⟨fun hsendable => ?_, fun hempty _ _ _ => .inr hempty⟩
          exact (hsendable task rfl hfresh).resolve_left (fun hable => by simp [h.unable] at hable)
        have hmute := h.process task
        refine ⟨fun hyes => ?_, fun hno => ⟨P.store.queue, fun hzero => ?_, hmute⟩⟩
        · rw [hsendable.mp hyes, Multiset.coe_nil, zero_add] at hmute
          exact hmute
        · exact hno (hsendable.mpr ((Multiset.coe_eq_zero _).mp hzero))
      next hbusy =>
        refine ⟨fun _ => h, fun hno => absurd (fun other he hfresh => ?_) hno⟩
        cases he
        exact absurd hfresh hbusy

theorem Mute.conserved_iff_lost (h : Mute L P) : Conserved P ↔ L = 0 := by
  constructor
  · intro hconserved
    have hbalance := hconserved.balance
    have hcard := congrArg Multiset.card h.places
    simp only [Multiset.card_add, Multiset.coe_card] at hcard
    rw [h.enqueued, h.sent, h.failed] at hbalance
    exact Multiset.card_eq_zero.mp (by omega)
  · rintro rfl
    have hcard := congrArg Multiset.card h.places
    simp only [Multiset.card_add, Multiset.coe_card, Multiset.card_zero] at hcard
    refine ⟨by rw [h.enqueued, h.sent, h.failed]; omega, fun _ n hpending => ?_⟩
    have hcount := congrArg (Multiset.count n) h.places
    simp only [Multiset.count_add, Multiset.coe_count, List.count_eq_zero_of_not_mem hpending, Multiset.count_zero] at hcount
    simp [hcount, h.calls, History.sent, h.sends]

theorem Mute.some_step (h : Mute L P) (e : Event) : ∃ L', Mute L' (Queue.step P e) := by
  by_cases he : Sendable P e
  · exact ⟨L, (h.step e).1 he⟩
  · obtain ⟨L', -, hmute⟩ := (h.step e).2 he
    exact ⟨L' + L, hmute⟩

/-- Nothing is lost in a run exactly when no pass finds anything. -/
theorem mute_run_iff (h : Mute 0 P) (es : List Event) : Mute 0 (es.foldl step P) ↔ AllMeet step Sendable P es := by
  refine foldl_iff_allMeet (I := Mute 0) (D := fun P => ∃ L, L ≠ 0 ∧ Mute L P) (fun P e h he => (h.step e).1 he)
    (fun P e h he => ?_) (fun P e h => ?_) (fun P h h' => ?_) h
  · obtain ⟨L, hL, hmute⟩ := (h.step e).2 he
    exact ⟨L, hL, by rwa [add_zero] at hmute⟩
  · obtain ⟨L, hL, hmute⟩ := h
    by_cases he : Sendable P e
    · exact ⟨L, hL, (hmute.step e).1 he⟩
    · obtain ⟨L', hL', hmute'⟩ := (hmute.step e).2 he
      exact ⟨L' + L, fun hzero => hL' (Multiset.le_zero.mp (hzero ▸ Multiset.le_add_right L' L)), hmute'⟩
  · obtain ⟨L, hL, hmute⟩ := h
    exact hL (hmute.conserved_iff_lost.mp (h'.conserved_iff_lost.mpr rfl))

/-- The account balances at a quiescent point exactly when no pass has met a notification
without a send function. -/
theorem accountHolds_iff (hasSendFn hasDlqCallback : Bool) (es : List Event)
    (hquiet : (es.foldl step (opening hasSendFn hasDlqCallback)).Quiescent) :
    Conserved (es.foldl step (opening hasSendFn hasDlqCallback)) ↔
      AllMeet step Sendable (opening hasSendFn hasDlqCallback) es := by
  cases hasSendFn with
  | true =>
      have hopening : Sound hasDlqCallback (opening true hasDlqCallback) := by
        refine ⟨0, ⟨rfl, rfl, 0, ⟨rfl, rfl, rfl, rfl, (ite_self _).symm⟩⟩, fun _ => .idle⟩
      have hrun : Sound hasDlqCallback (es.foldl step (opening true hasDlqCallback)) :=
        foldl_keeps (fun _ e h => h.step e) es hopening
      refine iff_of_true (hrun.conserved hquiet) ?_
      refine allMeet_of_invariant (I := Sound hasDlqCallback) (fun P e h => ?_) (fun _ e h => h.step e) es hopening
      obtain ⟨own, hP⟩ := h
      exact fun _ _ _ => .inl hP.inv.1
  | false =>
      have hopening : Mute 0 (opening false hasDlqCallback) :=
        ⟨rfl, fun _ _ htask => (by cases htask), rfl, rfl, rfl, rfl, rfl, rfl⟩
      have hiff := mute_run_iff hopening es
      obtain ⟨L, hmute⟩ := foldl_keeps (I := fun P => ∃ L, Mute L P) (fun P e h => h.elim (fun L hL => hL.some_step e)) es
        ⟨0, hopening⟩
      rw [hmute.conserved_iff_lost, ← hiff]
      refine ⟨fun hzero => hzero ▸ hmute, fun hnone => ?_⟩
      exact hmute.conserved_iff_lost.mp (hnone.conserved_iff_lost.mpr rfl)

theorem tasks_answer (P : Queues) {task other : Nat} (h : other ≠ task) (outcome : Except String Bool) :
    (step P (.answer task outcome)).tasks other = P.tasks other := Pool.tasks_answer_of_ne h

def notice : QueuedNotification := { id := "n-1", channel := "telegram" }

theorem accountHolds_iff_sent : Conserved ([.enqueue notice, .process 0, .answer 0 (.ok true)].foldl step (opening true true)) := by
  have hquiet : ([.enqueue notice, .process 0, .answer 0 (.ok true)].foldl step (opening true true)).Quiescent := by
    intro task t htask
    by_cases h : task = 0
    · subst h
      cases htask
      exact ⟨_, rfl⟩
    · have hother : ([.enqueue notice, .process 0].foldl step (opening true true)).tasks task = none :=
        Function.update_of_ne h _ _
      have hanswer := tasks_answer ([.enqueue notice, .process 0].foldl step (opening true true)) h (.ok true)
      cases (hanswer.trans hother).symm.trans htask
  refine (accountHolds_iff true true _ hquiet).mpr ⟨?_, ?_, ?_, trivial⟩
  · exact fun _ he => (by cases he)
  · exact fun _ _ _ => .inl rfl
  · exact fun _ he => (by cases he)

/-- A notification is taken from a queue that cannot send it. -/
theorem unsendable_lost : ¬ Conserved ([.enqueue notice, .process 0].foldl step (opening false true)) := by
  intro hconserved
  exact absurd hconserved.balance (by decide)

end Utos.Notification.Queue
