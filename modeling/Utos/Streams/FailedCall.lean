import Utos.Coroutine.Trace
import Utos.Streams.SubscriptionManager

namespace Utos.Streams.FailedCall

open Coroutine Program Core.DomainTypes Core.Exceptions SubscriptionManager

variable {γ : Type}

/-- The two kinds of call with the name of the task they run as, and the id that uuid4
gives a subscribe call; the answer of subscribe_fn or unsubscribe_fn to a task, which may be an exception. -/
inductive Event (γ : Type)
  | subscribe (task : Nat) (uuid : ConsumerId) (exchange symbol channel : String) (callback : γ)
  | unsubscribe (task : Nat) (consumerId : ConsumerId)
  | answer (task : Nat) (answers : (q : Request γ) → Answer γ q)
  | resume (task : Nat)

def Event.task : Event γ → Nat
  | .subscribe task .. => task
  | .unsubscribe task _ => task
  | .answer task _ => task
  | .resume task => task

abbrev Calls (γ : Type) := Pool (Manager γ) Unit (Request γ) (Answer γ) Exn (Option ConsumerId)

def Manager.issue (m : Manager γ) (uuid : ConsumerId) : Manager γ := { m with issued := uuid }

def step (P : Calls γ) : Event γ → Calls γ
  | .subscribe task uuid exchange symbol channel callback =>
      { P with store := Manager.issue P.store uuid }.start task
        (SubscriptionManager.subscribe exchange symbol channel callback)
  | .unsubscribe task consumerId => P.start task (SubscriptionManager.unsubscribe consumerId)
  | .answer task answers => P.act (fun w q => (answers q, w)) task
  | .resume task => P.resume task

/-- A manager in any state, before the calls of a run. -/
def opening (m : Manager γ) : Calls γ := ⟨m, (), fun _ => none⟩

/-- The call is none of the task t, and neither is given nor given back the consumer id c. -/
def Event.Spares (t : Nat) (c : ConsumerId) : Event γ → Prop
  | .subscribe task uuid _ _ _ _ => task ≠ t ∧ uuid ≠ c
  | .unsubscribe task consumerId => task ≠ t ∧ consumerId ≠ c
  | .answer .. => True
  | .resume _ => True

/-- The maps are as if the call had not been made: the same entries, with their refcounts
and the callbacks that data is delivered to, and the same consumers. -/
def Traceless (after without : Manager γ) : Prop :=
  after.consumerMap = without.consumerMap ∧ after.logical = without.logical

/-- What a task does with its answer is done in one step, and is the same whatever the map of consumers is. -/
def Settles {q : Request γ} (k : Answer γ q → Operation γ) : Prop :=
  ∀ a, ∃ r, ∃ f : (LogicalKey → Option (Entry γ)) → LogicalKey → Option (Entry γ),
    ∀ m, (k a).advance m = (.done r, { m with logical := f m.logical })

def Settling : Task (Manager γ) (Request γ) (Answer γ) Exn (Option ConsumerId) → Prop
  | .asked _ k => Settles k
  | .answered _ _ k => Settles k
  | .done _ => True

theorem settles_install (exchange symbol channel : String) (callback callback' : γ) (key : LogicalKey) (c : ConsumerId) :
    Settles (q := .subscribeFn exchange symbol channel callback)
      (fun a => .bind (.lift (id a)) (install key c callback')) := by
  intro a
  cases a with
  | error e => exact ⟨.error e, id, fun m => rfl⟩
  | ok wsSubId =>
      exact ⟨.ok (some c), fun logical => Function.update logical key (some ⟨wsSubId, 1, [(c, callback')]⟩), fun m => rfl⟩

theorem settles_close (wsSubId : WsSubId) : Settles (γ := γ) (q := .unsubscribeFn wsSubId)
    (fun a => .bind (.lift (id a)) (fun _ => .ret none)) := by
  intro a
  cases a with
  | error e => exact ⟨.error e, id, fun m => rfl⟩
  | ok u => exact ⟨.ok none, id, fun m => rfl⟩

/-- The managers differ by what the map of consumers has for the consumer id of the call, if by anything. -/
structure Agree (c : ConsumerId) (left : Option LogicalKey) (m m' : Manager γ) : Prop where
  logical : m.logical = m'.logical
  consumers : m.consumerMap = Function.update m'.consumerMap c left
  fresh : m'.consumerMap c = none

/-- So do the pools, and no other task stands in another way. -/
structure Leftover (t : Nat) (c : ConsumerId) (left : Option LogicalKey) (P P' : Calls γ) : Prop where
  agree : Agree c left P.store P'.store
  others : ∀ i, i ≠ t → P.tasks i = P'.tasks i
  settling : ∀ i task, i ≠ t → P.tasks i = some task → Settling task

/-- The task of a subscribe call that subscribe_fn has not given a stream. -/
inductive Streamless (c : ConsumerId) (key : LogicalKey) :
    Option (Task (Manager γ) (Request γ) (Answer γ) Exn (Option ConsumerId)) → Prop
  | asked (exchange symbol channel : String) (callback : γ) :
      Streamless c key (some (.asked (.subscribeFn exchange symbol channel callback)
        (fun a => .bind (.lift (id a)) (install key c callback))))
  | answered (exchange symbol channel : String) (callback : γ) (e : Exn) :
      Streamless c key (some (.answered (.subscribeFn exchange symbol channel callback) (.error e)
        (fun a => .bind (.lift (id a)) (install key c callback))))
  | done (e : Exn) : Streamless c key (some (.done (.error e)))

/-- The task of a subscribe call that will return, or has. -/
inductive Succeeding (c : ConsumerId) (key : LogicalKey) :
    Option (Task (Manager γ) (Request γ) (Answer γ) Exn (Option ConsumerId)) → Prop
  | answered (exchange symbol channel : String) (callback : γ) (wsSubId : WsSubId) :
      Succeeding c key (some (.answered (.subscribeFn exchange symbol channel callback) (.ok wsSubId)
        (fun a => .bind (.lift (id a)) (install key c callback))))
  | done (r : Option ConsumerId) : Succeeding c key (some (.done (.ok r)))

/-- How the run with the call stands to the run without it, unless the call succeeds. -/
def Related (t : Nat) (c : ConsumerId) (key : LogicalKey) (P P' : Calls γ) : Prop :=
  Leftover t c (some key) P P' ∧ Streamless c key (P.tasks t) ∨ Succeeding c key (P.tasks t)

variable {t : Nat} {c : ConsumerId} {key : LogicalKey} {left : Option LogicalKey} {m m' : Manager γ} {P P' : Calls γ}

theorem Agree.consumer (h : Agree c left m m') {d : ConsumerId} (hd : d ≠ c) : m.consumerMap d = m'.consumerMap d := by
  rw [h.consumers, Function.update_of_ne hd]

theorem Agree.put (h : Agree c left m m') (key' : LogicalKey) (entry : Option (Entry γ)) :
    Agree c left (m.put key' entry) (m'.put key' entry) :=
  ⟨by rw [Manager.put, Manager.put, h.logical], h.consumers, h.fresh⟩

theorem Agree.assign (h : Agree c left m m') {d : ConsumerId} (hd : d ≠ c) (key' : Option LogicalKey) :
    Agree c left { m with consumerMap := Function.update m.consumerMap d key' }
      { m' with consumerMap := Function.update m'.consumerMap d key' } := by
  refine ⟨h.logical, ?_, ?_⟩
  · exact (congrArg (fun consumers => Function.update consumers d key') h.consumers).trans
      (Function.update_comm hd.symm _ _ _)
  · exact (Function.update_of_ne hd.symm _ _).trans h.fresh

theorem Agree.register (h : Agree c left m m') {uuid : ConsumerId} (hd : uuid ≠ c) (key' : LogicalKey) :
    Agree c left ((Manager.issue m uuid).register key') ((Manager.issue m' uuid).register key') :=
  let hassign := h.assign hd (some key')
  ⟨hassign.logical, hassign.consumers, hassign.fresh⟩

/-- Another subscribe call does the same on both managers. -/
theorem Agree.subscribe (h : Agree c left m m') {uuid : ConsumerId} (hd : uuid ≠ c) (exchange symbol channel : String)
    (callback : γ) : ∃ task n n',
      (SubscriptionManager.subscribe exchange symbol channel callback).advance (Manager.issue m uuid) = (task, n) ∧
      (SubscriptionManager.subscribe exchange symbol channel callback).advance (Manager.issue m' uuid) = (task, n') ∧
      Agree c left n n' ∧ Settling task := by
  have hregister := h.register hd (logicalKey exchange symbol channel)
  have hlogical : (Manager.issue m uuid).logical = (Manager.issue m' uuid).logical := h.logical
  simp only [SubscriptionManager.subscribe, advance, hlogical]
  cases (Manager.issue m' uuid).logical (logicalKey exchange symbol channel) with
  | none => exact ⟨_, _, _, rfl, rfl, hregister, settles_install exchange symbol channel callback callback _ _⟩
  | some entry => exact ⟨_, _, _, rfl, rfl, hregister.put _ _, trivial⟩

theorem Agree.unsubscribe (h : Agree c left m m') {d : ConsumerId} (hd : d ≠ c) : ∃ task n n',
    (SubscriptionManager.unsubscribe (γ := γ) d).advance m = (task, n) ∧
    (SubscriptionManager.unsubscribe (γ := γ) d).advance m' = (task, n') ∧ Agree c left n n' ∧ Settling task := by
  have hassign := h.assign hd none
  simp only [SubscriptionManager.unsubscribe, advance, h.consumer hd]
  cases m'.consumerMap d with
  | none => exact ⟨_, _, _, rfl, rfl, h, trivial⟩
  | some key' =>
      simp only [h.logical] at hassign
      simp only [advance, h.logical]
      cases m'.logical key' with
      | none => exact ⟨_, _, _, rfl, rfl, hassign, trivial⟩
      | some entry =>
          dsimp only
          split
          next => exact ⟨_, _, _, rfl, rfl, hassign.put _ _, settles_close _⟩
          next => exact ⟨_, _, _, rfl, rfl, hassign.put _ _, trivial⟩

theorem Agree.settle (h : Agree c left m m') {q : Request γ} {k : Answer γ q → Operation γ} (hk : Settles k)
    (a : Answer γ q) : ∃ r n n', (k a).advance m = (.done r, n) ∧ (k a).advance m' = (.done r, n') ∧
      Agree c left n n' := by
  obtain ⟨r, f, hf⟩ := hk a
  exact ⟨r, _, _, hf m, hf m', congrArg f h.logical, h.consumers, h.fresh⟩

theorem Leftover.write (h : Leftover t c left P P') {i : Nat} (hagree : Agree c left m m')
    {task : Task (Manager γ) (Request γ) (Answer γ) Exn (Option ConsumerId)} (htask : Settling task) :
    Leftover t c left { P with store := m, tasks := Function.update P.tasks i (some task) }
      { P' with store := m', tasks := Function.update P'.tasks i (some task) } := by
  refine ⟨hagree, fun j hj => ?_, fun j task' hj hj' => ?_⟩ <;> dsimp only at *
  · by_cases hji : j = i
    · rw [hji, Function.update_self, Function.update_self]
    · rw [Function.update_of_ne hji, Function.update_of_ne hji, h.others j hj]
  · by_cases hji : j = i
    · rw [hji, Function.update_self, Option.some.injEq] at hj'
      exact hj' ▸ htask
    · rw [Function.update_of_ne hji] at hj'
      exact h.settling j task' hj hj'

theorem Leftover.step (h : Leftover t c left P P') {e : Event γ} (he : e.Spares t c) (hi : e.task ≠ t) :
    Leftover t c left (FailedCall.step P e) (FailedCall.step P' e) := by
  cases e with
  | subscribe i uuid exchange symbol channel callback =>
      obtain ⟨task, n, n', hn, hn', hagree, hsettling⟩ := h.agree.subscribe he.2 exchange symbol channel callback
      rw [FailedCall.step, FailedCall.step, Pool.start, Pool.start, hn, hn']
      exact h.write hagree hsettling
  | unsubscribe i d =>
      obtain ⟨task, n, n', hn, hn', hagree, hsettling⟩ := h.agree.unsubscribe he.2
      rw [FailedCall.step, FailedCall.step, Pool.start, Pool.start, hn, hn']
      exact h.write hagree hsettling
  | answer i answers =>
      simp only [FailedCall.step, Pool.act, ← h.others i hi]
      split
      next q k htask =>
        have hsettles : Settles k := h.settling i _ hi htask
        exact h.write h.agree hsettles
      next => exact h
  | resume i =>
      simp only [FailedCall.step, Pool.resume, ← h.others i hi]
      split
      next q a k htask =>
        obtain ⟨r, n, n', hn, hn', hagree⟩ := h.agree.settle (h.settling i _ hi htask) a
        rw [Pool.start, Pool.start, hn, hn']
        exact h.write hagree trivial
      next => exact h

/-- What the call's own task does is not seen by the others until it has a stream. -/
theorem Leftover.own (h : Leftover t c left P P')
    (task : Option (Task (Manager γ) (Request γ) (Answer γ) Exn (Option ConsumerId))) :
    Leftover t c left { P with tasks := Function.update P.tasks t task } P' := by
  refine ⟨h.agree, fun i hi => ?_, fun i task' hi htask => ?_⟩ <;> dsimp only at *
  · rw [Function.update_of_ne hi, h.others i hi]
  · rw [Function.update_of_ne hi] at htask
    exact h.settling i task' hi htask

theorem tasks_step {e : Event γ} (hi : e.task ≠ t) : (FailedCall.step P e).tasks t = P.tasks t := by
  cases e with
  | subscribe i | unsubscribe i => exact Function.update_of_ne hi.symm _ _
  | answer i answers =>
      simp only [FailedCall.step, Pool.act]
      split
      next => exact Function.update_of_ne hi.symm _ _
      next => rfl
  | resume i =>
      simp only [FailedCall.step, Pool.resume]
      split
      next => exact Function.update_of_ne hi.symm _ _
      next => rfl

theorem Related.step (h : Related t c key P P') {e : Event γ} (he : e.Spares t c) (hi : e.task ≠ t) :
    Related t c key (FailedCall.step P e) (FailedCall.step P' e) := by
  rw [Related, tasks_step hi]
  exact h.imp_left (fun ⟨hleft, htask⟩ => ⟨hleft.step he hi, htask⟩)

theorem Succeeding.step {e : Event γ} (h : Succeeding c key (P.tasks t)) (he : e.Spares t c) (hi : e.task = t) :
    Succeeding c key ((FailedCall.step P e).tasks t) := by
  cases e with
  | subscribe i | unsubscribe i => exact absurd hi he.1
  | answer i answers =>
      obtain rfl : i = t := hi
      generalize htask : P.tasks i = task at h
      cases h with
      | answered exchange symbol channel callback wsSubId =>
          simp only [FailedCall.step, Pool.act, htask]
          exact .answered ..
      | done r =>
          simp only [FailedCall.step, Pool.act, htask]
          exact .done r
  | resume i =>
      obtain rfl : i = t := hi
      generalize htask : P.tasks i = task at h
      cases h with
      | answered exchange symbol channel callback wsSubId =>
          simp only [FailedCall.step, Pool.resume, htask, Pool.start, Function.update_self]
          exact .done (some c)
      | done r =>
          simp only [FailedCall.step, Pool.resume, htask]
          exact .done r

theorem Related.own (h : Related t c key P P') {e : Event γ} (he : e.Spares t c) (hi : e.task = t) :
    Related t c key (FailedCall.step P e) P' := by
  rcases h with ⟨hleft, htask⟩ | hsucceeds
  · cases e with
    | subscribe i | unsubscribe i => exact absurd hi he.1
    | answer i answers =>
        obtain rfl : i = t := hi
        generalize hown : P.tasks i = task at htask
        cases htask with
        | asked exchange symbol channel callback =>
            simp only [FailedCall.step, Pool.act, hown, Related, Function.update_self]
            cases answers (.subscribeFn exchange symbol channel callback) with
            | error e => exact .inl ⟨hleft.own _, .answered ..⟩
            | ok wsSubId => exact .inr (.answered ..)
        | answered exchange symbol channel callback e =>
            simp only [FailedCall.step, Pool.act, hown, Related]
            exact .inl ⟨hleft, .answered ..⟩
        | done e =>
            simp only [FailedCall.step, Pool.act, hown, Related]
            exact .inl ⟨hleft, .done e⟩
    | resume i =>
        obtain rfl : i = t := hi
        generalize hown : P.tasks i = task at htask
        cases htask with
        | asked exchange symbol channel callback =>
            simp only [FailedCall.step, Pool.resume, hown, Related]
            exact .inl ⟨hleft, .asked ..⟩
        | answered exchange symbol channel callback e =>
            simp only [FailedCall.step, Pool.resume, hown, Related, Pool.start, Function.update_self]
            exact .inl ⟨hleft.own _, .done e⟩
        | done e =>
            simp only [FailedCall.step, Pool.resume, hown, Related]
            exact .inl ⟨hleft, .done e⟩
  · exact .inr (hsucceeds.step he hi)

theorem leftover_opening (hc : m.consumerMap c = none) : Leftover t c none (opening m) (opening m) := by
  refine ⟨⟨rfl, ?_, hc⟩, fun i _ => rfl, fun i task _ htask => by cases htask⟩
  exact (Function.update_eq_self_iff.mpr hc.symm).symm

/-- Until the call the runs are one and the same. -/
theorem leftover_before (hc : m.consumerMap c = none) (before : List (Event γ)) (h : ∀ e ∈ before, e.Spares t c) :
    let P := before.foldl FailedCall.step (opening m)
    let P' := (before.filter (fun e => e.task ≠ t)).foldl FailedCall.step (opening m)
    Leftover t c none P P' ∧ P.tasks t = none := by
  refine foldl_filter_related (R := fun P P' => Leftover t c none P P' ∧ P.tasks t = none) ?_ ?_
    ⟨leftover_opening hc, rfl⟩
  · rintro P P' e he hi ⟨hleft, htask⟩
    exact ⟨hleft.step (h e he) hi, (tasks_step hi).trans htask⟩
  · rintro P P' e he hi ⟨hleft, htask⟩
    have hsame : FailedCall.step P e = P := by
      have hi := not_not.mp hi
      cases e with
      | subscribe i | unsubscribe i => exact absurd hi (h _ he).1
      | answer i answers =>
          obtain rfl : i = t := hi
          simp only [FailedCall.step, Pool.act, htask]
      | resume i =>
          obtain rfl : i = t := hi
          simp only [FailedCall.step, Pool.resume, htask]
    rw [hsame]
    exact ⟨hleft, htask⟩

/-- The call joins an entry, or asks for a stream with its consumer id in the map. -/
theorem related_call (h : Leftover t c none P P') (exchange symbol channel : String) (callback : γ) :
    Related t c (logicalKey exchange symbol channel) (FailedCall.step P (.subscribe t c exchange symbol channel callback))
      P' := by
  have hassign : Agree c (some (logicalKey exchange symbol channel))
      ((Manager.issue P.store c).register (logicalKey exchange symbol channel)) P'.store := by
    refine ⟨h.agree.logical, ?_, h.agree.fresh⟩
    exact (congrArg (fun consumers => Function.update consumers c _) h.agree.consumers).trans
      (Function.update_idem _ _ _)
  simp only [FailedCall.step, Pool.start, SubscriptionManager.subscribe, advance, Related, Function.update_self]
  cases (Manager.issue P.store c).logical (logicalKey exchange symbol channel) with
  | some entry => exact .inr (.done _)
  | none =>
      refine .inl ⟨⟨hassign, fun i hi => ?_, fun i task hi htask => ?_⟩, .asked ..⟩ <;> dsimp only at *
      · rw [Function.update_of_ne hi, h.others i hi]
      · rw [Function.update_of_ne hi] at htask
        exact h.settling i task hi htask

/-- The run with the call stands to the run without it as the call left things. -/
theorem related_run (hc : m.consumerMap c = none) {before after : List (Event γ)} (exchange symbol channel : String)
    (callback : γ) (h : ∀ e ∈ before ++ after, e.Spares t c) :
    Related t c (logicalKey exchange symbol channel)
      ((before ++ .subscribe t c exchange symbol channel callback :: after).foldl FailedCall.step (opening m))
      (((before ++ .subscribe t c exchange symbol channel callback :: after).filter (fun e => e.task ≠ t)).foldl
        FailedCall.step (opening m)) := by
  obtain ⟨hleft, -⟩ := leftover_before hc before (fun e he => h e (List.mem_append_left _ he))
  have hcall : ¬ ((Event.subscribe t c exchange symbol channel callback).task ≠ t) := fun hne => hne rfl
  have hafter := fun e (he : e ∈ after) => h e (List.mem_append_right _ he)
  rw [List.filter_append, List.filter_cons, if_neg (fun hne => hcall (of_decide_eq_true hne)), List.foldl_append,
    List.foldl_append, List.foldl_cons]
  exact foldl_filter_related (fun P P' e he hi hrelated => hrelated.step (hafter e he) hi)
    (fun P P' e he hi hrelated => hrelated.own (hafter e he) (not_not.mp hi)) (related_call hleft _ _ _ _)

/-- A call whose subscribe_fn raises leaves the entries as they would be without it, and
its consumer id in the map. -/
theorem failedCall_leaves_id (m : Manager γ) (before after : List (Event γ)) (exchange symbol channel : String)
    (callback : γ) {t : Nat} {c : ConsumerId} (hc : m.consumerMap c = none)
    (h : ∀ e ∈ before ++ after, e.Spares t c) {e : Exn}
    (hraised : ((before ++ .subscribe t c exchange symbol channel callback :: after).foldl step
      (opening m)).tasks t = some (.done (.error e))) :
    let ran := (before ++ .subscribe t c exchange symbol channel callback :: after).foldl step (opening m)
    let without := ((before ++ .subscribe t c exchange symbol channel callback :: after).filter
      (fun e => e.task ≠ t)).foldl step (opening m)
    ran.store.logical = without.store.logical ∧
      ran.store.consumerMap =
        Function.update without.store.consumerMap c (some (logicalKey exchange symbol channel)) ∧
      ¬ Traceless ran.store without.store := by
  intro ran without
  rcases related_run hc exchange symbol channel callback h with ⟨hleft, -⟩ | hsucceeds
  · refine ⟨hleft.agree.logical, hleft.agree.consumers, fun htraceless => ?_⟩
    have hleftover : ran.store.consumerMap c = some (logicalKey exchange symbol channel) :=
      (congrFun hleft.agree.consumers c).trans (Function.update_self ..)
    cases hleftover.symm.trans ((congrFun htraceless.1 c).trans hleft.agree.fresh)
  · rw [hraised] at hsucceeds
    cases hsucceeds

def subscribeFailed : Exn := .exchange .exchangeConnectionError "Subscribe failed for BTCUSDT ticker" "binance" none

/-- A call for a stream of tickers that the connector fails to open. -/
def refused : List (Event Unit) :=
  [.subscribe 0 7 "binance" "BTCUSDT" "ticker" (),
   .answer 0 (fun
     | .subscribeFn .. => .error subscribeFailed
     | .unsubscribeFn _ => .ok ()),
   .resume 0]

theorem failedCall_leaves_id_refused :
    let ran := refused.foldl step (opening {})
    let without := (refused.filter (fun e => e.task ≠ 0)).foldl step (opening {})
    ran.store.logical = without.store.logical ∧
      ran.store.consumerMap =
        Function.update without.store.consumerMap 7 (some (logicalKey "binance" "BTCUSDT" "ticker")) ∧
      ¬ Traceless ran.store without.store :=
  failedCall_leaves_id {} [] (refused.drop 1) "binance" "BTCUSDT" "ticker" () rfl
    (by simp [refused, Event.Spares]) (e := subscribeFailed) rfl

/-- The refused call is still in the map of consumers when it has raised. -/
theorem refused_leaves_trace : ¬ ∀ (m : Manager Unit) (before after : List (Event Unit))
    (exchange symbol channel : String) (t : Nat) (c : ConsumerId) (e : Exn), m.consumerMap c = none →
    (∀ event ∈ before ++ after, event.Spares t c) →
    ((before ++ .subscribe t c exchange symbol channel () :: after).foldl step (opening m)).tasks t =
      some (.done (.error e)) →
    Traceless ((before ++ .subscribe t c exchange symbol channel () :: after).foldl step (opening m)).store
      (((before ++ .subscribe t c exchange symbol channel () :: after).filter (fun event => event.task ≠ t)).foldl step
        (opening m)).store := by
  intro h
  have htraceless := h {} [] (refused.drop 1) "binance" "BTCUSDT" "ticker" 0 7
    subscribeFailed rfl (by simp [refused, Event.Spares]) rfl
  cases congrFun htraceless.1 7

end Utos.Streams.FailedCall
