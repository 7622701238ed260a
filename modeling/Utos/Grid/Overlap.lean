import Utos.Grid.BuyTerms
import Utos.Grid.CallTerms

namespace Utos.Grid.Overlap

open Coroutine Program Core.DomainTypes Core.Exceptions Execution.Models Execution.Service Execution.Exchange
open CircuitBreaker Engine Trading Invariant BuyTerms

variable {d d' : Desk Owner} {k : LevelKey}

/-- No level has two live buys. -/
def OneBuy (d : Desk Owner) : Prop :=
  ∀ (r r' : Nat) (o o' : Order Owner), d.orders[r]? = some o → d.orders[r']? = some o' → o.state = .live →
    o'.state = .live → o.side = .buy → o'.side = .buy → o.owner.key = o'.owner.key → r = r'

/-- The level has no live buy. -/
def Clear (d : Desk Owner) (k : LevelKey) : Prop :=
  ∀ (r : Nat) (o : Order Owner), d.orders[r]? = some o → o.state = .live → o.side = .buy → o.owner.key ≠ k

/-- The live orders of d' were live before. -/
def Shrinks (d d' : Desk Owner) : Prop :=
  ∀ (r : Nat) (o : Order Owner), d'.orders[r]? = some o → o.state = .live → d.orders[r]? = some o

theorem Shrinks.oneBuy (h : Shrinks d d') (hd : OneBuy d) : OneBuy d' :=
  fun r r' o o' ho ho' hl hl' => hd r r' o o' (h r o ho hl) (h r' o' ho' hl') hl hl'

theorem Shrinks.clear (h : Shrinks d d') (hd : Clear d k) : Clear d' k :=
  fun r o ho hl => hd r o (h r o ho hl) hl

theorem shrinks_of_map {f : Nat → Order Owner → Order Owner}
    (hf : ∀ r o, (f r o).state = .live → f r o = o)
    (h : ∀ r, d'.orders[r]? = (d.orders[r]?).map (f r)) : Shrinks d d' := by
  intro r o ho hl
  rw [h] at ho
  obtain ⟨o', ho', rfl⟩ := Option.map_eq_some_iff.mp ho
  rw [hf r o' hl]
  exact ho'

theorem shrinks_fill (d : Desk Owner) (ref : Nat) (quantity : ℚ) : Shrinks d (d.fill ref quantity) := by
  refine shrinks_of_map (fun r o hl => ?_) (d.fill_orders ref quantity)
  split at hl
  · cases hl
  next h => rw [if_neg h]

theorem shrinks_cancel (d : Desk Owner) (ref : Nat) : Shrinks d (d.cancel ref) := by
  refine shrinks_of_map (fun r o hl => ?_) (d.cancel_orders ref)
  split at hl
  · cases hl
  next h => rw [if_neg h]

theorem shrinks_settle (d : Desk Owner) (ref : Nat) (effect : CancelEffect) : Shrinks d (d.settle ref effect) := by
  cases effect with
  | cancelled => exact shrinks_cancel d ref
  | filled quantity => exact shrinks_fill d ref quantity
  | unchanged => exact fun _ _ ho _ => ho

theorem not_live_settle {ref : Nat} {effect : CancelEffect} (he : effect ≠ .unchanged) :
    ¬ (d.settle ref effect).IsLive ref := by
  rintro ⟨o, ho, hl⟩
  cases effect with
  | unchanged => exact he rfl
  | cancelled =>
      rw [Desk.settle, Desk.cancel_orders] at ho
      obtain ⟨o', -, rfl⟩ := Option.map_eq_some_iff.mp ho
      split at hl
      · cases hl
      next h => exact h ⟨rfl, hl⟩
  | filled quantity =>
      rw [Desk.settle, Desk.fill_orders] at ho
      obtain ⟨o', -, rfl⟩ := Option.map_eq_some_iff.mp ho
      split at hl
      · cases hl
      next h => exact h ⟨rfl, hl⟩

theorem eq_of_count_le_one {l : List Bool} (h : l.count true ≤ 1) {i j : Nat} (hi : l[i]? = some true)
    (hj : l[j]? = some true) : i = j := by
  induction l generalizing i j with
  | nil => simp at hi
  | cons b l ih =>
      cases b with
      | true =>
          have hnone : true ∉ l := fun hm => by
            have := List.count_pos_iff.mpr hm
            simp only [List.count_cons_self] at h
            omega
          cases i with
          | succ i => exact absurd (List.mem_of_getElem? (by simpa using hi)) hnone
          | zero =>
              cases j with
              | succ j => exact absurd (List.mem_of_getElem? (by simpa using hj)) hnone
              | zero => rfl
      | false =>
          cases i with
          | zero => simp at hi
          | succ i =>
              cases j with
              | zero => simp at hj
              | succ j =>
                  have hcount : l.count true ≤ 1 := by simpa using h
                  exact congrArg Nat.succ (ih hcount (by simpa using hi) (by simpa using hj))

theorem accept_cases {owner : Owner} {request : OrderRequest} {fate : PlaceFate} {r : Nat} {o : Order Owner}
    (ho : (d.accept owner request fate).orders[r]? = some o) (hl : o.state = .live) :
    d.orders[r]? = some o ∨ o.owner = owner ∧ o.side = request.side ∧ d.orders.length ≤ r ∧
      fate.orders[r - d.orders.length]? = some true := by
  rcases Nat.lt_or_ge r d.orders.length with hr | hr
  · simp only [Desk.accept, List.getElem?_append_left hr] at ho
    exact .inl ho
  · simp only [Desk.accept, List.getElem?_append_right hr, List.getElem?_map, Option.map_eq_some_iff] at ho
    obtain ⟨isLive, hf, rfl⟩ := ho
    cases isLive with
    | true => exact .inr ⟨rfl, rfl, hr, hf⟩
    | false => simp [Desk.newOrder] at hl

theorem clear_accept {owner : Owner} {request : OrderRequest} {fate : PlaceFate} (h : Clear d k)
    (hk : request.side = .buy → owner.key ≠ k) : Clear (d.accept owner request fate) k := by
  intro r o ho hl hside
  rcases accept_cases ho hl with hold | ⟨rfl, hs, -, -⟩
  · exact h r o hold hl hside
  · exact hk (hs ▸ hside)

theorem oneBuy_accept {owner : Owner} {request : OrderRequest} {fate : PlaceFate} (h : OneBuy d)
    (hone : fate.orders.count true ≤ 1) (hk : request.side = .buy → Clear d owner.key) :
    OneBuy (d.accept owner request fate) := by
  intro r r' o o' ho ho' hl hl' hs hs' hkey
  rcases accept_cases ho hl with hold | ⟨rfl, hside, hr, hf⟩
  · rcases accept_cases ho' hl' with hold' | ⟨rfl, hside', hr', hf'⟩
    · exact h r r' o o' hold hold' hl hl' hs hs' hkey
    · exact absurd hkey (hk (hside' ▸ hs') r o hold hl hs)
  · rcases accept_cases ho' hl' with hold' | ⟨howner, hside', hr', hf'⟩
    · exact absurd hkey.symm (hk (hside ▸ hs) r' o' hold' hl' hs')
    · have := eq_of_count_le_one hone hf hf'
      omega

/-- The calls that buy, any number of which may be under way at once. -/
inductive BuyCall
  | onPriceUpdate (today : Date) (instanceId : String) (price : ℚ)
  | forceBuy (instanceId : String) (level : Option Nat) (price quantity : Option ℚ)

def BuyCall.call : BuyCall → Call
  | onPriceUpdate today i p => .onPriceUpdate today i p
  | forceBuy i level price quantity => .forceBuy i level price quantity

/-- What a call announces, read off the state in which it starts. -/
def announced (evaluate : Evaluate) (s : GridEngine) : BuyCall → Intent
  | .onPriceUpdate today i p => { buys := announcedBuys evaluate s today i p }
  | .forceBuy i level _ _ => announcedForce s i level

theorem under_buyCall {evaluate : Evaluate} {s : GridEngine} (hs : Sound ∅ s) (c : BuyCall) :
    Under buyTerms (perform evaluate c.call) (fun _ _ _ => True) (announced evaluate s c) s := by
  cases c with
  | onPriceUpdate today i p => exact under_onPriceUpdate hs
  | forceBuy i level price quantity =>
      refine (under_bind _ _ _).mpr (under_mono (under_forceBuy hs) ?_)
      rintro (e | r) _ _ _ <;> trivial

/-- Calls under way, and what each is still going to buy on. -/
structure Crowd where
  pool : Pool GridEngine (Desk Owner) (ExecReq Owner) (ExecAns Owner) Exn Unit
  intents : Nat → Option Intent := fun _ => none

inductive Move
  | start (i : Nat) (c : BuyCall)
  | answer (i : Nat) (oracle : Oracle)
  | resume (i : Nat)
  | fill (ref : Nat) (quantity : ℚ)

namespace Crowd

def gather (s : Floor) : Crowd := ⟨⟨s.engine, s.desk, fun _ => none⟩, fun _ => none⟩

/-- The request a call waits on, and what it is going to buy on. -/
def pending (s : Crowd) (i : Nat) : Option (ExecReq Owner × Intent) :=
  match s.intents i, s.pool.tasks i with
  | some o, some (.asked q _) => some (q, o)
  | _, _ => none

/-- A call that has come to its end announces nothing any more. -/
def settled (s : Crowd) (i : Nat) : Crowd :=
  match s.pool.tasks i with
  | some (.done _) => { s with intents := Function.update s.intents i none }
  | _ => s

variable (evaluate : Evaluate)

def move (s : Crowd) : Move → Crowd
  | .start i c => match s.intents i with
      | none => settled ⟨s.pool.start i (perform evaluate c.call),
          Function.update s.intents i (some (announced evaluate s.pool.store c))⟩ i
      | some _ => s
  | .answer i oracle => match s.pending i with
      | none => s
      | some (q, o) => ⟨s.pool.act (deskHandler oracle) i, Function.update s.intents i (some (o.spend q))⟩
  | .resume i => settled { s with pool := s.pool.resume i } i
  | .fill ref quantity => { s with pool := { s.pool with world := s.pool.world.fill ref quantity } }

def moves (s : Crowd) (ms : List Move) : Crowd := ms.foldl (move evaluate) s

/-- The condition on the moves: a call starts only if no call under way is going to
touch a level that it is going to touch and no level it buys on has a live buy,
and the cancel in a force_buy takes the live buys of its level away. -/
def Meets (s : Crowd) : Move → Prop
  | .start i c => s.intents i = none →
      (∀ j o', s.intents j = some o' → (announced evaluate s.pool.store c).Apart o') ∧
        ∀ k ∈ (announced evaluate s.pool.store c).buys, Clear s.pool.world k
  | .answer i oracle => (∀ request, (oracle.place request).orders.count true ≤ 1) ∧
      ∀ acct orderId o k, s.pending i = some (.cancelOrder acct orderId, o) →
        o.replaces = some (k, acct, orderId) → ∀ (r : Nat) (order : Order Owner),
          s.pool.world.orders[r]? = some order → order.state = .live → order.side = .buy → order.owner.key = k →
            s.pool.world.index (acct, orderId) = some r ∧ (oracle.cancel r).effect ≠ .unchanged
  | .resume _ => True
  | .fill _ _ => True

def AllMeet (s : Crowd) : List Move → Prop
  | [] => True
  | m :: ms => s.Meets evaluate m ∧ AllMeet (s.move evaluate m) ms

end Crowd

/-- What holds after every move of a run that meets the condition. -/
structure Good (s : Crowd) : Prop where
  sound : s.pool.Sound buyTerms Intent.Apart s.intents
  oneBuy : OneBuy s.pool.world
  clear : ∀ i o, s.intents i = some o → ∀ k ∈ o.buys, Clear s.pool.world k

variable {evaluate : Evaluate} {s : Crowd}

theorem Good.settled (h : Good s) (i : Nat) : Good (s.settled i) := by
  unfold Crowd.settled
  split
  next r ht =>
    refine ⟨h.sound.forget ht, h.oneBuy, fun j o ho => ?_⟩
    rcases Pool.update_eq_some ho with ⟨-, hx⟩ | ⟨-, ho⟩
    · cases hx
    · exact h.clear j o ho
  next => exact h

theorem Good.start (h : Good s) {i : Nat} {c : BuyCall} (hi : s.intents i = none)
    (hm : s.Meets evaluate (.start i c)) :
    Good ⟨s.pool.start i (perform evaluate c.call),
      Function.update s.intents i (some (announced evaluate s.pool.store c))⟩ := by
  obtain ⟨hapart, hclear⟩ := hm hi
  refine ⟨(h.sound.start fair_apart (fun j o' _ ho' => hapart j o' ho') (under_buyCall h.sound.inv c)).1, h.oneBuy,
    fun j o ho => ?_⟩
  rcases Pool.update_eq_some ho with ⟨-, hx⟩ | ⟨-, ho⟩
  · cases hx
    exact hclear
  · exact h.clear j o ho

theorem Good.resume (h : Good s) (i : Nat) : Good { s with pool := s.pool.resume i } := by
  have hsound : (s.pool.resume i).Sound buyTerms Intent.Apart s.intents := by
    cases hi : s.intents i with
    | some o => exact (h.sound.resume fair_apart hi (fun _ _ _ _ => trivial)).1
    | none => exact (h.sound.resume_none hi).symm ▸ h.sound
  refine ⟨hsound, ?_, fun j o ho => ?_⟩
  · rw [Pool.resume_world]
    exact h.oneBuy
  · rw [Pool.resume_world]
    exact h.clear j o ho

theorem Good.fill (h : Good s) (ref : Nat) (quantity : ℚ) :
    Good { s with pool := { s.pool with world := s.pool.world.fill ref quantity } } :=
  ⟨⟨h.sound.inv, h.sound.tasks, h.sound.apart⟩, (shrinks_fill _ _ _).oneBuy h.oneBuy,
    fun i o ho k hk => (shrinks_fill _ _ _).clear (h.clear i o ho k hk)⟩

theorem pending_some {i : Nat} {q : ExecReq Owner} {o : Intent} (h : s.pending i = some (q, o)) :
    s.intents i = some o ∧ ∃ k, s.pool.tasks i = some (.asked q k) := by
  unfold Crowd.pending at h
  split at h
  next o' q' k ho ht =>
    simp only [Option.some.injEq, Prod.mk.injEq] at h
    obtain ⟨rfl, rfl⟩ := h
    exact ⟨ho, k, ht⟩
  next => cases h

theorem shrinks_settleById (d : Desk Owner) (oracle : Oracle) (key : Option UUID × OrderId) :
    Shrinks d (d.settleById oracle key) := by
  unfold Desk.settleById
  split
  · exact fun _ _ ho _ => ho
  · exact shrinks_settle d _ _

theorem placeOrder_keeps {o : Intent} {oracle : Oracle} {owner : Owner} {request : UUID → OrderRequest}
    (ha : o.Allows (.placeOrder owner request)) (hone : ∀ rq, (oracle.place rq).orders.count true ≤ 1)
    (hd : OneBuy d) (hclear : ∀ k ∈ o.buys, Clear d k) :
    OneBuy (deskHandler oracle d (.placeOrder owner request)).2 ∧
      ∀ k, Clear d k → ((request 0).side = .buy → owner.key ≠ k) →
        Clear (deskHandler oracle d (.placeOrder owner request)).2 k := by
  have hside := ha.1 d.asked.length
  rcases deskHandler_placeOrder oracle d owner request with heq | heq
  · simp only [OneBuy, Clear, heq]
    exact ⟨hd, fun k hk _ => hk⟩
  · simp only [OneBuy, Clear, heq]
    exact ⟨oneBuy_accept hd (hone _) (fun h => hclear _ (ha.2 (hside ▸ h))),
      fun k hk hne => clear_accept hk (fun h => hne (hside ▸ h))⟩

theorem spend_clear {o : Intent} {q : ExecReq Owner} {oracle : Oracle} (ha : o.Allows q)
    (hone : ∀ rq, (oracle.place rq).orders.count true ≤ 1) (hd : OneBuy d) (hclear : ∀ k ∈ o.buys, Clear d k)
    (hcancel : ∀ acct orderId k, q = .cancelOrder acct orderId → o.replaces = some (k, acct, orderId) →
      ∀ (r : Nat) (order : Order Owner), d.orders[r]? = some order → order.state = .live → order.side = .buy →
        order.owner.key = k → d.index (acct, orderId) = some r ∧ (oracle.cancel r).effect ≠ .unchanged) :
    ∀ k ∈ (o.spend q).buys, Clear (deskHandler oracle d q).2 k := by
  intro k hk
  cases q with
  | placeOrder owner request =>
      have hkeep := (placeOrder_keeps ha hone hd hclear).2 k
      simp only [Intent.spend] at hk
      cases hside : (request 0).side with
      | buy =>
          simp only [hside, Set.mem_sdiff, Set.mem_singleton_iff] at hk
          exact hkeep (hclear k hk.1) (fun _ h => hk.2 h.symm)
      | sell =>
          simp only [hside] at hk
          exact hkeep (hclear k hk) (fun h => by rw [hside] at h; cases h)
  | cancelOrder acct orderId =>
      rw [deskHandler_cancelOrder]
      have hkeep : k ∈ o.buys → Clear (d.settleById oracle (acct, orderId)) k :=
        fun h => (shrinks_settleById d oracle _).clear (hclear k h)
      simp only [Intent.spend] at hk
      split at hk
      next => exact hkeep hk
      next j key hr =>
        split at hk
        next hkey =>
          subst hkey
          rcases hk with rfl | hk
          · intro r order ho hl hside howner
            obtain ⟨hr', he⟩ := hcancel acct orderId k rfl hr r order
              (shrinks_settleById d oracle _ r order ho hl) hl hside howner
            rw [Desk.settleById, hr'] at ho
            exact not_live_settle he ⟨order, ho, hl⟩
          · exact hkeep hk
        next => exact hkeep hk

theorem Good.answer (h : Good s) {i : Nat} {q : ExecReq Owner} {o : Intent} {oracle : Oracle}
    (hp : s.pending i = some (q, o)) (hm : s.Meets evaluate (.answer i oracle)) :
    Good ⟨s.pool.act (deskHandler oracle) i, Function.update s.intents i (some (o.spend q))⟩ := by
  obtain ⟨ho, cont, ht⟩ := pending_some hp
  have hworld : (s.pool.act (deskHandler oracle) i).world = (deskHandler oracle s.pool.world q).2 := by
    rw [Pool.act_asked ht]
  have hallows : o.Allows q := (h.sound.task ht ho).1
  have hclear := h.clear i o ho
  refine ⟨h.sound.act fair_apart ht ho, ?_, fun j o' ho' => ?_⟩
  · rw [hworld]
    cases q with
    | placeOrder owner request => exact (placeOrder_keeps hallows hm.1 h.oneBuy hclear).1
    | cancelOrder acct orderId =>
        rw [deskHandler_cancelOrder]
        exact (shrinks_settleById _ _ _).oneBuy h.oneBuy
  · rw [hworld]
    rcases Pool.update_eq_some ho' with ⟨-, hx⟩ | ⟨hj, hoj⟩
    · cases hx
      exact spend_clear hallows hm.1 h.oneBuy hclear (fun acct orderId k hq => hm.2 acct orderId o k (hq ▸ hp))
    · intro k hk
      have hk' := h.clear j o' hoj k hk
      cases q with
      | placeOrder owner request =>
          refine (placeOrder_keeps hallows hm.1 h.oneBuy hclear).2 k hk' (fun hside hkey => ?_)
          have hapart := h.sound.apart i j o o' hj.symm ho hoj
          exact hapart _ (.inl (hallows.2 hside)) (.inl (hkey ▸ hk))
      | cancelOrder acct orderId =>
          rw [deskHandler_cancelOrder]
          exact (shrinks_settleById _ _ _).clear hk'

theorem Good.move (h : Good s) {m : Move} (hm : s.Meets evaluate m) : Good (s.move evaluate m) := by
  cases m with
  | start i c =>
      simp only [Crowd.move]
      split
      next hi => exact (h.start hi hm).settled i
      next => exact h
  | answer i oracle =>
      simp only [Crowd.move]
      split
      next => exact h
      next q o hp => exact h.answer hp hm
  | resume i => exact (h.resume i).settled i
  | fill ref quantity => exact h.fill ref quantity

/-- In every run of overlapping calls in which the condition is met at every
move, no level ever has two live buys. -/
theorem oneBuy_of_allMeet {s : Floor} (hs : s.Reachable evaluate) (hone : OneBuy s.desk) (ms : List Move)
    (h : (Crowd.gather s).AllMeet evaluate ms) : OneBuy ((Crowd.gather s).moves evaluate ms).pool.world := by
  have hrun : ∀ (ms : List Move) (s : Crowd), Good s → s.AllMeet evaluate ms → Good (s.moves evaluate ms) := by
    intro ms
    induction ms with
    | nil => exact fun s hs _ => hs
    | cons m ms ih => exact fun s hs hall => ih _ (hs.move hall.1) hall.2
  refine (hrun ms _ ⟨?_, hone, fun i o ho => by cases ho⟩ h).oneBuy
  exact Pool.sound_idle _ _ (Reach.reachable_sound hs)

def Crowd.cancelling (s : Crowd) (i : Nat) : Bool :=
  match s.pending i with
  | some (.cancelOrder _ _, _) => true
  | _ => false

theorem Crowd.meets_answer_of_not_cancelling {i : Nat} (h : s.cancelling i = false) :
    s.Meets evaluate (.answer i willing) := by
  refine ⟨fun _ => le_of_eq rfl, fun acct orderId o k hp => ?_⟩
  simp [Crowd.cancelling, hp] at h

/-- A grid that was activated at 95 waits on both levels. -/
def waiting : Floor :=
  (Floor.start true).runEvents (fun _ _ _ => true)
    [.call (.initializeGrid "grid" twoLevels) willing, .call (.activateGrid "grid" 95) willing]

theorem waiting_orders : waiting.desk.orders = [] := by decide +kernel

theorem oneBuy_waiting : OneBuy waiting.desk := by
  intro r r' o o' ho
  simp [waiting_orders] at ho

/-- One price update at 95, which buys on both levels. -/
def oneTick : List Move := [.start 0 (.onPriceUpdate 1 "grid" 95), .answer 0 willing, .resume 0, .answer 0 willing]

theorem oneBuy_of_allMeet_oneTick :
    OneBuy ((Crowd.gather waiting).moves (fun _ _ _ => true) oneTick).pool.world := by
  refine oneBuy_of_allMeet ⟨true, _, rfl⟩ oneBuy_waiting oneTick ⟨fun _ => ⟨fun j o' ho' => (by cases ho'), ?_⟩,
    Crowd.meets_answer_of_not_cancelling (by decide +kernel), trivial,
    Crowd.meets_answer_of_not_cancelling (by decide +kernel), trivial⟩
  intro k _ r o ho
  have hnone : waiting.desk.orders[r]? = some o := ho
  simp [waiting_orders] at hnone

/-- Two price updates at 95, the second of which comes while the placements of
the first are in flight. -/
def twoTicks : List Move :=
  [.start 0 (.onPriceUpdate 1 "grid" 95), .start 1 (.onPriceUpdate 1 "grid" 95), .answer 0 willing,
   .answer 1 willing]

theorem twoTicks_buy_twice :
    waiting.Reachable (fun _ _ _ => true) ∧ OneBuy waiting.desk ∧
      ¬ OneBuy ((Crowd.gather waiting).moves (fun _ _ _ => true) twoTicks).pool.world := by
  refine ⟨⟨true, _, rfl⟩, oneBuy_waiting, fun h => ?_⟩
  have hsame := h 0 1 { owner := .level ⟨"grid", 0⟩, side := .buy, price := some 100, quantity := 11 / 5
                        state := .live }
    { owner := .level ⟨"grid", 0⟩, side := .buy, price := some 100, quantity := 11 / 5, state := .live }
    (by decide +kernel) (by decide +kernel) rfl rfl rfl rfl rfl
  cases hsame

end Utos.Grid.Overlap
