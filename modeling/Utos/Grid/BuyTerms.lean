import Utos.Grid.Terms
import Utos.Coroutine.Pool

namespace Utos.Grid.BuyTerms

open Coroutine Program Core.DomainTypes Core.Exceptions Execution.Models Execution.Service State
open CircuitBreaker Planner Engine Invariant
open ProfitLock.State (ProfitLockState ProfitLockStatus)

/-- The levels a call is still going to buy on, and the level on which it first
cancels an order, with the id of that order. -/
structure Intent where
  buys : Set LevelKey := ∅
  replaces : Option (LevelKey × Option UUID × OrderId) := none

namespace Intent

/-- A level is bought on once; the level whose order is being replaced is bought on after the cancel. -/
def spend (o : Intent) : ExecReq Owner → Intent
  | .placeOrder owner request => match (request 0).side with
    | .buy => { o with buys := o.buys \ {owner.key} }
    | .sell => o
  | .cancelOrder exchangeAccountId orderId => match o.replaces with
    | none => o
    | some (k, key) =>
        if key = (exchangeAccountId, orderId) then { buys := insert k o.buys, replaces := none } else o

def Allows (o : Intent) : ExecReq Owner → Prop
  | .placeOrder owner request => (∀ id, (request id).side = (request 0).side) ∧
      ((request 0).side = .buy → owner.key ∈ o.buys)
  | .cancelOrder _ _ => True

/-- The levels that a call is going to touch. -/
def levels (o : Intent) : Set LevelKey := o.buys ∪ {k | ∃ key, o.replaces = some (k, key)}

def Apart (o o' : Intent) : Prop := ∀ k ∈ o.levels, k ∉ o'.levels

theorem levels_spend (o : Intent) (q : ExecReq Owner) : (o.spend q).levels ⊆ o.levels := by
  cases q with
  | placeOrder owner request =>
      simp only [spend]
      split
      · exact Set.union_subset_union_left _ Set.sdiff_subset
      · exact subset_rfl
  | cancelOrder acct orderId =>
      simp only [spend]
      split
      · exact subset_rfl
      next k key hr =>
        split
        · rintro j (hj | ⟨key', hj⟩)
          · rcases hj with rfl | hj
            · exact .inr ⟨key, hr⟩
            · exact .inl hj
          · cases hj
        · exact subset_rfl

end Intent

/-- The terms of calls that overlap: each buys only on the levels it has
announced, and counts on nothing but the invariant. -/
def buyTerms : Protocol GridEngine (ExecReq Owner) (ExecAns Owner) Intent where
  inv := Sound ∅
  guar _ _ _ := True
  rely _ _ _ := True
  asks o _ q := o.Allows q
  spend := Intent.spend

@[simp] theorem buyTerms_inv : buyTerms.inv = Sound ∅ := rfl

@[simp] theorem buyTerms_guar (o : Intent) (s s' : GridEngine) : buyTerms.guar o s s' ↔ True := Iff.rfl

@[simp] theorem buyTerms_asks (o : Intent) (s : GridEngine) (q : ExecReq Owner) :
    buyTerms.asks o s q ↔ o.Allows q := Iff.rfl

@[simp] theorem buyTerms_spend (o : Intent) (q : ExecReq Owner) : buyTerms.spend o q = o.spend q := rfl

theorem fair_apart : buyTerms.Fair Intent.Apart where
  symm _ _ h k hk hk' := h k hk' hk
  spend o _ q h k hk := h k (o.levels_spend q hk)
  refl _ _ := trivial
  trans _ _ _ _ _ _ := trivial
  guar _ _ _ _ _ _ := trivial
  asks _ _ _ _ h _ := h

variable {o : Intent} {α : Type}

theorem steady_cancelOrder (hn : o.replaces = none) (acct : Option UUID) (orderId : OrderId) :
    Steady buyTerms o (cancelOrder acct orderId : Op OrderResult) :=
  steady_await _ (fun _ _ => trivial) (by simp [Intent.spend, hn])

theorem steady_placeSell {owner : Owner} {request : UUID → OrderRequest} (hside : ∀ id, (request id).side = .sell) :
    Steady buyTerms o (placeOrder owner request : Op OrderResult) :=
  steady_await _ (fun _ _ => ⟨fun id => (hside id).trans (hside 0).symm, fun h => by rw [hside 0] at h; cases h⟩)
    (by simp [Intent.spend, hside 0])

theorem steady_attemptGrids {f : State.Store → Except Exn (Unit × State.Store)}
    (hf : ∀ grids a grids', Numbered grids → f grids = .ok (a, grids') → Numbered grids') :
    Steady buyTerms o (attemptGrids f) := by
  intro s hs
  rw [Terms.under_attemptGrids]
  split
  next a grids' hg =>
    have h := hs.withGrids (hf s.grids a grids' hs.numbered hg)
    exact ⟨h, trivial, rfl, h⟩
  next => exact ⟨rfl, hs⟩

theorem steady_updateLevel {i : String} {n : Nat} {f : GridLevel → GridLevel}
    (hf : ∀ lv, (f lv).level = lv.level) :
    Steady buyTerms o (attemptGrids (fun grids => grids.updateLevel i n f)) :=
  steady_attemptGrids (fun grids a grids' h hg => by
    obtain ⟨-, rfl⟩ := State.Store.updateLevel_ok hg
    exact h.assignLevel i n f hf)

theorem steady_transitionLevel {i : String} {n : Nat} {target : GridLevelStatus} :
    Steady buyTerms o (attemptGrids (fun grids => grids.transitionLevel i n target)) :=
  steady_attemptGrids (fun grids a grids' h hg => by
    obtain ⟨lv, -, -, rfl⟩ := State.Store.transitionLevel_ok hg
    exact h.assignLevel i n (setStatus target) (fun _ => rfl))

theorem steady_cancelPendingBuy (hn : o.replaces = none) (i : String) (acct : Option UUID) (n : Nat) :
    Steady buyTerms o (cancelPendingBuy i acct n) := by
  refine steady_read_bind (fun s hs => ?_)
  split
  next => exact steady_ret ()
  next lv hlv =>
    split
    next =>
      refine steady_tryCatch (steady_bind (steady_cancelOrder hn acct _) (fun _ => ?_)) (fun _ => steady_ret ())
      exact steady_modify (fun s hs => ⟨hs.withGrids (hs.numbered.assignLevel i n _ (setOrderId_level _ _)), trivial⟩)
    next => exact steady_ret ()

theorem steady_cancelAllPendingBuys (hn : o.replaces = none) (i : String) :
    Steady buyTerms o (cancelAllPendingBuys i) := by
  refine steady_read_bind (fun s hs => ?_)
  split
  next => exact steady_ret ()
  next g _ => exact steady_forEach (fun n _ => steady_cancelPendingBuy hn i _ n)

theorem steady_cancelGridOrder (hn : o.replaces = none) (i : String) (a : GridAction) :
    Steady buyTerms o (cancelGridOrder i a) := by
  refine steady_read_bind (fun s hs => ?_)
  split
  next => exact steady_raise _
  next => exact steady_ret ()
  next =>
    exact steady_bind (steady_cancelOrder hn _ _) (fun _ =>
      steady_bind (steady_updateLevel (setOrderId_level _ _)) (fun _ => steady_transitionLevel))

theorem steady_placed {i : String} {n : Nat} {side : OrderSide} {orderId : OrderId} {β : Type} (b : β) :
    Steady buyTerms o (.bind (attemptGrids (fun grids => grids.updateLevel i n (setOrderId side orderId))) (fun _ =>
      .bind (attemptGrids (fun grids => grids.transitionLevel i n .opened)) (fun _ => .ret b))) :=
  steady_bind (steady_updateLevel (setOrderId_level _ _)) (fun _ =>
    steady_bind steady_transitionLevel (fun _ => steady_ret b))

theorem steady_placeSellOrder (i : String) (a : GridAction) (hside : a.side = .sell) :
    Steady buyTerms o (placeGridOrder i a) := by
  refine steady_read_bind (fun s hs => ?_)
  split
  next => exact steady_raise _
  next => exact steady_bind (steady_placeSell (fun _ => hside)) (fun result => steady_placed _)

theorem under_placeBuyOrder {i : String} {a : GridAction} {s : GridEngine} (hs : Sound ∅ s) (hside : a.side = .buy)
    (hbuy : (⟨i, a.level⟩ : LevelKey) ∈ o.buys) :
    Under buyTerms (placeGridOrder i a) (fun _ o' s' => Sound ∅ s' ∧ o'.replaces = o.replaces ∧
      o.buys \ {⟨i, a.level⟩} ⊆ o'.buys) o s := by
  rw [placeGridOrder, bind_eq, under_bind, under_read, thenUnder_ok]
  split
  next => exact ⟨hs, rfl, Set.sdiff_subset⟩
  next state _ =>
    rw [bind_eq, under_bind, placeOrder, under_await]
    refine ⟨⟨fun _ => rfl, fun _ => hbuy⟩, fun r s' _ hs' _ => ?_⟩
    have hspend : buyTerms.spend o (.placeOrder (.level ⟨i, a.level⟩) (limitOrder state a.side a.quantity
        (some a.price))) = { o with buys := o.buys \ {⟨i, a.level⟩} } := by
      simp only [buyTerms_spend, Intent.spend, limitOrder, hside, Owner.key]
    rw [hspend]
    cases r with
    | error e => exact ⟨hs', rfl, subset_rfl⟩
    | ok result =>
        refine under_mono (steady_placed _ s' hs') ?_
        rintro r o' s'' ⟨rfl, hs''⟩
        exact ⟨hs'', rfl, subset_rfl⟩

theorem steady_lockTransition {k : LevelKey} {target : ProfitLockStatus}
    (ht : target ≠ .monitoring ∧ target ≠ .cancelled) :
    Steady buyTerms o (zoom locksLens (ProfitLock.Engine.transition k target)) :=
  steady_zoom_attempt _ (fun _ _ _ hs hl => ⟨hs.transition ht hl, trivial⟩)

theorem steady_lockAssign {k : LevelKey} {f : ProfitLockState → ProfitLockState}
    (hside : ∀ st, (f st).side = st.side) (hen : ∀ st, (f st).enabled = st.enabled)
    (hst : ∀ st, (f st).status = st.status) :
    Steady buyTerms o (zoom locksLens (ProfitLock.Engine.assign k f)) :=
  steady_zoom_modify _ (fun _ hs => ⟨hs.assignLock k f hside hen hst, trivial⟩)

theorem steady_placeLockOrder (k : LevelKey) (p : ℚ) :
    Steady buyTerms o (onLocks (ProfitLock.Engine.placeLockOrder .lock k p)) := by
  refine steady_zoom_read_bind _ (fun s hs => ?_)
  split
  next => exact steady_raise _
  next st hk =>
    have hside : ∀ id, (ProfitLock.Engine.lockRequest st p id).side = .sell := by
      simp [ProfitLock.Engine.lockRequest, (hs.locksOk k st hk).1]
    simp only [bind_eq, tryCatch_eq, zoom_bind, zoom_tryCatch]
    refine steady_bind (steady_lockTransition (by decide)) (fun _ => steady_tryCatch ?_ (fun e => ?_))
    · refine steady_bind (steady_zoom_await _ _ ?_ ?_) (fun result => steady_bind ?_ (fun _ => steady_ret true))
      · exact fun _ _ => ⟨fun id => (hside id).trans (hside 0).symm, fun h => by rw [hside 0] at h; cases h⟩
      · simp [Intent.spend, hside 0]
      · exact steady_lockAssign (fun _ => rfl) (fun _ => rfl) (fun _ => rfl)
    · exact steady_bind (steady_lockTransition (by decide)) (fun _ => steady_raise _)

theorem steady_handleTrigger (k : LevelKey) (p : ℚ) (lockPrice : Option ℚ) :
    Steady buyTerms o (onLocks (ProfitLock.Engine.handleTrigger (ω := Owner) k p lockPrice)) := by
  refine steady_zoom_read_bind _ (fun s hs => ?_)
  have hnote : ∀ q : ℚ, Steady buyTerms o (zoom locksLens (ProfitLock.Engine.assign (ω := Owner) k (fun st =>
      { st with isTriggered := true, highestPrice := some (ProfitLock.Engine.raisedHigh st.highestPrice p)
                lockPrice := some q }))) :=
    fun q => steady_lockAssign (fun _ => rfl) (fun _ => rfl) (fun _ => rfl)
  split
  next st q hk =>
    split
    next =>
      simp only [bind_eq, zoom_bind]
      exact steady_bind (steady_lockTransition (by decide)) (fun _ => hnote q)
    next => exact hnote q
  next => exact steady_ret ()

theorem steady_handleUpdate (k : LevelKey) (p : ℚ) (lockPrice : Option ℚ) :
    Steady buyTerms o (onLocks (ProfitLock.Engine.handleUpdate (ω := Owner) k p lockPrice)) := by
  refine steady_zoom_read_bind _ (fun s hs => ?_)
  split
  next => exact steady_lockAssign (fun _ => rfl) (fun _ => rfl) (fun _ => rfl)
  next => exact steady_ret ()

theorem steady_lockPriceUpdate (k : LevelKey) (p : ℚ) :
    Steady buyTerms o (onLocks (ProfitLock.Engine.onPriceUpdate .lock k p)) := by
  refine steady_zoom_read_bind _ (fun s hs => ?_)
  split
  next => exact steady_ret ()
  next st _ =>
    split
    · exact steady_ret ()
    · split
      · exact steady_ret ()
      · simp only [bind_eq, zoom_bind]
        refine steady_bind (fun s hs => by rw [under_zoom_lift]; exact ⟨rfl, hs⟩) (fun profit => ?_)
        unfold ProfitLock.Engine.act
        split
        · exact steady_ret ()
        · exact steady_handleTrigger k p _
        · exact steady_handleUpdate k p _
        · unfold ProfitLock.Engine.handleExecute
          split
          · exact steady_ret ()
          next q _ =>
            simp only [bind_eq, zoom_bind]
            exact steady_bind (steady_placeLockOrder k q) (fun _ => steady_ret ())

theorem steady_forwardToLocks (i : String) (p : ℚ) : Steady buyTerms o (forwardToLocks i p) := by
  refine steady_read_bind (fun s hs => ?_)
  split
  next =>
    refine steady_forEach (fun n _ => steady_read_bind (fun s hs => ?_))
    split
    next => exact steady_ret ()
    next =>
      split
      next => exact steady_tryCatch (steady_lockPriceUpdate _ p) (fun _ => steady_ret ())
      next => exact steady_ret ()
  next => exact steady_ret ()

/-- The buys of a plan that may be placed are announced, and the sides are those of the actions. -/
structure Announced (i : String) (buysAllowed : Bool) (actions : List GridAction) (o : Intent) : Prop where
  replaces : o.replaces = none
  buys : buysAllowed = true → ∀ a ∈ actions, a.action = .placeBuy → (⟨i, a.level⟩ : LevelKey) ∈ o.buys
  sides : ∀ a ∈ actions, (a.action = .placeBuy → a.side = .buy) ∧ (a.action = .placeSell → a.side = .sell)
  nodup : (actions.map GridAction.level).Nodup

theorem Announced.next {i : String} {b : Bool} {a : GridAction} {actions : List GridAction} {o' : Intent}
    (h : Announced i b (a :: actions) o) (hr : o'.replaces = o.replaces)
    (hb : o.buys \ {⟨i, a.level⟩} ⊆ o'.buys) : Announced i b actions o' := by
  refine ⟨hr.trans h.replaces, fun hba a' ha' hp => hb ⟨h.buys hba a' (by simp [ha']) hp, fun heq => ?_⟩,
    fun a' ha' => h.sides a' (by simp [ha']), (List.nodup_cons.mp h.nodup).2⟩
  have hlevel : a'.level = a.level := congrArg LevelKey.level heq
  exact (List.nodup_cons.mp h.nodup).1 (hlevel ▸ List.mem_map_of_mem ha')

theorem under_executePlan {i : String} {buysAllowed : Bool} {actions : List GridAction} {s : GridEngine}
    (hs : Sound ∅ s) (h : Announced i buysAllowed actions o) :
    Under buyTerms (executePlan i buysAllowed actions) (fun _ _ s' => Sound ∅ s') o s := by
  refine under_forEach (fun xs o s => Sound ∅ s ∧ Announced i buysAllowed xs o) _ ?_ (fun _ _ h => h.1) actions ⟨hs, h⟩
  rintro a xs o s ⟨hs, h⟩
  have hsame : ∀ {p : Op Unit}, Steady buyTerms o p →
      Under buyTerms p (iterPost (fun o s => Sound ∅ s ∧ Announced i buysAllowed xs o)
        (fun _ _ s' => Sound ∅ s')) o s := by
    intro p hp
    refine under_mono (hp s hs) ?_
    rintro (e | u) o' s' ⟨rfl, hs'⟩
    · exact hs'
    · exact ⟨hs', h.next rfl Set.sdiff_subset⟩
  have hside := h.sides a (by simp)
  cases ha : a.action with
  | cancel =>
      simp only
      exact hsame (steady_cancelGridOrder h.replaces i a)
  | placeSell =>
      simp only
      exact hsame (steady_bind (steady_placeSellOrder i a (hside.2 ha)) (fun _ => steady_ret ()))
  | placeBuy =>
      simp only
      split
      next hb =>
        rw [bind_eq, under_bind]
        refine under_mono (under_placeBuyOrder hs (hside.1 ha) (h.buys hb a (by simp) ha)) ?_
        rintro (e | r) o' s' ⟨hs', hr, hbuys⟩
        · exact hs'
        · exact ⟨hs', h.next hr hbuys⟩
      next => exact hsame (steady_ret ())

/-- What the gate of on_price_update says, given the breaker. -/
def gatePasses (evaluate : Evaluate) (s : GridEngine) (i : String) (p : ℚ) : Option CircuitBreakerState → Bool
  | none => taGate evaluate (s.taConfigs i) (s.taCandles i) p
  | some b =>
      if b.triggered then (breakerGate evaluate (s.taCandles15m i) p b).1
      else taGate evaluate (s.taConfigs i) (s.taCandles i) p

theorem under_passGate {evaluate : Evaluate} {i : String} {p : ℚ} {s : GridEngine} (hs : Sound ∅ s) :
    Under buyTerms (passGate evaluate i p) (fun r o' s' =>
      r = .ok (gatePasses evaluate s i p (s.breakers i)) ∧ o' = o ∧ Sound ∅ s') o s := by
  rw [passGate, bind_eq, under_bind, under_read, thenUnder_ok]
  split
  next hb => exact ⟨by rw [hb]; rfl, rfl, hs⟩
  next b hb =>
    split
    next ht =>
      have h := hs.withBreakers (Function.update s.breakers i
        ((s.breakers i).map (fun _ => (breakerGate evaluate (s.taCandles15m i) p b).2)))
      exact ⟨h, trivial, by rw [hb]; simp [gatePasses, ht], rfl, h⟩
    next ht => exact ⟨by rw [hb]; simp [gatePasses, ht], rfl, hs⟩

theorem announced_plan {i : String} {buysAllowed : Bool} {levels : List GridLevel} {p m : ℚ} {active : Bool}
    (hn : o.replaces = none) (hnd : (levels.map GridLevel.level).Nodup)
    (hb : buysAllowed = true → ∀ a ∈ plan levels p active m, a.action = .placeBuy →
      (⟨i, a.level⟩ : LevelKey) ∈ o.buys) : Announced i buysAllowed (plan levels p active m) o := by
  refine ⟨hn, hb, fun a ha => ?_, (plan_levels_sublist levels p m active).nodup hnd⟩
  obtain ⟨lv, -, hlv⟩ := mem_plan ha
  rcases planLevel_cases hlv with ⟨rfl, -⟩ | ⟨rfl, -⟩
  · exact ⟨fun _ => rfl, fun h => nomatch h⟩
  · exact ⟨(fun h => nomatch h), fun _ => rfl⟩

theorem under_carryOut {evaluate : Evaluate} {i : String} {p : ℚ} {justTriggered : Bool} {s : GridEngine}
    (hs : Sound ∅ s) (hn : o.replaces = none)
    (hb : justTriggered = false → gatePasses evaluate s i p (s.breakers i) = true →
      ∀ a ∈ plan (s.grids.listLevels i) p (breakerContext (s.breakers i)).1 (breakerContext (s.breakers i)).2,
        a.action = .placeBuy → (⟨i, a.level⟩ : LevelKey) ∈ o.buys) :
    Under buyTerms (.bind .read (fun s => .bind (passGate evaluate i p) (fun gate =>
      .bind (executePlan i (!justTriggered && gate) (plan (s.grids.listLevels i) p
        (breakerContext (s.breakers i)).1 (breakerContext (s.breakers i)).2))
        (fun _ => forwardToLocks i p)))) (fun _ _ _ => True) o s := by
  rw [under_bind, under_read, thenUnder_ok, under_bind]
  refine under_mono (under_passGate hs) ?_
  rintro _ o1 s1 ⟨rfl, rfl, hs1⟩
  rw [thenUnder_ok, under_bind]
  refine under_mono (under_executePlan hs1 (announced_plan hn (numbered_listLevels hs.numbered i) ?_)) ?_
  · intro h
    simp only [Bool.and_eq_true, Bool.not_eq_true'] at h
    exact hb h.1 h.2
  · rintro (e | u) o2 s2 hs2
    · trivial
    · exact under_mono (steady_forwardToLocks i p s2 hs2) (fun _ _ _ _ => trivial)

/-- The levels a price update is going to buy on, read off the state it starts in. -/
def announcedBuys (evaluate : Evaluate) (s : GridEngine) (today : Date) (i : String) (p : ℚ) : Set LevelKey :=
  let breaker := (s.breakers i).map (fun b => b.checkNewDay today p)
  { k | (∃ g ∈ s.grids i, g.status = .active) ∧ (∀ b ∈ breaker, b.shouldTrigger p = false) ∧
      gatePasses evaluate s i p breaker = true ∧ k.instanceId = i ∧
      ∃ a ∈ plan (s.grids.listLevels i) p (breakerContext breaker).1 (breakerContext breaker).2,
        a.action = .placeBuy ∧ a.level = k.level }

theorem under_onPriceUpdate {evaluate : Evaluate} {today : Date} {i : String} {p : ℚ} {s : GridEngine}
    (hs : Sound ∅ s) : Under buyTerms (onPriceUpdate evaluate today i p) (fun _ _ _ => True)
      { buys := announcedBuys evaluate s today i p } s := by
  rw [onPriceUpdate, bind_eq, under_bind, under_read, thenUnder_ok]
  split
  next => trivial
  next g hg =>
    split
    next => trivial
    next hact =>
      rw [bind_eq, under_bind, setCurrentPrice, modifyGrids, under_modify]
      have hs1 := hs.withGrids (hs.numbered.assignGrid i (fun g => { g with currentPrice := some p })
        (fun _ => rfl))
      refine ⟨hs1, trivial, ?_⟩
      have hlist : (s.grids.assignGrid i (fun g => { g with currentPrice := some p })).listLevels i =
          s.grids.listLevels i := by
        simp [State.Store.listLevels, State.Store.assignGrid, hg, State.Store.put]
      rw [thenUnder_ok, bind_eq, under_bind, checkBreaker, bind_eq, under_bind, under_read, thenUnder_ok]
      split
      next hb =>
        refine under_carryOut hs1 rfl (fun _ hgate a ha hp => ?_)
        simp only at hb hgate ha
        rw [hb] at hgate ha
        refine ⟨⟨g, hg, not_not.mp hact⟩, ?_, ?_, rfl, a, ?_, hp, rfl⟩
        · simp [hb]
        · rw [hb]
          exact hgate
        · rw [hb, ← hlist]
          exact ha
      next b hb =>
        simp only at hb
        split
        next htrig =>
          rw [bind_eq, under_bind, assignBreaker, under_modify]
          have hs2 := hs1.withBreakers (Function.update s.breakers i
            ((s.breakers i).map (fun b => (b.checkNewDay today p).trigger p)))
          refine ⟨hs2, trivial, ?_⟩
          rw [thenUnder_ok, bind_eq, under_bind]
          refine under_mono (steady_cancelAllPendingBuys rfl i _ hs2) ?_
          rintro (e | u) o3 s3 ⟨rfl, hs3⟩
          · trivial
          · exact under_carryOut hs3 rfl (fun h => by cases h)
        next htrig =>
          rw [bind_eq, under_bind, assignBreaker, under_modify]
          have hs2 := hs1.withBreakers (Function.update s.breakers i
            ((s.breakers i).map (fun b => b.checkNewDay today p)))
          refine ⟨hs2, trivial, ?_⟩
          refine under_carryOut hs2 rfl (fun _ hgate a ha hp => ?_)
          simp only [Function.update_self] at hgate ha
          refine ⟨⟨g, hg, not_not.mp hact⟩, ?_, hgate, rfl, a, ?_, hp, rfl⟩
          · simpa [hb] using htrig
          · rw [← hlist]
            exact ha

/-- The level a force_buy is going to buy on, and the order it first cancels. -/
def announcedForce (s : GridEngine) (i : String) (level : Option Nat) : Intent :=
  match s.grids i with
  | none => {}
  | some g =>
      if g.status = .active then
        match forceBuyTarget g level with
        | .error _ => {}
        | .ok lv =>
            if lv.buyOrderId = none then { buys := {⟨i, lv.level⟩} }
            else { replaces := some (⟨i, lv.level⟩, g.exchangeAccountId, lv.buyOrderId) }
      else {}

theorem under_forceBuy {i : String} {level : Option Nat} {price quantity : Option ℚ} {s : GridEngine}
    (hs : Sound ∅ s) : Under buyTerms (forceBuy i level price quantity) (fun _ _ _ => True)
      (announcedForce s i level) s := by
  rw [forceBuy, bind_eq, under_bind, under_read, thenUnder_ok]
  split
  next => trivial
  next g hg =>
    split
    next => trivial
    next hact =>
      rw [bind_eq, under_bind, under_lift]
      cases ht : forceBuyTarget g level with
      | error e => trivial
      | ok lv =>
          have ho : announcedForce s i level = if lv.buyOrderId = none then { buys := {⟨i, lv.level⟩} }
              else { replaces := some (⟨i, lv.level⟩, g.exchangeAccountId, lv.buyOrderId) } := by
            simp only [announcedForce, hg, not_not.mp hact, if_true, ht]
          have hplace : ∀ s', Sound ∅ s' → Under buyTerms (.bind (placeOrder (.level ⟨i, lv.level⟩)
              (limitOrder g .buy (quantity.getD lv.quantity) (some (price.getD lv.buyPrice)))) (fun result =>
                .bind (attemptGrids (fun grids => grids.updateLevel i lv.level (setOrderId .buy result.orderId)))
                (fun _ => .bind (attemptGrids (fun grids => grids.transitionLevel i lv.level .opened))
                (fun _ => .ret { orderId := result.orderId, level := lv.level, price := price.getD lv.buyPrice
                                 quantity := quantity.getD lv.quantity : ForceBuyReport }))))
              (fun _ _ _ => True) { buys := {⟨i, lv.level⟩} } s' := by
            intro s' hs'
            rw [under_bind, placeOrder, under_await]
            refine ⟨⟨fun _ => rfl, fun _ => rfl⟩, fun r s'' _ hs'' _ => ?_⟩
            cases r with
            | error e => trivial
            | ok result => exact under_mono (steady_placed _ s'' hs'') (fun _ _ _ _ => trivial)
          rw [thenUnder_ok, bind_eq, under_bind, cancelReplaced, ho]
          by_cases hid : lv.buyOrderId = none
          · simp only [hid, ne_eq, not_true_eq_false, if_false, if_true]
            exact hplace s hs
          · simp only [ne_eq, hid, not_false_eq_true, if_true, if_false, tryCatch_eq, under_tryCatch, bind_eq,
              under_bind]
            rw [cancelOrder, under_await]
            refine ⟨trivial, fun r s' _ hs' _ => ?_⟩
            have hspend : buyTerms.spend { replaces := some (⟨i, lv.level⟩, g.exchangeAccountId, lv.buyOrderId) }
                (.cancelOrder g.exchangeAccountId lv.buyOrderId) = { buys := {⟨i, lv.level⟩} } := by
              simp [Intent.spend]
            rw [hspend]
            cases r with
            | error e => exact hplace s' hs'
            | ok result => exact hplace s' hs'

end Utos.Grid.BuyTerms
