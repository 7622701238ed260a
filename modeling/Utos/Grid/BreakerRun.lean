import Utos.Grid.Activation
import Utos.Grid.Frames

namespace Utos.Grid.BreakerRun

open Coroutine Program Core.DomainTypes Core.Exceptions Execution.Models Execution.Service Execution.Exchange
open State CircuitBreaker Planner Engine Trading Activation Frames

variable {evaluate : Evaluate} {i : String} {I : GridEngine → Prop} {α : Type}

/-- The program keeps I wherever it starts and whatever it is answered. -/
abbrev Leaves (I : GridEngine → Prop) (p : Op α) : Prop :=
  Steady (.bare I (fun _ _ => True) (fun _ => True)) () p

/-- What neither the levels of a grid nor the locks matter to. -/
structure Indifferent (I : GridEngine → Prop) : Prop where
  levels : ∀ s j n f, I s → I { s with grids := s.grids.assignLevel j n f }
  locks : ∀ s locks, I s → I { s with locks := locks }

theorem Indifferent.tolerates (hI : Indifferent I) : Tolerates I (fun _ _ => True) where
  levels s j n f _ hs := ⟨hI.levels s j n f hs, trivial⟩
  locks s locks hs := ⟨hI.locks s locks hs, trivial⟩

/-- The event sets no new breaker for the instance, and brings it prices of one day only. -/
def SameDay (today : Date) (i : String) : Event → Prop
  | .call (.configureCircuitBreaker j _) _ => j ≠ i
  | .call (.onPriceUpdate day j _) _ => j = i → day = today
  | _ => True

/-- The price that the event brings the instance, if any. -/
def priceFor (i : String) : Event → Option ℚ
  | .call (.onPriceUpdate _ j p) _ => if j = i then some p else none
  | _ => none

theorem tolerates_breaker (i : String) (b : Option CircuitBreakerState) :
    Tolerates (fun s => s.breakers i = b) (fun _ _ => True) :=
  Indifferent.tolerates ⟨fun _ _ _ _ h => h, fun _ _ h => h⟩

theorem leaves_attemptGrids_breaker {b : Option CircuitBreakerState}
    (f : State.Store → Except Exn (Unit × State.Store)) : Leaves (fun s => s.breakers i = b) (attemptGrids f) :=
  writes_attemptGrids (fun _ _ _ h _ => ⟨h, trivial⟩)

theorem leaves_modifyGrids_breaker {b : Option CircuitBreakerState} (f : State.Store → State.Store) :
    Leaves (fun s => s.breakers i = b) (modifyGrids f) :=
  writes_modifyGrids (fun _ h => ⟨h, trivial⟩)

/-- Only a price update of the instance, or a new configuration, works on its breaker. -/
theorem leaves_perform {today : Date} {call : Call} {oracle : Oracle} {b : Option CircuitBreakerState}
    (hday : SameDay today i (.call call oracle)) (hprice : priceFor i (.call call oracle) = none) :
    Leaves (fun s => s.breakers i = b) (perform evaluate call) := by
  have hI := tolerates_breaker i b
  have hgrids := leaves_attemptGrids_breaker (i := i) (b := b)
  have hmodify := leaves_modifyGrids_breaker (i := i) (b := b)
  have hassign : ∀ (s : GridEngine) (j : String) (x : Option CircuitBreakerState), j ≠ i → s.breakers i = b →
      Function.update s.breakers j x i = b := fun s j x hj h => by
    rw [Function.update_of_ne (Ne.symm hj)]
    exact h
  cases call with
  | configureTrailingProfit | configureTa | updateTaCandles | updateTaCandles15m =>
      exact steady_modify (fun _ h => ⟨h, trivial⟩)
  | configureCircuitBreaker j args => exact steady_modify (fun s h => ⟨hassign s j _ hday h, trivial⟩)
  | initializeGrid j args => exact writes_initializeGrid j args (fun _ => hmodify _) (hgrids _)
  | activateGrid j p => exact writes_void (writes_activateGrid hI j p (hmodify _) (hgrids _))
  | pauseGrid j => exact writes_void (writes_pauseGrid hI j (hgrids _))
  | resumeGrid j p => exact writes_void (writes_resumeGrid hI j p (hmodify _) (hgrids _))
  | closeAllGridOrders j => exact writes_void (writes_closeAllGridOrders hI j)
  | onPriceUpdate day j p =>
      have hj : j ≠ i := fun h => by simp [priceFor, h] at hprice
      exact writes_onPriceUpdate hI (hmodify _) (fun f => steady_modify (fun s h => ⟨hassign s j _ hj h, trivial⟩))
  | onBuyFilled j n fillPrice quantity => exact writes_onBuyFilled hI j n fillPrice quantity
  | onSellFilled j n fillPrice quantity => exact writes_onSellFilled hI j n fillPrice quantity (fun _ => hmodify _)
  | forceBuy j level price quantity => exact writes_void (writes_forceBuy hI j level price quantity)
  | forceSell j level price quantity => exact writes_void (writes_forceSell hI j level price quantity)
  | lock call => exact writes_performLock hI call

/-- The breaker of a price update at the point where the gate is passed. -/
def checked (today : Date) (p : ℚ) (b : CircuitBreakerState) : CircuitBreakerState :=
  if (b.checkNewDay today p).shouldTrigger p then (b.checkNewDay today p).trigger p else b.checkNewDay today p

/-- What a price update makes of the breaker. -/
def tick (evaluate : Evaluate) (candles : Option (List CandleData)) (today : Date) (p : ℚ)
    (b : CircuitBreakerState) : CircuitBreakerState :=
  if (checked today p b).triggered then (breakerGate evaluate candles p (checked today p b)).2
  else checked today p b

/-- What a price update does not touch between its own writes to the breaker. -/
structure Frozen (i : String) (b : CircuitBreakerState) (candles : Option (List CandleData)) (s : GridEngine) :
    Prop where
  breaker : s.breakers i = some b
  candles : s.taCandles15m i = candles
  active : Active i s

variable {b : CircuitBreakerState} {candles : Option (List CandleData)} {s : GridEngine} {today : Date} {p : ℚ}

theorem indifferent_frozen : Indifferent (Frozen i b candles) := by
  constructor
  · intro s j n f hs
    refine ⟨hs.breaker, hs.candles, ?_⟩
    obtain ⟨g, hg, hact⟩ := hs.active
    by_cases hj : i = j
    · subst hj
      exact Active.assignLevel ⟨g, hg, hact⟩ n f
    · refine ⟨g, ?_, hact⟩
      cases hgj : s.grids j with
      | none => simp only [State.Store.assignLevel, hgj]; exact hg
      | some g' => simp only [State.Store.assignLevel, hgj, State.Store.put, Function.update_of_ne hj]; exact hg
  · exact fun s locks hs => ⟨hs.breaker, hs.candles, hs.active⟩

theorem Frozen.assign (hs : Frozen i b candles s) (f : CircuitBreakerState → CircuitBreakerState) :
    Frozen i (f b) candles { s with breakers := Function.update s.breakers i ((s.breakers i).map f) } :=
  ⟨by simp [hs.breaker], hs.candles, hs.active⟩

theorem wp_bare {Q : GridEngine → Prop} {x : Op α} {R : Except Exn α → GridEngine → Prop}
    (hx : Under (.bare Q (fun _ _ => True) (fun _ => True)) x (fun r _ s' => R r s') () s) (hs : Q s)
    (w : World Owner) : wp handler x (fun r s' _ => R r s') s w :=
  wp_mono (wp_of_under (fun _ _ => True) (fun _ _ => trivial) (fun _ _ _ => trivial) (fun _ _ _ _ _ _ h => h) x
    hx hs w trivial) (fun _ _ _ ⟨_, _, _, h⟩ => h)

theorem wp_leaves {Q : GridEngine → Prop} {x : Op α} (hx : Leaves Q x) (hs : Q s) (w : World Owner) :
    wp handler x (fun _ s' _ => Q s') s w :=
  wp_bare (under_mono (hx s hs) (fun _ _ _ h => h.2)) hs w

theorem wp_fromGate {c : CircuitBreakerState} {justTriggered : Bool} (hs : Frozen i c candles s) (w : World Owner) :
    wp handler (.bind .read (fun s => .bind (passGate evaluate i p) (fun gate =>
      .bind (executePlan i (!justTriggered && gate) (plan (s.grids.listLevels i) p
        (breakerContext (s.breakers i)).1 (breakerContext (s.breakers i)).2)) (fun _ => forwardToLocks i p))))
      (fun _ s' _ => Frozen i (if c.triggered then (breakerGate evaluate candles p c).2 else c) candles s') s w := by
  rw [wp_bind, wp_read, andThen_ok, wp_bind, passGate, bind_eq, wp_bind, wp_read, andThen_ok]
  simp only [hs.breaker]
  have hend : ∀ {c' : CircuitBreakerState} {s'} buysAllowed actions w', Frozen i c' candles s' →
      wp handler (.bind (executePlan i buysAllowed actions) (fun _ => forwardToLocks i p))
        (fun _ s'' _ => Frozen i c' candles s'') s' w' := fun buysAllowed actions w' hs' =>
    wp_leaves (steady_bind (writes_executePlan indifferent_frozen.tolerates i buysAllowed actions)
      (fun _ => writes_forwardToLocks indifferent_frozen.tolerates i p)) hs' w'
  split
  next ht =>
    rw [bind_eq, wp_bind, assignBreaker, wp_modify, andThen_ok, pure_eq, wp_ret, andThen_ok, hs.candles]
    exact hend _ _ w (hs.assign (fun _ => (breakerGate evaluate candles p c).2))
  next ht =>
    rw [pure_eq, wp_ret, andThen_ok]
    exact hend _ _ w hs

theorem wp_onPriceUpdate (hact : Active i s) (hb : s.breakers i = some b) (w : World Owner) :
    wp handler (onPriceUpdate evaluate today i p) (fun _ s' _ =>
      Frozen i (tick evaluate (s.taCandles15m i) today p b) (s.taCandles15m i) s') s w := by
  obtain ⟨g, hg, hg'⟩ := id hact
  rw [onPriceUpdate, bind_eq, wp_bind, wp_read, andThen_ok]
  simp only [hg, hg', ne_eq, not_true_eq_false, if_false]
  rw [bind_eq, wp_bind, setCurrentPrice, modifyGrids, wp_modify, andThen_ok, bind_eq, wp_bind, checkBreaker,
    bind_eq, wp_bind, wp_read, andThen_ok]
  simp only [hb]
  have h1 : Frozen i b (s.taCandles15m i) { s with grids := s.grids.assignGrid i (fun g =>
      { g with currentPrice := some p }) } := by
    refine ⟨hb, rfl, { g with currentPrice := some p }, ?_, hg'⟩
    simp [State.Store.assignGrid, hg, State.Store.put]
  split
  next htrig =>
    rw [bind_eq, wp_bind, assignBreaker, wp_modify, andThen_ok, bind_eq, wp_bind]
    have h2 := h1.assign (fun b => (b.checkNewDay today p).trigger p)
    refine wp_mono (wp_bare (under_cancelAllPendingBuys indifferent_frozen.tolerates i h2) h2 w) ?_
    rintro _ s2 w2 ⟨rfl, hs2⟩
    rw [andThen_ok, pure_eq, wp_ret, andThen_ok, tick, checked, if_pos htrig]
    exact wp_fromGate hs2 w2
  next htrig =>
    rw [bind_eq, wp_bind, assignBreaker, wp_modify, andThen_ok, pure_eq, wp_ret, andThen_ok, tick, checked,
      if_neg htrig]
    exact wp_fromGate (h1.assign (fun b => b.checkNewDay today p)) w

/-- What triggering, watching and clearing a breaker leave alone. -/
structure Kept (b c : CircuitBreakerState) : Prop where
  dayOpenPrice : c.dayOpenPrice = b.dayOpenPrice
  criticalThreshold : c.criticalThreshold = b.criticalThreshold
  triggerDate : c.triggerDate = b.triggerDate
  resumeMode : c.resumeMode = b.resumeMode
  recoveryPct : c.recoveryPct = b.recoveryPct

theorem Kept.refl (b : CircuitBreakerState) : Kept b b := ⟨rfl, rfl, rfl, rfl, rfl⟩

theorem Kept.trans {b c d : CircuitBreakerState} (h : Kept b c) (h' : Kept c d) : Kept b d :=
  ⟨h'.dayOpenPrice.trans h.dayOpenPrice, h'.criticalThreshold.trans h.criticalThreshold,
    h'.triggerDate.trans h.triggerDate, h'.resumeMode.trans h.resumeMode, h'.recoveryPct.trans h.recoveryPct⟩

theorem kept_checked (today : Date) (p : ℚ) (b : CircuitBreakerState) :
    Kept (b.checkNewDay today p) (checked today p b) := by
  rw [checked]
  split
  next => exact ⟨rfl, rfl, rfl, rfl, rfl⟩
  next => exact .refl _

theorem kept_updateBottom (p : ℚ) (b : CircuitBreakerState) : Kept b (b.updateBottom p) := by
  rw [CircuitBreakerState.updateBottom]
  split
  next => exact .refl b
  next =>
    split
    next => exact ⟨rfl, rfl, rfl, rfl, rfl⟩
    next =>
      split
      next => exact ⟨rfl, rfl, rfl, rfl, rfl⟩
      next => exact .refl b

theorem kept_gate (evaluate : Evaluate) (candles : Option (List CandleData)) (p : ℚ) (b : CircuitBreakerState) :
    Kept b (breakerGate evaluate candles p b).2 := by
  have hreset : Kept b (b.updateBottom p).reset := (kept_updateBottom p b).trans ⟨rfl, rfl, rfl, rfl, rfl⟩
  rw [breakerGate]
  split
  next =>
    dsimp only
    split
    next => exact hreset
    next => exact kept_updateBottom p b
  next =>
    split
    next => exact hreset
    next => exact kept_updateBottom p b
  next =>
    split
    next => exact hreset
    next => exact kept_updateBottom p b

theorem kept_tick (evaluate : Evaluate) (candles : Option (List CandleData)) (today : Date) (p : ℚ)
    (b : CircuitBreakerState) : Kept (b.checkNewDay today p) (tick evaluate candles today p b) := by
  rw [tick]
  split
  next => exact (kept_checked today p b).trans (kept_gate evaluate candles p _)
  next => exact kept_checked today p b

theorem checkNewDay_of_today (h : b.triggerDate = some today) (p : ℚ) : b.checkNewDay today p = b := by
  rw [CircuitBreakerState.checkNewDay, if_pos h]

theorem triggerDate_checkNewDay (today : Date) (p : ℚ) (b : CircuitBreakerState) :
    (b.checkNewDay today p).triggerDate = some today := by
  rw [CircuitBreakerState.checkNewDay]
  split
  next h => exact h
  next => split <;> rfl

/-- A day rollover keeps the configuration of the breaker. -/
theorem configured_checkNewDay (today : Date) (p : ℚ) (b : CircuitBreakerState) :
    (b.checkNewDay today p).criticalThreshold = b.criticalThreshold ∧
      (b.checkNewDay today p).resumeMode = b.resumeMode ∧ (b.checkNewDay today p).recoveryPct = b.recoveryPct := by
  rw [CircuitBreakerState.checkNewDay]
  split
  next => exact ⟨rfl, rfl, rfl⟩
  next => split <;> exact ⟨rfl, rfl, rfl⟩

theorem tick_of_priceFor {e : Event} (hday : SameDay today i e) (hprice : priceFor i e = some p) :
    ∃ oracle, e = .call (.onPriceUpdate today i p) oracle := by
  cases e with
  | fill => cases hprice
  | call call oracle =>
      cases call with
      | onPriceUpdate day j q =>
          simp only [priceFor, Option.ite_none_right_eq_some, Option.some.injEq] at hprice
          obtain ⟨rfl, rfl⟩ := hprice
          exact ⟨oracle, by rw [hday rfl]⟩
      | _ => cases hprice

theorem step_tick {x : Floor} (hact : Active i x.engine) (hb : x.engine.breakers i = some b) (oracle : Oracle) :
    Frozen i (tick evaluate (x.engine.taCandles15m i) today p b) (x.engine.taCandles15m i)
      (x.step evaluate (.call (.onPriceUpdate today i p) oracle)).engine :=
  wp_onPriceUpdate hact hb ⟨x.desk, oracle⟩

theorem step_ignored {x : Floor} (hact : ¬ Active i x.engine) (oracle : Oracle) :
    (x.step evaluate (.call (.onPriceUpdate today i p) oracle)).engine = x.engine := by
  have h : wp handler (onPriceUpdate evaluate today i p) (fun _ s' _ => s' = x.engine) x.engine
      ⟨x.desk, oracle⟩ := by
    rw [onPriceUpdate, bind_eq, wp_bind, wp_read, andThen_ok]
    split
    next => rfl
    next g hg => rw [if_pos (fun hg' => hact ⟨g, hg, hg'⟩)]; rfl
  exact h

theorem step_other {x : Floor} {e : Event} (hday : SameDay today i e) (hprice : priceFor i e = none) :
    (x.step evaluate e).engine.breakers i = x.engine.breakers i := by
  cases e with
  | fill ref quantity => rfl
  | call call oracle => exact wp_leaves (leaves_perform hday hprice) rfl ⟨x.desk, oracle⟩

end Utos.Grid.BreakerRun

namespace Utos.Grid.Rearm

open Coroutine Program Core.DomainTypes Execution.Service Execution.Exchange CircuitBreaker Engine Trading
open Activation BreakerRun

variable {evaluate : Evaluate} {today : Date} {i : String} {p q : ℚ} {b : CircuitBreakerState}

/-- A price update at q would trigger the breaker of the instance. -/
def Triggers (today : Date) (i : String) (q : ℚ) (s : Floor) : Prop :=
  Active i s.engine ∧ ∃ b, s.engine.breakers i = some b ∧ (b.checkNewDay today q).shouldTrigger q = true

/-- For the rest of the day no price from p on triggers the breaker. -/
def StaysCleared (evaluate : Evaluate) (today : Date) (i : String) (p : ℚ) (s : Floor) : Prop :=
  ∀ events, (∀ e ∈ events, SameDay today i e) → ∀ q, p ≤ q → ¬ Triggers today i q (s.runEvents evaluate events)

/-- The price update clears a breaker that is triggered, perhaps by the same update. -/
def Clears (evaluate : Evaluate) (candles : Option (List CandleData)) (today : Date) (p : ℚ)
    (b : CircuitBreakerState) : Prop :=
  (checked today p b).triggered = true ∧ (tick evaluate candles today p b).triggered = false

theorem intradayDropPct_mono (b : CircuitBreakerState) (h : p ≤ q) : b.intradayDropPct p ≤ b.intradayDropPct q := by
  unfold CircuitBreakerState.intradayDropPct
  split
  next => exact le_rfl
  next dayOpen _ =>
    split
    next => exact le_rfl
    next hpos =>
      have hpos := not_le.mp hpos
      gcongr

theorem intradayDropPct_congr {c : CircuitBreakerState} (h : c.dayOpenPrice = b.dayOpenPrice) (p : ℚ) :
    c.intradayDropPct p = b.intradayDropPct p := by
  simp only [CircuitBreakerState.intradayDropPct, h]

/-- What a day leaves of a breaker that has a day-open price: this price, and the threshold. -/
structure OfDay (today : Date) (i : String) (b : CircuitBreakerState) (s : Floor) : Prop where
  breaker : ∃ c, s.engine.breakers i = some c ∧ c.triggerDate = some today ∧ c.dayOpenPrice = b.dayOpenPrice ∧
    c.criticalThreshold = b.criticalThreshold

theorem OfDay.step {x : Floor} {e : Event} (h : OfDay today i b x) (hday : SameDay today i e) :
    OfDay today i b (x.step evaluate e) := by
  obtain ⟨c, hc, hdate, hopen, hcrit⟩ := h
  cases hprice : priceFor i e with
  | none => exact ⟨c, (step_other hday hprice).trans hc, hdate, hopen, hcrit⟩
  | some q =>
      obtain ⟨oracle, rfl⟩ : ∃ oracle, e = .call (.onPriceUpdate today i q) oracle := tick_of_priceFor hday hprice
      by_cases hact : Active i x.engine
      · have hkept := kept_tick evaluate (x.engine.taCandles15m i) today q c
        rw [checkNewDay_of_today hdate] at hkept
        exact ⟨_, (step_tick hact hc oracle).breaker, hkept.triggerDate.trans hdate, hkept.dayOpenPrice.trans hopen,
          hkept.criticalThreshold.trans hcrit⟩
      · exact ⟨c, by rw [step_ignored hact oracle, hc], hdate, hopen, hcrit⟩

theorem OfDay.run {events : List Event} {x : Floor} (h : OfDay today i b x) (hday : ∀ e ∈ events, SameDay today i e) :
    OfDay today i b (x.runEvents evaluate events) := by
  induction events generalizing x with
  | nil => exact h
  | cons e events ih => exact ih (h.step (hday e (by simp))) (fun e' he' => hday e' (by simp [he']))

/-- A cleared breaker stays cleared in exactly the cases in which the price that
cleared it is within the threshold of the price of the day's open. -/
theorem staysCleared_iff {s : Floor} (hact : Active i s.engine) (hb : s.engine.breakers i = some b)
    (hclears : Clears evaluate (s.engine.taCandles15m i) today p b) (oracle : Oracle) :
    StaysCleared evaluate today i p (s.runCall evaluate (.onPriceUpdate today i p) oracle).2 ↔
      -b.criticalThreshold < (b.checkNewDay today p).intradayDropPct p := by
  obtain ⟨hthr, -⟩ := configured_checkNewDay today p b
  have hkept := kept_tick evaluate (s.engine.taCandles15m i) today p b
  have hfrozen : Frozen i (tick evaluate (s.engine.taCandles15m i) today p b) (s.engine.taCandles15m i)
      (s.runCall evaluate (.onPriceUpdate today i p) oracle).2.engine := step_tick hact hb oracle
  have hdate := hkept.triggerDate.trans (triggerDate_checkNewDay today p b)
  constructor
  · intro h
    by_contra hdrop
    refine h [] (by simp) p le_rfl ⟨hfrozen.active, _, hfrozen.breaker, ?_⟩
    rw [checkNewDay_of_today hdate, CircuitBreakerState.shouldTrigger, hclears.2, hkept.criticalThreshold, hthr,
      intradayDropPct_congr hkept.dayOpenPrice]
    simpa using hdrop
  · rintro hdrop events hday q hq ⟨-, c, hc, htrig⟩
    have hof : OfDay today i (b.checkNewDay today p) (s.runCall evaluate (.onPriceUpdate today i p) oracle).2 :=
      ⟨_, hfrozen.breaker, hdate, hkept.dayOpenPrice, hkept.criticalThreshold⟩
    obtain ⟨c', hc', hdate', hopen, hcrit⟩ := (hof.run hday).breaker
    obtain rfl : c' = c := Option.some.inj (hc'.symm.trans hc)
    rw [checkNewDay_of_today hdate', CircuitBreakerState.shouldTrigger] at htrig
    split at htrig
    next => cases htrig
    next =>
      have hfall := of_decide_eq_true htrig
      rw [intradayDropPct_congr hopen, hcrit, hthr] at hfall
      exact absurd (hdrop.trans_le (intradayDropPct_mono _ hq)) (not_lt.mpr hfall)

/-- A breaker that triggers at a fall of 4 % and resumes 1 % above the low. -/
def touchy : BreakerArgs :=
  { criticalThreshold := 4, resumeMode := .trailingBuy, recoveryPct := some 1, dayOpenPrice := some 115 }

/-- The price has fallen from 115 to the given price, at which the breaker has triggered. -/
def fallen (price : ℚ) : Floor :=
  (Floor.start true).runEvents (fun _ _ _ => true) (.call (.configureCircuitBreaker "grid" touchy) willing ::
    activated ++ [.call (.onPriceUpdate 1 "grid" price) willing])

def triggeredAt (price : ℚ) : CircuitBreakerState := ((touchy.breaker "grid").checkNewDay 1 price).trigger price

/-- At 110.4 the price is 4 % under the open; 1 % higher it is within the threshold. -/
theorem staysCleared_iff_near :
    StaysCleared (fun _ _ _ => true) 1 "grid" 112
        ((fallen (552 / 5)).runCall (fun _ _ _ => true) (.onPriceUpdate 1 "grid" 112) willing).2 ↔
      -(triggeredAt (552 / 5)).criticalThreshold < ((triggeredAt (552 / 5)).checkNewDay 1 112).intradayDropPct 112 := by
  refine staysCleared_iff ⟨{ tradingGrid with currentPrice := some (552 / 5) }, by decide +kernel, rfl⟩
    (by decide +kernel) ⟨by decide +kernel, by decide +kernel⟩ willing

/-- The breaker triggers at 100, is cleared at 101, and triggers again at 101. -/
theorem cleared_triggers_again :
    (fallen 100).Reachable (fun _ _ _ => true) ∧
      Clears (fun _ _ _ => true) none 1 101 (triggeredAt 100) ∧
      (fallen 100).engine.breakers "grid" = some (triggeredAt 100) ∧
      ¬ StaysCleared (fun _ _ _ => true) 1 "grid" 101
        ((fallen 100).runCall (fun _ _ _ => true) (.onPriceUpdate 1 "grid" 101) willing).2 := by
  refine ⟨⟨true, _, rfl⟩, ⟨by decide +kernel, by decide +kernel⟩, by decide +kernel, fun h => ?_⟩
  refine h [] (by simp) 101 le_rfl ⟨⟨{ tradingGrid with currentPrice := some 101 }, by decide +kernel, rfl⟩,
    (triggeredAt 100).reset, by decide +kernel, by decide +kernel⟩

end Utos.Grid.Rearm
