import Utos.Grid.BreakerRun
import Utos.Coroutine.Trace

namespace Utos.Grid.TrailingBuy

open Coroutine Program Core.DomainTypes Execution.Service Execution.Exchange CircuitBreaker Engine Trading
open Invariant Reach BuyTerms Activation BreakerRun

variable {evaluate : Evaluate} {today : Date} {i : String} {low p r : ℚ} {b : CircuitBreakerState}

/-- The lowest of a price and the prices that the events bring the instance. -/
def lowest (i : String) : ℚ → List Event → ℚ
  | low, [] => low
  | low, e :: events => match priceFor i e with
    | none => lowest i low events
    | some p => lowest i (min low p) events

/-- The price has recovered by r percent from the lowest price seen, itself included. -/
def Recovered (r low p : ℚ) : Prop := (1 + r / 100) * min low p ≤ p

instance (r low p : ℚ) : Decidable (Recovered r low p) := inferInstanceAs (Decidable (_ ≤ _))

/-- No event brings the instance a price that has recovered. -/
def Below (r : ℚ) (i : String) : ℚ → List Event → Prop
  | _, [] => True
  | low, e :: events => match priceFor i e with
    | none => Below r i low events
    | some p => ¬ Recovered r low p ∧ Below r i (min low p) events

/-- An event of the day; a price that it brings the instance is positive, and finds the grid active. -/
def Steadily (today : Date) (i : String) (s : Floor) (e : Event) : Prop :=
  SameDay today i e ∧ ∀ p, priceFor i e = some p → 0 < p ∧ Active i s.engine

/-- The breaker is triggered, and has seen no price under the given one. -/
structure Waiting (today : Date) (i : String) (r low : ℚ) (s : Floor) : Prop where
  breaker : ∃ b, s.engine.breakers i = some b ∧ b.triggered = true ∧ b.bottomPrice = some low ∧
    b.triggerDate = some today ∧ b.resumeMode = .trailingBuy ∧ b.recoveryPct = r
  positive : 0 < low

/-- No order that the exchange has made meanwhile is a buy. -/
def NoBuy (s s' : Floor) : Prop :=
  ∀ (n : Nat) (o : Order Owner), s.desk.orders.length ≤ n → s'.desk.orders[n]? = some o → o.side ≠ .buy

def Cleared (i : String) (s : Floor) : Prop := ∃ b, s.engine.breakers i = some b ∧ b.triggered = false

theorem not_recovered_self (hr : 0 < r) (hp : 0 < p) : ¬ Recovered r p p := by
  rw [Recovered, min_self, not_le]
  have h : 0 < r / 100 * p := by positivity
  linarith [add_mul 1 (r / 100) p]

theorem updateBottom_of_triggered (ht : b.triggered = true) (hlow : b.bottomPrice = some low) (p : ℚ) :
    (b.updateBottom p).bottomPrice = some (min low p) ∧ (b.updateBottom p).triggered = true := by
  simp only [CircuitBreakerState.updateBottom, ht, hlow, Bool.not_true, Bool.false_eq_true, if_false]
  split
  next hlt => exact ⟨by rw [min_eq_right hlt.le], rfl⟩
  next hle => exact ⟨by rw [min_eq_left (not_lt.mp hle), hlow], ht⟩

theorem breakerGate_trailing (candles : Option (List CandleData)) (hmode : b.resumeMode = .trailingBuy)
    (ht : b.triggered = true) (hlow : b.bottomPrice = some low) (hlow0 : 0 < low) (hp : 0 < p) :
    breakerGate evaluate candles p b = if Recovered b.recoveryPct low p then (true, (b.updateBottom p).reset)
      else (false, b.updateBottom p) := by
  obtain ⟨hbottom, ht'⟩ := updateBottom_of_triggered ht hlow p
  have hkept := kept_updateBottom p b
  have hresume : (b.updateBottom p).shouldResumeTrailing p = true ↔ Recovered b.recoveryPct low p := by
    have hpos : ¬ min low p ≤ 0 := not_le.mpr (lt_min hlow0 hp)
    simp only [CircuitBreakerState.shouldResumeTrailing, ht', hbottom, hkept.recoveryPct, Bool.not_true,
      Bool.false_eq_true, if_false, hpos, decide_eq_true_eq, Recovered, mul_comm]
  simp only [breakerGate, hkept.resumeMode, hmode]
  by_cases h : Recovered b.recoveryPct low p
  · rw [if_pos (hresume.mpr h), if_pos h]
  · rw [if_neg (fun h' => h (hresume.mp h')), if_neg h]

theorem noBuy_of_blocked {s : Floor} (hs : Sound ∅ s.engine) (oracle : Oracle)
    (h : announcedBuys evaluate s.engine today i p = ∅) :
    NoBuy s (s.runCall evaluate (.onPriceUpdate today i p) oracle).2 := by
  intro n o hn ho hbuy
  have hkey := (runCall_onPriceUpdate_buys hs today i p oracle).2 n o hn ho hbuy
  rw [h] at hkey
  exact hkey

theorem waiting_of_trigger {s : Floor} (hact : Active i s.engine) (hb : s.engine.breakers i = some b)
    (hmode : b.resumeMode = .trailingBuy) (hr : 0 < b.recoveryPct) (hp : 0 < p)
    (htrig : (b.checkNewDay today p).shouldTrigger p = true) (oracle : Oracle) :
    Waiting today i b.recoveryPct p (s.runCall evaluate (.onPriceUpdate today i p) oracle).2 := by
  obtain ⟨-, hmode', hr'⟩ := configured_checkNewDay today p b
  have hkept := kept_checked today p b
  have hchecked : checked today p b = (b.checkNewDay today p).trigger p := by rw [checked, if_pos htrig]
  have ht : (checked today p b).triggered = true := by rw [hchecked]; rfl
  have hlow : (checked today p b).bottomPrice = some p := by rw [hchecked]; rfl
  have hpct : (checked today p b).recoveryPct = b.recoveryPct := hkept.recoveryPct.trans hr'
  have htick : tick evaluate (s.engine.taCandles15m i) today p b = (checked today p b).updateBottom p := by
    rw [tick, if_pos ht, breakerGate_trailing _ (hkept.resumeMode.trans (hmode'.trans hmode)) ht hlow hp hp, hpct,
      if_neg (not_recovered_self hr hp)]
  obtain ⟨hbottom, ht'⟩ := updateBottom_of_triggered ht hlow p
  have hkept' := hkept.trans (kept_updateBottom p (checked today p b))
  have hfrozen : Frozen i (BreakerRun.tick evaluate (s.engine.taCandles15m i) today p b) (s.engine.taCandles15m i)
      (s.step evaluate (.call (.onPriceUpdate today i p) oracle)).engine := step_tick hact hb oracle
  rw [htick] at hfrozen
  rw [min_self] at hbottom
  exact ⟨⟨_, hfrozen.breaker, ht', hbottom, hkept'.triggerDate.trans (triggerDate_checkNewDay today p b),
    hkept'.resumeMode.trans (hmode'.trans hmode), hkept'.recoveryPct.trans hr'⟩, hp⟩

theorem Waiting.tick (evaluate : Evaluate) {s : Floor} (h : Waiting today i r low s) (hp : 0 < p) (hact : Active i s.engine)
    (oracle : Oracle) :
    if Recovered r low p then Cleared i (s.step evaluate (.call (.onPriceUpdate today i p) oracle))
    else Waiting today i r (min low p) (s.step evaluate (.call (.onPriceUpdate today i p) oracle)) ∧
      announcedBuys evaluate s.engine today i p = ∅ := by
  obtain ⟨⟨b, hb, ht, hlow, hdate, hmode, rfl⟩, hlow0⟩ := h
  have hnew := checkNewDay_of_today hdate p
  have hstill : b.shouldTrigger p = false := by rw [CircuitBreakerState.shouldTrigger, if_pos ht]
  have hchecked : checked today p b = b := by rw [checked, hnew, if_neg (by simp [hstill])]
  have hgate : breakerGate evaluate (s.engine.taCandles15m i) p b = _ :=
    breakerGate_trailing _ hmode ht hlow hlow0 hp
  have hfrozen : Frozen i (BreakerRun.tick evaluate (s.engine.taCandles15m i) today p b) (s.engine.taCandles15m i)
      (s.step evaluate (.call (.onPriceUpdate today i p) oracle)).engine := step_tick hact hb oracle
  rw [BreakerRun.tick, hchecked, if_pos ht, hgate] at hfrozen
  split
  next hrec =>
    rw [if_pos hrec] at hfrozen
    exact ⟨_, hfrozen.breaker, rfl⟩
  next hrec =>
    rw [if_neg hrec] at hfrozen hgate
    obtain ⟨hbottom, ht'⟩ := updateBottom_of_triggered ht hlow p
    have hkept := kept_updateBottom p b
    refine ⟨⟨⟨_, hfrozen.breaker, ht', hbottom, hkept.triggerDate.trans hdate, hkept.resumeMode.trans hmode,
      hkept.recoveryPct⟩, lt_min hlow0 hp⟩, ?_⟩
    refine Set.eq_empty_of_forall_notMem (fun k hk => ?_)
    have hpass : gatePasses evaluate s.engine i p ((s.engine.breakers i).map (fun b => b.checkNewDay today p)) =
        true := hk.2.2.1
    rw [hb, Option.map_some, hnew, gatePasses, if_pos ht, hgate] at hpass
    cases hpass

theorem Waiting.other {s : Floor} {e : Event} (h : Waiting today i r low s) (hday : SameDay today i e)
    (hprice : priceFor i e = none) : Waiting today i r low (s.step evaluate e) := by
  obtain ⟨⟨b, hb, hrest⟩, hlow0⟩ := h
  exact ⟨⟨b, (step_other hday hprice).trans hb, hrest⟩, hlow0⟩

theorem Waiting.run {events : List Event} {s : Floor} (h : Waiting today i r low s)
    (hrun : AllMeet (Floor.step evaluate) (Steadily today i) s events) (hbelow : Below r i low events) :
    Waiting today i r (lowest i low events) (s.runEvents evaluate events) := by
  induction events generalizing s low with
  | nil => exact h
  | cons e events ih =>
      obtain ⟨⟨hday, hprice⟩, hrest⟩ := hrun
      rw [Below] at hbelow
      cases hpe : priceFor i e with
      | none =>
          rw [hpe] at hbelow
          rw [lowest, hpe]
          exact ih (h.other hday hpe) hrest hbelow
      | some p =>
          rw [hpe] at hbelow
          obtain ⟨oracle, rfl⟩ := tick_of_priceFor hday hpe
          have htick := h.tick evaluate (hprice p hpe).1 (hprice p hpe).2 oracle
          rw [if_neg hbelow.1] at htick
          rw [lowest, hpe]
          exact ih htick.1 hrest hbelow.2

theorem below_append {events events' : List Event} :
    Below r i low (events ++ events') ↔ Below r i low events ∧ Below r i (lowest i low events) events' := by
  induction events generalizing low with
  | nil => simp [Below, lowest]
  | cons e events ih =>
      simp only [List.cons_append, Below, lowest]
      cases priceFor i e with
      | none => exact ih
      | some p => simp only [ih, and_assoc]

theorem Waiting.noBuy {s : Floor} (h : Waiting today i r low s) (hs : Sound ∅ s.engine) (hp : 0 < p)
    (hact : Active i s.engine) (hrec : ¬ Recovered r low p) (oracle : Oracle) :
    NoBuy s (s.step evaluate (.call (.onPriceUpdate today i p) oracle)) := by
  have htick := h.tick evaluate hp hact oracle
  rw [if_neg hrec] at htick
  exact noBuy_of_blocked hs oracle htick.2

/-- What a breaker that triggered at p makes of a run in which no price has recovered,
and of the price after it. -/
structure Trails (evaluate : Evaluate) (today : Date) (i : String) (r p : ℚ) (s : Floor) (events : List Event) :
    Prop where
  bottom : Waiting today i r (lowest i p events) (s.runEvents evaluate events)
  noBuy : ∀ before q oracle after, events = before ++ .call (.onPriceUpdate today i q) oracle :: after →
    NoBuy (s.runEvents evaluate before)
      ((s.runEvents evaluate before).step evaluate (.call (.onPriceUpdate today i q) oracle))
  next : ∀ q oracle, 0 < q → Active i (s.runEvents evaluate events).engine →
    (Recovered r (lowest i p events) q ↔
      Cleared i ((s.runEvents evaluate events).step evaluate (.call (.onPriceUpdate today i q) oracle)))

theorem Waiting.not_cleared {s : Floor} (h : Waiting today i r low s) : ¬ Cleared i s := by
  obtain ⟨⟨b, hb, ht, -⟩, -⟩ := h
  rintro ⟨c, hc, hf⟩
  rw [hb, Option.some.injEq] at hc
  rw [← hc, ht] at hf
  cases hf

theorem Waiting.trails {events : List Event} {s : Floor} (h : Waiting today i r p s) (hs : Sound ∅ s.engine)
    (hrun : AllMeet (Floor.step evaluate) (Steadily today i) s events) (hbelow : Below r i p events) :
    Trails evaluate today i r p s events := by
  have hend := h.run hrun hbelow
  refine ⟨hend, ?_, fun q oracle hq hact => ?_⟩
  · rintro before q oracle after rfl
    obtain ⟨hbefore, ⟨-, hprice⟩, -⟩ := allMeet_append.mp hrun
    obtain ⟨hlow, hbelow⟩ := below_append.mp hbelow
    have hpe : priceFor i (.call (.onPriceUpdate today i q) oracle) = some q := if_pos rfl
    rw [Below, hpe] at hbelow
    exact (h.run hbefore hlow).noBuy (runEvents_keeps before hs (by simp)).1 (hprice q hpe).1 (hprice q hpe).2
      hbelow.1 oracle
  · have htick := hend.tick evaluate hq hact oracle
    constructor
    · intro hrec
      rwa [if_pos hrec] at htick
    · intro hcleared
      by_contra hrec
      rw [if_neg hrec] at htick
      exact htick.1.not_cleared hcleared

/-- From the tick at which it triggers, a breaker that trails the price keeps the
lowest price seen, lets no buy through, and is cleared by the first price that has recovered. -/
theorem trailing_buy {s : Floor} (hs : s.Reachable evaluate) (hact : Active i s.engine)
    (hb : s.engine.breakers i = some b) (hmode : b.resumeMode = .trailingBuy) (hr : 0 < b.recoveryPct) (hp : 0 < p)
    (htrig : (b.checkNewDay today p).shouldTrigger p = true) (oracle : Oracle) {events : List Event}
    (hrun : AllMeet (Floor.step evaluate) (Steadily today i)
      (s.runCall evaluate (.onPriceUpdate today i p) oracle).2 events)
    (hbelow : Below b.recoveryPct i p events) :
    NoBuy s (s.runCall evaluate (.onPriceUpdate today i p) oracle).2 ∧
      Trails evaluate today i b.recoveryPct p (s.runCall evaluate (.onPriceUpdate today i p) oracle).2 events := by
  have hsound := reachable_sound hs
  constructor
  · refine noBuy_of_blocked hsound oracle (Set.eq_empty_of_forall_notMem (fun k hk => ?_))
    have hstill := hk.2.1 (b.checkNewDay today p) (by simp [hb])
    rw [htrig] at hstill
    cases hstill
  · exact (waiting_of_trigger hact hb hmode hr hp htrig oracle).trails
      (runCall_keeps evaluate _ hsound (by simp) oracle).1 hrun hbelow

/-- A breaker that triggers at a fall of 4 % and resumes 5 % above the low. -/
def trailing : BreakerArgs := { criticalThreshold := 4, resumeMode := .trailingBuy, dayOpenPrice := some 115 }

def guarded : Floor :=
  (Floor.start true).runEvents (fun _ _ _ => true) (.call (.configureCircuitBreaker "grid" trailing) willing :: activated)

def priced (p : ℚ) : Event := .call (.onPriceUpdate 1 "grid" p) willing

/-- The breaker triggers at 110, the price falls to 100, and 104 is not yet 5 % above the low. -/
theorem trailing_buy_falling :
    NoBuy guarded (guarded.runCall (fun _ _ _ => true) (.onPriceUpdate 1 "grid" 110) willing).2 ∧
      Trails (fun _ _ _ => true) 1 "grid" 5 110
        (guarded.runCall (fun _ _ _ => true) (.onPriceUpdate 1 "grid" 110) willing).2 [priced 100, priced 104] := by
  refine trailing_buy (b := trailing.breaker "grid") ⟨true, _, rfl⟩ ⟨tradingGrid, by decide +kernel, rfl⟩
    (by decide +kernel) rfl (by decide) (by decide) (by decide +kernel) willing ?_ ?_
  · refine ⟨⟨fun _ => rfl, fun q hq => ?_⟩, ⟨fun _ => rfl, fun q hq => ?_⟩, trivial⟩
    · obtain rfl : 100 = q := Option.some.inj hq
      exact ⟨by norm_num, { tradingGrid with currentPrice := some 110 }, by decide +kernel, rfl⟩
    · obtain rfl : 104 = q := Option.some.inj hq
      exact ⟨by norm_num, { tradingGrid with currentPrice := some 100 }, by decide +kernel, rfl⟩
  · simp only [Below, priced, priceFor, if_true, Recovered, BreakerArgs.breaker]
    norm_num [trailing, defaultRecoveryPct, CircuitBreakerState.postInit]

end Utos.Grid.TrailingBuy
