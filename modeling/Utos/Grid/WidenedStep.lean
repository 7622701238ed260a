import Utos.Grid.PlanStable
import Utos.Grid.BreakerRun
import Utos.Coroutine.Trace
import Mathlib.Tactic.Linarith

namespace Utos.Grid.WidenedStep

open Coroutine Program Core.DomainTypes Core.Exceptions Execution.Models Execution.Service Execution.Exchange
open State CircuitBreaker Planner Engine Trading Invariant BuyTerms Activation BreakerRun

variable {evaluate : Evaluate} {today : Date} {i : String} {m p : ℚ} {L : List Nat} {s : Floor}

/-- The breaker is triggered when the tick plans its buys, its step is widened by m,
and the levels of the grid are numbered by L. -/
structure Widens (m : ℚ) (L : List Nat) (today : Date) (i : String) (p : ℚ) (s : Floor) : Prop where
  breaker : ∃ b, s.engine.breakers i = some b ∧ (checked today p b).triggered = true ∧ b.resumeMode = .widenStep ∧
    b.widenMultiplier = m
  levels : ∀ g, s.engine.grids i = some g → g.levels.map GridLevel.level = L

/-- Every price of the instance is processed while the breaker widens the step. -/
def Widening (m : ℚ) (L : List Nat) (i : String) (s : Floor) (e : Event) : Prop :=
  ∀ today p oracle, e = .call (.onPriceUpdate today i p) oracle → Widens m L today i p s

/-- Between the two states the exchange has made a buy order for the level. -/
def BuysOn (k : LevelKey) (s s' : Floor) : Prop :=
  ∃ r o, s.desk.orders.length ≤ r ∧ s'.desk.orders[r]? = some o ∧ o.side = .buy ∧ o.owner.key = k

/-- A price update of the run places a buy on the level. -/
def Bought (evaluate : Evaluate) (i : String) (s : Floor) (events : List Event) (n : Nat) : Prop :=
  ∃ before today p oracle after, events = before ++ .call (.onPriceUpdate today i p) oracle :: after ∧
    BuysOn ⟨i, n⟩ (s.runEvents evaluate before)
      ((s.runEvents evaluate before).step evaluate (.call (.onPriceUpdate today i p) oracle))

/-- Two levels that the price updates of the run buy on are at least m apart. -/
def Spaced (evaluate : Evaluate) (m : ℚ) (i : String) (s : Floor) (events : List Event) : Prop :=
  ∀ n n', Bought evaluate i s events n → Bought evaluate i s events n' → n ≠ n' → m ≤ |(n : ℚ) - n'|

/-- The multiplier is an integer, or no two levels are neighbours among the
multiples of its integer part. -/
def Holds (m : ℚ) (L : List Nat) : Prop :=
  (⌊m⌋ : ℚ) = m ∨ ∀ n ∈ L, ∀ n' ∈ L, ⌊m⌋ ∣ (n : Int) → (n' : Int) ≠ n + ⌊m⌋

theorem one_le_floor (hm : 1 < m) : 1 ≤ ⌊m⌋ := Int.le_floor.mpr (by exact_mod_cast hm.le)

theorem skipsBuy_eq_false (hm : 1 < m) (n : Nat) : skipsBuy true m n = false ↔ ⌊m⌋ ∣ (n : Int) := by
  have hm0 : m ≠ 0 := by linarith
  rcases (one_le_floor hm).eq_or_lt with h1 | h1
  · have hnot : ¬ 1 < ⌊m⌋ := h1 ▸ lt_irrefl 1
    have hdvd : ⌊m⌋ ∣ (n : Int) := h1 ▸ one_dvd _
    simp only [skipsBuy, decide_eq_false hnot, Bool.and_false, Bool.false_and, hdvd]
  · simp only [skipsBuy, decide_eq_true hm0, decide_eq_true hm, decide_eq_true h1, Bool.true_and,
      decide_eq_false_iff_not, ne_eq, not_not, Int.dvd_iff_emod_eq_zero]

theorem not_skipsBuy_of_mem_plan {levels : List GridLevel} {active : Bool} {a : GridAction}
    (ha : a ∈ plan levels p active m) (hbuy : a.action = .placeBuy) : skipsBuy active m a.level = false := by
  obtain ⟨lv, -, hdecided⟩ := List.mem_filterMap.mp ha
  split at hdecided
  next => cases hdecided
  next a' _ =>
    split at hdecided
    next => cases hdecided
    next hskips =>
      cases hdecided
      exact Bool.eq_false_iff.mpr (fun h => hskips ⟨hbuy, h⟩)

theorem Widens.announced (hm : 1 < m) (h : Widens m L today i p s) {k : LevelKey}
    (hk : k ∈ announcedBuys evaluate s.engine today i p) : k.level ∈ L ∧ ⌊m⌋ ∣ (k.level : Int) := by
  obtain ⟨⟨b, hb, ht, hmode, hmult⟩, hlevels⟩ := h
  obtain ⟨⟨g, hg, -⟩, hstill, -, -, a, ha, hbuy, hlevel⟩ := hk
  rw [hb, Option.map_some] at hstill ha
  rw [checked, if_neg (by simp [hstill])] at ht
  have hmode' : (b.checkNewDay today p).resumeMode = .widenStep := (configured_checkNewDay today p b).2.1.trans hmode
  have hmult' : (b.checkNewDay today p).widenMultiplier = m := by
    rw [CircuitBreakerState.checkNewDay]
    split
    next => exact hmult
    next => split <;> exact hmult
  have hcontext : breakerContext (some (b.checkNewDay today p)) = (true, m) := by
    simp only [breakerContext, ht, hmode', hmult', and_self, if_true]
  rw [hcontext] at ha
  constructor
  · have hmem := (plan_levels_sublist _ _ _ _).subset (List.mem_map_of_mem ha)
    rw [hlevel, State.Store.listLevels, Option.mem_def.mp hg] at hmem
    rw [← hlevels g hg]
    exact hmem
  · rw [← skipsBuy_eq_false hm, ← hlevel]
    exact not_skipsBuy_of_mem_plan ha hbuy

theorem bought_of_run (hm : 1 < m) (hs : Sound ∅ s.engine) {events : List Event}
    (hrun : AllMeet (Floor.step evaluate) (Widening m L i) s events) {n : Nat} (hn : Bought evaluate i s events n) :
    n ∈ L ∧ ⌊m⌋ ∣ (n : Int) := by
  obtain ⟨before, today, p, oracle, after, rfl, r, o, hr, ho, hside, hkey⟩ := hn
  obtain ⟨-, hwidens, -⟩ := allMeet_append.mp hrun
  have hsound : Sound ∅ (s.runEvents evaluate before).engine := (Reach.runEvents_keeps before hs (by simp)).1
  have hannounced := (runCall_onPriceUpdate_buys hsound today i p oracle).2 r o hr ho hside
  rw [hkey] at hannounced
  exact (hwidens today p oracle rfl).announced hm hannounced

theorem le_abs_sub (hm : 1 < m) (h : Holds m L) {n n' : Nat} (hn : n ∈ L) (hn' : n' ∈ L) (hdvd : ⌊m⌋ ∣ (n : Int))
    (hdvd' : ⌊m⌋ ∣ (n' : Int)) (hne : n ≠ n') : m ≤ |(n : ℚ) - n'| := by
  have hpos := one_le_floor hm
  obtain ⟨c, hc⟩ := hdvd.sub hdvd'
  have hc0 : c ≠ 0 := by
    rintro rfl
    rw [mul_zero] at hc
    omega
  have habs : |(n : ℚ) - n'| = ⌊m⌋ * |c| := by
    have hcast : (n : ℚ) - n' = ((⌊m⌋ * c : Int) : ℚ) := by
      rw [← hc]
      push_cast
      rfl
    rw [hcast, ← Int.cast_abs, abs_mul, abs_of_pos (by omega)]
    push_cast
    rfl
  have hfloor : (1 : ℚ) ≤ ⌊m⌋ := by exact_mod_cast hpos
  rw [habs]
  rcases h with hwhole | hapart
  · have hone : (1 : ℚ) ≤ |c| := by exact_mod_cast Int.one_le_abs hc0
    calc m = ⌊m⌋ * 1 := by rw [hwhole, mul_one]
      _ ≤ ⌊m⌋ * |c| := mul_le_mul_of_nonneg_left hone (by linarith)
  · have htwo : 2 ≤ |c| := by
      have h1 : c ≠ 1 := by
        rintro rfl
        apply hapart n' hn' n hn hdvd'
        omega
      have h2 : c ≠ -1 := by
        rintro rfl
        apply hapart n hn n' hn' hdvd
        omega
      rcases abs_cases c with ⟨he, hsign⟩ | ⟨he, hsign⟩ <;> rw [he] <;> omega
    have htwo' : (2 : ℚ) ≤ |c| := by exact_mod_cast htwo
    calc m ≤ ⌊m⌋ + 1 := (Int.lt_floor_add_one m).le
      _ ≤ ⌊m⌋ * 2 := by linarith
      _ ≤ ⌊m⌋ * |c| := mul_le_mul_of_nonneg_left htwo' (by linarith)

theorem spaced_of_holds (hm : 1 < m) (h : Holds m L) (hs : Sound ∅ s.engine) {events : List Event}
    (hrun : AllMeet (Floor.step evaluate) (Widening m L i) s events) : Spaced evaluate m i s events := by
  intro n n' hn hn' hne
  obtain ⟨hmem, hdvd⟩ := bought_of_run hm hs hrun hn
  obtain ⟨hmem', hdvd'⟩ := bought_of_run hm hs hrun hn'
  exact le_abs_sub hm h hmem hmem' hdvd hdvd' hne

def dippedLevel (n : Nat) : GridLevel := { level := n, buyPrice := 100, sellPrice := 200, quantity := 1 }

def dippedGrid (i : String) (L : List Nat) : GridState :=
  { instanceId := i, status := .active, upperPrice := 200, lowerPrice := 100, gridCount := L.length
    gridSpacing := 10, investmentPerGrid := 100, levels := L.map dippedLevel, exchangeAccountId := some 1
    symbol := "BTCUSDT" }

/-- A breaker that has triggered and widens the step by m. -/
def widening (i : String) (m : ℚ) : CircuitBreakerState :=
  { instanceId := i, criticalThreshold := 4, resumeMode := .widenStep, widenMultiplier := m
    dayOpenPrice := some 110, triggered := true, triggerDate := some 0, triggerPrice := some 100
    bottomPrice := some 100, ta15mConfigs := defaultTa15mConfigs }

/-- A grid whose levels all wait for the price to fall to 100. -/
def dipped (i : String) (m : ℚ) (L : List Nat) : Floor :=
  ⟨{ grids := State.Store.put (fun _ => none) i (dippedGrid i L), breakers := fun _ => some (widening i m) }, {}⟩

/-- The exchange has a buy of the level. -/
def HasBuy (i : String) (w : World Owner) (a : GridAction) : Prop :=
  ∃ o ∈ w.desk.orders, o.side = .buy ∧ o.owner.key = ⟨i, a.level⟩

/-- The actions left are buys of one coin at 100, and those carried out are at the exchange. -/
def Buying (i : String) (planned xs : List GridAction) (w : World Owner) : Prop :=
  w.oracle = willing ∧ (∀ a ∈ xs, a.side = .buy ∧ a.action = .placeBuy ∧ a.price = 100 ∧ a.quantity = 1) ∧
    ∀ a ∈ planned, a ∈ xs ∨ HasBuy i w a

theorem obliges_buying {g : GridState} (haccount : g.exchangeAccountId = some 1) (hsymbol : g.symbol = "BTCUSDT")
    (planned : List GridAction) : PlanStable.Obliges handler i g (Buying i planned) where
  cancel := by
    rintro a xs w orderId hcancel ⟨-, hbuys, -⟩
    rw [(hbuys a List.mem_cons_self).2.1] at hcancel
    cases hcancel
  place := by
    rintro a xs w - ⟨hwilling, hbuys, hplanned⟩
    obtain ⟨hside, -, hprice, hquantity⟩ := hbuys a List.mem_cons_self
    have hvalid : ∀ id, Execution.Validator.validate (limitOrder g a.side a.quantity (some a.price) id) = .ok () := by
      intro id
      have hblank : Execution.Validator.blank "BTCUSDT" = false := by decide
      have hone : ¬ (1 : ℚ) ≤ 0 := by decide
      have hhundred : ¬ (100 : ℚ) ≤ 0 := by decide
      simp [Execution.Validator.validate, limitOrder, haccount, hsymbol, hblank, hprice, hquantity,
        Execution.Validator.missing, hone, hhundred]
    simp only [Terms.placement, handler, hvalid, hwilling]
    refine ⟨_, rfl, rfl, fun b hb => hbuys b (List.mem_cons_of_mem a hb), fun b hb => ?_⟩
    rcases hplanned b hb with hb | ⟨o, ho, hobuy⟩
    · rcases List.mem_cons.mp hb with rfl | hb
      · exact .inr ⟨_, List.mem_append_right _ List.mem_cons_self, hside, rfl⟩
      · exact .inl hb
    · exact .inr ⟨o, List.mem_append_left _ ho, hobuy⟩

theorem plan_dipped (m : ℚ) (L : List Nat) {a : GridAction} :
    a ∈ plan (L.map dippedLevel) 90 true m ↔ ∃ n ∈ L, skipsBuy true m n = false ∧ a = placeBuyOf (dippedLevel n) := by
  have hdecided : ∀ n, planLevel (dippedLevel n) 90 = some (placeBuyOf (dippedLevel n)) := fun n => by
    have hdip : (90 : ℚ) ≤ 100 := by decide
    simp [planLevel, dippedLevel, hdip]
  rw [plan, List.filterMap_map, List.mem_filterMap]
  refine exists_congr (fun n => and_congr_right (fun _ => ?_))
  simp only [Function.comp, hdecided]
  by_cases hskips : skipsBuy true m n = true
  · simp [hskips, placeBuyOf, dippedLevel]
  · simp [hskips, placeBuyOf, dippedLevel, eq_comm]

theorem gate_widening (evaluate : Evaluate) (i : String) (m : ℚ) :
    (breakerGate evaluate none 90 (widening i m)).1 = true := rfl

/-- From the gate on, a tick at 90 buys on every level that the widened step does not skip. -/
theorem wp_buysPlan {s : GridEngine} (hL : L.Nodup)
    (hg : s.grids i = some { dippedGrid i L with currentPrice := some 90 })
    (hb : s.breakers i = some (widening i m)) (hcandles : s.taCandles15m i = none)
    (htrailing : s.trailingConfig i = none) :
    wp handler (.bind .read (fun s => .bind (passGate evaluate i 90) (fun gate =>
      .bind (executePlan i (!false && gate) (plan (s.grids.listLevels i) 90
        (breakerContext (s.breakers i)).1 (breakerContext (s.breakers i)).2)) (fun _ => forwardToLocks i 90))))
      (fun _ _ w => ∀ a ∈ plan (L.map dippedLevel) 90 true m, HasBuy i w a) s ⟨{}, willing⟩ := by
  have hcontext : breakerContext (some (widening i m)) = (true, m) := rfl
  have htriggered : (widening i m).triggered = true := rfl
  rw [wp_bind, wp_read, andThen_ok, wp_bind, passGate, bind_eq, wp_bind, wp_read, andThen_ok]
  simp only [hb, htriggered, if_true, hcandles, gate_widening, hcontext]
  rw [bind_eq, wp_bind, assignBreaker, wp_modify, andThen_ok, pure_eq, wp_ret, andThen_ok, wp_bind]
  have hlevels : s.grids.listLevels i = L.map dippedLevel := by rw [State.Store.listLevels, hg]; rfl
  have hnodup : ((L.map dippedLevel).map GridLevel.level).Nodup := by
    rw [List.map_map]
    exact hL.map (fun _ _ h => h)
  rw [hlevels]
  have hobliges : PlanStable.Obliges handler i { dippedGrid i L with currentPrice := some 90 }
      (Buying i (plan (L.map dippedLevel) 90 true m)) := obliges_buying rfl rfl _
  refine wp_mono (PlanStable.wp_executePlan_actions hobliges (.plan 90 true m) hg hnodup
    ⟨rfl, fun a ha => ?_, fun a ha => .inl ha⟩) ?_
  · obtain ⟨n, -, -, rfl⟩ := (plan_dipped m L).mp ha
    exact ⟨rfl, rfl, rfl, rfl⟩
  · rintro _ s2 w2 ⟨rfl, ⟨-, -, hbought⟩, g', rfl, -⟩
    rw [andThen_ok, forwardToLocks, bind_eq, wp_bind, wp_read, andThen_ok]
    simp only [htrailing, Option.isSome_none, Bool.false_eq_true, and_false, if_false]
    rw [pure_eq, wp_ret]
    exact fun a ha => (hbought a ha).resolve_left List.not_mem_nil

theorem wp_dipped (evaluate : Evaluate) (hL : L.Nodup) :
    wp handler (onPriceUpdate evaluate 0 i 90) (fun _ _ w =>
      ∀ a ∈ plan (L.map dippedLevel) 90 true m, HasBuy i w a) (dipped i m L).engine ⟨{}, willing⟩ := by
  have hg : (dipped i m L).engine.grids i = some (dippedGrid i L) := by simp [dipped, State.Store.put]
  have hb : (dipped i m L).engine.breakers i = some (widening i m) := rfl
  have hnew : (widening i m).checkNewDay 0 90 = widening i m := checkNewDay_of_today rfl 90
  have hstill : (widening i m).shouldTrigger 90 = false := rfl
  have hactive : (dippedGrid i L).status = .active := rfl
  rw [onPriceUpdate, bind_eq, wp_bind, wp_read, andThen_ok]
  simp only [hg, hactive, ne_eq, not_true_eq_false, if_false]
  rw [bind_eq, wp_bind, setCurrentPrice, modifyGrids, wp_modify, andThen_ok, bind_eq, wp_bind, checkBreaker,
    bind_eq, wp_bind, wp_read, andThen_ok]
  simp only [hb, hnew, hstill, Bool.false_eq_true, if_false]
  rw [bind_eq, wp_bind, assignBreaker, wp_modify, andThen_ok, pure_eq, wp_ret, andThen_ok]
  refine wp_buysPlan hL ?_ ?_ rfl rfl
  · simp [State.Store.assignGrid, hg, State.Store.put]
  · simp [hb, hnew]

theorem sound_dipped (i : String) (m : ℚ) (hL : L.Nodup) : Sound ∅ (dipped i m L).engine where
  numbered := by
    refine Numbered.put (fun j g hj => by cases hj) ?_
    rw [dippedGrid, List.map_map]
    exact hL.map (fun _ _ h => h)
  locksOk _ _ hk := by cases hk
  off _ hk := by cases hk

def dip (i : String) : Event := .call (.onPriceUpdate 0 i 90) willing

theorem bought_dip (evaluate : Evaluate) (hm : 1 < m) (hL : L.Nodup) {n : Nat} (hn : n ∈ L) (hdvd : ⌊m⌋ ∣ (n : Int)) :
    Bought evaluate i (dipped i m L) [dip i] n := by
  have hplanned : placeBuyOf (dippedLevel n) ∈ plan (L.map dippedLevel) 90 true m :=
    (plan_dipped m L).mpr ⟨n, hn, (skipsBuy_eq_false hm n).mpr hdvd, rfl⟩
  obtain ⟨o, ho, hside, hkey⟩ := wp_dipped evaluate hL _ hplanned
  obtain ⟨r, hr⟩ := List.mem_iff_getElem?.mp ho
  exact ⟨[], 0, 90, willing, [], rfl, r, o, Nat.zero_le r, hr, hside, hkey⟩

theorem widening_dip (evaluate : Evaluate) (i : String) (m : ℚ) (L : List Nat) :
    AllMeet (Floor.step evaluate) (Widening m L i) (dipped i m L) [dip i] := by
  refine ⟨fun today p oracle he => ?_, trivial⟩
  cases he
  refine ⟨⟨widening i m, rfl, rfl, rfl, rfl⟩, fun g hg => ?_⟩
  have hgrid : (dipped i m L).engine.grids i = some (dippedGrid i L) := by simp [dipped, State.Store.put]
  cases hgrid.symm.trans hg
  rw [dippedGrid, List.map_map]
  exact List.map_id L

/-- A widened step keeps the levels that the price updates buy on m apart in every
run, exactly when m is an integer, or no two levels of the grid are neighbours
among the multiples of its integer part. -/
theorem spaced_iff (evaluate : Evaluate) (i : String) (hm : 1 < m) (hL : L.Nodup) :
    (∀ s events, Sound ∅ s.engine → AllMeet (Floor.step evaluate) (Widening m L i) s events →
      Spaced evaluate m i s events) ↔ Holds m L := by
  constructor
  · intro hspaced
    by_cases hwhole : (⌊m⌋ : ℚ) = m
    · exact .inl hwhole
    · refine .inr (fun n hn n' hn' hdvd hnext => hwhole ?_)
      have hdvd' : ⌊m⌋ ∣ (n' : Int) := hnext ▸ hdvd.add (dvd_refl _)
      have hne : n' ≠ n := by
        have hpos := one_le_floor hm
        omega
      have hapart := hspaced _ _ (sound_dipped i m hL) (widening_dip evaluate i m L) n' n
        (bought_dip evaluate hm hL hn' hdvd') (bought_dip evaluate hm hL hn hdvd) hne
      have hstep : (n' : ℚ) - n = ⌊m⌋ := by
        have hcast : ((n' : Int) : ℚ) = ((n + ⌊m⌋ : Int) : ℚ) := congrArg _ hnext
        push_cast at hcast
        linarith
      have hpos : (0 : ℚ) ≤ ⌊m⌋ := by exact_mod_cast (one_le_floor hm).trans' zero_le_one
      rw [hstep, abs_of_nonneg hpos] at hapart
      exact le_antisymm (Int.floor_le m) hapart
  · exact fun h s events hs hrun => spaced_of_holds hm h hs hrun

/-- Widened by three, a grid of four levels is bought on at the levels 0 and 3 at most. -/
theorem spaced_iff_three :
    (∀ s events, Sound ∅ s.engine → AllMeet (Floor.step (fun _ _ _ => true)) (Widening 3 [0, 1, 2, 3] "grid") s events →
      Spaced (fun _ _ _ => true) 3 "grid" s events) ↔ Holds 3 [0, 1, 2, 3] :=
  spaced_iff (fun _ _ _ => true) "grid" (by decide) (by decide)

/-- The grid of two levels, whose breaker has triggered at 105 and widens the step by 3/2. -/
def widened : Floor := (Floor.start true).runEvents (fun _ _ _ => true)
  [.call (.configureCircuitBreaker "grid" { criticalThreshold := 4, resumeMode := .widenStep,
                                            widenMultiplier := some (3 / 2), dayOpenPrice := some 115 }) willing,
    .call (.initializeGrid "grid" twoLevels) willing, .call (.activateGrid "grid" 95) willing,
    .call (.onPriceUpdate 1 "grid" 105) willing]

/-- At 100, both levels are bought, which are one apart. -/
theorem not_spaced_widened :
    widened.Reachable (fun _ _ _ => true) ∧
      AllMeet (Floor.step (fun _ _ _ => true)) (Widening (3 / 2) [0, 1] "grid") widened
        [.call (.onPriceUpdate 1 "grid" 100) willing] ∧
      ¬ Spaced (fun _ _ _ => true) (3 / 2) "grid" widened [.call (.onPriceUpdate 1 "grid" 100) willing] := by
  refine ⟨⟨true, _, rfl⟩, ⟨fun today p oracle he => ?_, trivial⟩, fun hspaced => ?_⟩
  · cases he
    have hbreaker : (widened.engine.breakers "grid").map (fun b =>
        ((checked 1 100 b).triggered, b.resumeMode, b.widenMultiplier)) = some (true, .widenStep, 3 / 2) := by
      decide +kernel
    have hlevels : (widened.engine.grids "grid").map (fun g => g.levels.map GridLevel.level) = some [0, 1] := by
      decide +kernel
    obtain ⟨b, hb, hbterms⟩ := Option.map_eq_some_iff.mp hbreaker
    simp only [Prod.mk.injEq] at hbterms
    refine ⟨⟨b, hb, hbterms⟩, fun g hg => ?_⟩
    rw [hg] at hlevels
    exact Option.some.inj hlevels
  · have hbuys : ((widened.step (fun _ _ _ => true) (.call (.onPriceUpdate 1 "grid" 100) willing)).desk.orders.map
        (fun o => (o.owner.key, o.side))) = [(⟨"grid", 0⟩, .buy), (⟨"grid", 1⟩, .buy)] := by decide +kernel
    have hnone : widened.desk.orders.length = 0 := by decide +kernel
    have hbought : ∀ n, n < 2 → Bought (fun _ _ _ => true) "grid" widened
        [.call (.onPriceUpdate 1 "grid" 100) willing] n := by
      intro n hn
      have hget := congrArg (fun orders => orders[n]?) hbuys
      have hkey : [((⟨"grid", 0⟩ : LevelKey), OrderSide.buy), (⟨"grid", 1⟩, .buy)][n]? = some (⟨"grid", n⟩, .buy) := by
        obtain rfl | rfl : n = 0 ∨ n = 1 := by omega
        · rfl
        · rfl
      rw [hkey, List.getElem?_map] at hget
      obtain ⟨o, ho, hterms⟩ := Option.map_eq_some_iff.mp hget
      simp only [Prod.mk.injEq] at hterms
      exact ⟨[], 1, 100, willing, [], rfl, n, o, hnone ▸ Nat.zero_le n, ho, hterms.2, hterms.1⟩
    have h := hspaced 0 1 (hbought 0 (by decide)) (hbought 1 (by decide)) (by decide)
    norm_num at h

end Utos.Grid.WidenedStep
