import Utos.Grid.BreakerRun

namespace Utos.Grid.ClosedGate

open Coroutine Program Core.DomainTypes Core.Exceptions Execution.Models Execution.Service Execution.Exchange
open State CircuitBreaker Planner Engine Trading Invariant BuyTerms Activation Frames BreakerRun

variable {evaluate : Evaluate} {today : Date} {i : String} {p : ℚ} {s : GridEngine} {w : World Owner}

def sideOf (id : UUID) : ExecReq Owner → Option OrderSide
  | .placeOrder _ request => some (request id).side
  | .cancelOrder _ _ => none

def IsBuy (q : ExecReq Owner) : Prop := ∃ id, sideOf id q = some .buy

/-- No breaker that holds buys back is triggered. -/
def Unblocked (i : String) (s : GridEngine) : Prop :=
  ∀ b, s.breakers i = some b → b.triggered = true → b.resumeMode = .widenStep

/-- The TA configs of the instance, if there are any, pass over its candles. -/
def ConfigsPass (evaluate : Evaluate) (i : String) (p : ℚ) (s : GridEngine) : Prop :=
  ∀ configs, s.taConfigs i = some configs → configs ≠ [] →
    ∃ candles, s.taCandles i = some candles ∧ candles ≠ [] ∧ evaluate configs candles p = true

/-- The TA configs of the instance, if there are any, pass over its candles, if there are any. -/
def CachedPass (evaluate : Evaluate) (i : String) (p : ℚ) (s : GridEngine) : Prop :=
  ∀ configs candles, s.taConfigs i = some configs → configs ≠ [] → s.taCandles i = some candles → candles ≠ [] →
    evaluate configs candles p = true

/-- What the gate reads of an instance. -/
structure GateAs (i : String) (breaker : Option CircuitBreakerState) (configs : Option (List TAConfig))
    (candles : Option (List CandleData)) (s : GridEngine) : Prop where
  breaker : s.breakers i = breaker
  configs : s.taConfigs i = configs
  candles : s.taCandles i = candles

variable {breaker : Option CircuitBreakerState} {configs : Option (List TAConfig)} {candles : Option (List CandleData)}

theorem indifferent_gateAs : Indifferent (GateAs i breaker configs candles) :=
  ⟨fun _ _ _ _ h => ⟨h.breaker, h.configs, h.candles⟩, fun _ _ h => ⟨h.breaker, h.configs, h.candles⟩⟩

theorem announced_of_asked {s0 : GridEngine} (hs : Sound ∅ s0) {x : GridEngine × ExecReq Owner}
    (hx : x ∈ asked handler (onPriceUpdate evaluate today i p) s0 w) (hbuy : IsBuy x.2) :
    ∃ k, k ∈ announcedBuys evaluate s0 today i p := by
  have hspend : ∀ (o : Intent) (s : GridEngine) (q : ExecReq Owner), buyTerms.asks o s q →
      o.buys ⊆ announcedBuys evaluate s0 today i p ∧ o.replaces = none →
      (buyTerms.spend o q).buys ⊆ announcedBuys evaluate s0 today i p ∧ (buyTerms.spend o q).replaces = none := by
    rintro o s q - ⟨hsub, hnone⟩
    cases q with
    | cancelOrder acct orderId =>
        simp only [buyTerms_spend, Intent.spend, hnone]
        exact ⟨hsub, trivial⟩
    | placeOrder owner request =>
        simp only [buyTerms_spend, Intent.spend]
        split
        · exact ⟨Set.sdiff_subset.trans hsub, hnone⟩
        · exact ⟨hsub, hnone⟩
  obtain ⟨-, o, ⟨hsub, -⟩, hallows⟩ := asked_of_under _ (fun _ _ => trivial) (fun _ _ _ => trivial) hspend _
    (under_onPriceUpdate hs) hs w ⟨subset_rfl, rfl⟩ hx
  obtain ⟨id, hside⟩ := hbuy
  cases hq : x.2 with
  | cancelOrder acct orderId =>
      rw [hq] at hside
      cases hside
  | placeOrder owner request =>
      rw [hq] at hside hallows
      exact ⟨owner.key, hsub (hallows.2 ((hallows.1 id).symm.trans (Option.some.inj hside)))⟩

/-- Behind the gate, nothing that it reads is touched any more. -/
theorem gateAs_of_asked {buysAllowed : Bool} {actions : List GridAction} (hs : GateAs i breaker configs candles s)
    {x : GridEngine × ExecReq Owner}
    (hx : x ∈ asked handler (.bind (executePlan i buysAllowed actions) (fun _ => forwardToLocks i p)) s w) :
    GateAs i breaker configs candles x.1 :=
  (asked_of_under (fun _ => True) (fun _ _ => trivial) (fun _ _ _ => trivial) (fun _ _ _ _ => id) _
    (steady_bind (writes_executePlan indifferent_gateAs.tolerates i buysAllowed actions)
      (fun _ => writes_forwardToLocks indifferent_gateAs.tolerates i p) s hs) hs w trivial hx).1

/-- The breaker of a tick that does not trigger it, once the gate has been passed. -/
def passed (evaluate : Evaluate) (candles15m : Option (List CandleData)) (today : Date) (p : ℚ)
    (b : CircuitBreakerState) : CircuitBreakerState :=
  if (b.checkNewDay today p).triggered then (breakerGate evaluate candles15m p (b.checkNewDay today p)).2
  else b.checkNewDay today p

/-- A tick that does not trigger the breaker asks for nothing before the gate. -/
theorem gateAs_of_tick {g : GridState} (hg : s.grids i = some g) (hact : g.status = .active)
    (hstill : ∀ b, s.breakers i = some b → (b.checkNewDay today p).shouldTrigger p = false)
    {x : GridEngine × ExecReq Owner} (hx : x ∈ asked handler (onPriceUpdate evaluate today i p) s w) :
    GateAs i ((s.breakers i).map (passed evaluate (s.taCandles15m i) today p)) (s.taConfigs i) (s.taCandles i) x.1 := by
  rw [onPriceUpdate, bind_eq, asked_bind_read] at hx
  simp only [hg, hact, ne_eq, not_true_eq_false, if_false] at hx
  rw [bind_eq, setCurrentPrice, modifyGrids, asked_bind_modify, checkBreaker, bind_eq, bind_eq, Program.bind_assoc,
    asked_bind_read] at hx
  cases hb : s.breakers i with
  | none =>
      simp only [hb, pure_eq, asked_bind_ret, bind_eq, asked_bind_read, passGate, Program.bind_assoc] at hx
      refine gateAs_of_asked ?_ hx
      exact ⟨hb, rfl, rfl⟩
  | some b =>
      simp only [hb, hstill b hb, Bool.false_eq_true, if_false, bind_eq, Program.bind_assoc, assignBreaker, asked_bind_modify,
        pure_eq, asked_bind_ret, asked_bind_read, passGate, Function.update_self, Option.map_some] at hx
      rw [Option.map_some, passed]
      split at hx
      next ht =>
        simp only [Program.bind_assoc, asked_bind_modify, asked_bind_ret] at hx
        refine gateAs_of_asked ?_ hx
        exact ⟨by simp [ht], rfl, rfl⟩
      next ht =>
        simp only [asked_bind_ret] at hx
        refine gateAs_of_asked ?_ hx
        exact ⟨by simp [ht], rfl, rfl⟩

theorem unblocked_breakerGate {candles15m : Option (List CandleData)} {b : CircuitBreakerState}
    (hgate : (breakerGate evaluate candles15m p b).1 = true)
    (ht : (breakerGate evaluate candles15m p b).2.triggered = true) :
    (breakerGate evaluate candles15m p b).2.resumeMode = .widenStep := by
  have hkept := kept_gate evaluate candles15m p b
  rw [hkept.resumeMode, ← (kept_updateBottom p b).resumeMode]
  rw [breakerGate] at hgate ht
  cases hmode : (b.updateBottom p).resumeMode with
  | widenStep => rfl
  | trailingBuy | taConfirm =>
      simp only [hmode] at hgate ht
      split at hgate
      next hpass =>
        rw [if_pos hpass] at ht
        cases ht
      next => cases hgate

/-- A tick places its buys while no breaker that holds them back is triggered; and
unless the breaker was triggered when the tick came to the gate, the TA configs
of the instance pass over the candles that it has. -/
theorem buys_gated {s : Floor} (hs : s.Reachable evaluate) (oracle : Oracle) {x : GridEngine × ExecReq Owner}
    (hx : x ∈ asked handler (perform evaluate (.onPriceUpdate today i p)) s.engine ⟨s.desk, oracle⟩)
    (hbuy : IsBuy x.2) :
    Unblocked i x.1 ∧ ((∀ b, s.engine.breakers i = some b → (checked today p b).triggered = false) →
      CachedPass evaluate i p x.1) := by
  obtain ⟨k, ⟨g, hg, hact⟩, hstill, hgate, -⟩ := announced_of_asked (Reach.reachable_sound hs) hx hbuy
  have hstill' : ∀ b, s.engine.breakers i = some b → (b.checkNewDay today p).shouldTrigger p = false :=
    fun b hb => hstill _ (by simp [hb])
  have hx' := gateAs_of_tick hg hact hstill' hx
  constructor
  · intro b hb ht
    rw [hx'.breaker] at hb
    obtain ⟨b, hbreaker, rfl⟩ := Option.map_eq_some_iff.mp hb
    rw [hbreaker, Option.map_some, gatePasses] at hgate
    rw [passed] at ht ⊢
    split at hgate
    next htrig =>
      rw [if_pos htrig] at ht ⊢
      exact unblocked_breakerGate hgate ht
    next htrig =>
      rw [if_neg htrig] at ht
      exact absurd ht htrig
  · intro hclear configs candles hconfigs hne hcandles hne'
    have htaGate : taGate evaluate (s.engine.taConfigs i) (s.engine.taCandles i) p = true := by
      cases hb : s.engine.breakers i with
      | none =>
          rw [hb] at hgate
          exact hgate
      | some b =>
          have hclear := hclear b hb
          rw [checked, if_neg (by simp [hstill' b hb])] at hclear
          rw [hb, Option.map_some, gatePasses, if_neg (by simp [hclear])] at hgate
          exact hgate
    rw [← hx'.configs, ← hx'.candles, hconfigs, hcandles, taGate] at htaGate
    simpa [hne, hne'] using htaGate

/-- Every buy that the call asks for is asked for while no breaker that holds buys
back is triggered, and the TA configs of the instance pass. -/
def BuysGated (evaluate : Evaluate) (i : String) (p : ℚ) (call : Call) (oracle : Oracle) (s : Floor) : Prop :=
  ∀ x ∈ asked handler (perform evaluate call) s.engine ⟨s.desk, oracle⟩, IsBuy x.2 →
    Unblocked i x.1 ∧ ConfigsPass evaluate i p x.1

/-- A request, and the gates as it is made. -/
structure Moment where
  side : Option OrderSide
  breaker : Option (Bool × BreakerResumeMode)
  configs : Option (List TAConfig)
  candles : Option (List CandleData)
  deriving DecidableEq

def momentOf (i : String) (x : GridEngine × ExecReq Owner) : Moment where
  side := sideOf 0 x.2
  breaker := (x.1.breakers i).map (fun b => (b.triggered, b.resumeMode))
  configs := x.1.taConfigs i
  candles := x.1.taCandles i

def firstMoment (evaluate : Evaluate) (i : String) (call : Call) (oracle : Oracle) (s : Floor) : Option Moment :=
  (asked handler (perform evaluate call) s.engine ⟨s.desk, oracle⟩).head?.map (momentOf i)

theorem not_gated_of_triggered {call : Call} {oracle : Oracle} {s : Floor}
    (hfirst : firstMoment evaluate i call oracle s = some ⟨some .buy, some (true, .taConfirm), configs, candles⟩) :
    ¬ BuysGated evaluate i p call oracle s := by
  intro hgated
  obtain ⟨x, hx, hmoment⟩ := Option.map_eq_some_iff.mp hfirst
  simp only [momentOf, Moment.mk.injEq] at hmoment
  obtain ⟨hside, hbreaker, -, -⟩ := hmoment
  obtain ⟨b, hb, hterms⟩ := Option.map_eq_some_iff.mp hbreaker
  simp only [Prod.mk.injEq] at hterms
  have hmode := (hgated x (List.mem_of_head? hx) ⟨0, hside⟩).1 b hb hterms.1
  rw [hterms.2] at hmode
  cases hmode

theorem not_gated_of_failing {call : Call} {oracle : Oracle} {s : Floor} {gate : Option (Bool × BreakerResumeMode)}
    {cs : List TAConfig} (hfirst : firstMoment evaluate i call oracle s = some ⟨some .buy, gate, some cs, candles⟩)
    (hne : cs ≠ []) (hfails : ∀ ds, evaluate cs ds p = false) : ¬ BuysGated evaluate i p call oracle s := by
  intro hgated
  obtain ⟨x, hx, hmoment⟩ := Option.map_eq_some_iff.mp hfirst
  simp only [momentOf, Moment.mk.injEq] at hmoment
  obtain ⟨hside, -, hconfigs, -⟩ := hmoment
  obtain ⟨ds, -, -, hpass⟩ := (hgated x (List.mem_of_head? hx) ⟨0, hside⟩).2 cs hconfigs hne
  rw [hfails ds] at hpass
  cases hpass

def rsi : TAConfig :=
  { indicator := "rsi", timeFrame := "1h", operator := "and", params := [("period", .number 14)], priority := 1
    description := "" }

/-- The configs of the breaker pass, and those of the instance do not. -/
def reversal : Evaluate := fun configs _ _ => configs = defaultTa15mConfigs

/-- The grid of two levels, which waits for a buy, after other events. -/
def waitingAfter (events : List Event) : Floor := (Floor.start true).runEvents reversal
  (events ++ [.call (.initializeGrid "grid" twoLevels) willing, .call (.activateGrid "grid" 95) willing])

def watched : Event :=
  .call (.configureCircuitBreaker "grid" { criticalThreshold := 4, dayOpenPrice := some 115 }) willing

def triggeredAt105 : Event := .call (.onPriceUpdate 1 "grid" 105) willing

/-- The breaker has triggered, and the grid is paused. -/
def halted : Floor :=
  (waitingAfter [watched]).runEvents reversal [triggeredAt105, .call (.pauseGrid "grid") willing]

/-- The breaker has triggered on an instance with TA configs, and the candles of the reversal come in. -/
def overridden : Floor :=
  (waitingAfter [watched, .call (.configureTa "grid" [rsi]) willing,
    .call (.updateTaCandles "grid" [[("close", 100)]]) willing]).runEvents reversal
      [triggeredAt105, .call (.updateTaCandles15m "grid" [[("close", 100)]]) willing]

def withoutCandles : Floor := waitingAfter [.call (.configureTa "grid" [rsi]) willing]

theorem reachable_waitingAfter (events events' : List Event) :
    ((waitingAfter events).runEvents reversal events').Reachable reversal := by
  refine ⟨true, events ++ [.call (.initializeGrid "grid" twoLevels) willing,
    .call (.activateGrid "grid" 95) willing] ++ events', ?_⟩
  rw [waitingAfter, Floor.runEvents, List.foldl_append]
  rfl

theorem first_overridden : firstMoment reversal "grid" (.onPriceUpdate 1 "grid" 100) willing overridden =
    some ⟨some .buy, some (false, .taConfirm), some [rsi], some [[("close", 100)]]⟩ := by decide +kernel

theorem buys_gated_overridden :
    ∃ x ∈ asked handler (perform reversal (.onPriceUpdate 1 "grid" 100)) overridden.engine ⟨overridden.desk, willing⟩,
      Unblocked "grid" x.1 ∧ ((∀ b, overridden.engine.breakers "grid" = some b → (checked 1 100 b).triggered = false) →
        CachedPass reversal "grid" 100 x.1) := by
  obtain ⟨x, hx, hmoment⟩ := Option.map_eq_some_iff.mp first_overridden
  have hx := List.mem_of_head? hx
  exact ⟨x, hx, buys_gated (reachable_waitingAfter _ _) willing hx ⟨0, congrArg Moment.side hmoment⟩⟩

/-- Three buys that pass a closed gate: the 15m reversal clears the breaker while
the TA configs of the instance fail, the instance has no candles, and the grid is
resumed while the breaker is triggered. -/
theorem buys_not_gated :
    (overridden.Reachable reversal ∧
      ¬ BuysGated reversal "grid" 100 (.onPriceUpdate 1 "grid" 100) willing overridden) ∧
    (withoutCandles.Reachable reversal ∧
      ¬ BuysGated reversal "grid" 100 (.onPriceUpdate 1 "grid" 100) willing withoutCandles) ∧
    (halted.Reachable reversal ∧ ¬ BuysGated reversal "grid" 100 (.resumeGrid "grid" 100) willing halted) := by
  have hfails : ∀ ds, reversal [rsi] ds 100 = false := fun _ => rfl
  have hwithout : firstMoment reversal "grid" (.onPriceUpdate 1 "grid" 100) willing withoutCandles =
      some ⟨some .buy, none, some [rsi], none⟩ := by decide +kernel
  have hhalted : firstMoment reversal "grid" (.resumeGrid "grid" 100) willing halted =
      some ⟨some .buy, some (true, .taConfirm), none, none⟩ := by decide +kernel
  exact ⟨⟨reachable_waitingAfter _ _, not_gated_of_failing first_overridden (by decide) hfails⟩,
    ⟨reachable_waitingAfter _ [], not_gated_of_failing hwithout (by decide) hfails⟩,
    reachable_waitingAfter _ _, not_gated_of_triggered hhalted⟩

end Utos.Grid.ClosedGate
