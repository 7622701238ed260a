import Utos.Coroutine.Gate
import Utos.Coroutine.Trace
import Utos.Services.DropThreshold

namespace Utos.Services.Screener

open Core Core.DomainTypes Core.Exceptions Coroutine DailyDropAnalyzer
open MarketData.Hub (Candle)

/-- TIER_CONFIGS -/
def tierConfigs : List (ℚ × Int × ℚ) := [(7 / 10, 5, 9), (8 / 10, 10, 12), (9 / 10, 30, 15)]

structure ScreenerConfig where
  exchange : String := "binance"
  interval : String := "1d"
  lookbackDays : Int := 365
  minContinuationRate : ℚ := 8 / 10
  minSamples : Int := 3
  continuationWindow : Int := 5
  minFutureDropPct : ℚ := 9
  maxConcurrency : Int := 5
  deriving DecidableEq, Repr

structure BreakerScreeningResult where
  symbol : String
  exchange : String
  thresholdPct : ℚ
  minContinuationRate : ℚ
  continuationWindow : Int
  minFutureDropPct : ℚ
  candleCount : Nat
  usedFallback : Bool
  deriving DecidableEq, Repr

/-- What get_candles returns, or the text of what it raises. -/
abbrev Fetched := Except String (List Candle)

namespace ScreenerConfig

variable (cfg : ScreenerConfig)

def criteria : Criteria where
  minContinuationRate := cfg.minContinuationRate
  minSamples := cfg.minSamples
  continuationWindow := cfg.continuationWindow
  minFutureDropPct := cfg.minFutureDropPct

/-- The candles that are left of those fetched. -/
def recent (candles : List Candle) : List Candle :=
  if cfg.lookbackDays < candles.length then Sequence.since candles (-cfg.lookbackDays) else candles

def result (symbol : String) (thresholdPct : ℚ) (candleCount : Nat) (usedFallback : Bool) : BreakerScreeningResult where
  symbol := upper symbol
  exchange := cfg.exchange
  thresholdPct := thresholdPct
  minContinuationRate := cfg.minContinuationRate
  continuationWindow := cfg.continuationWindow
  minFutureDropPct := cfg.minFutureDropPct
  candleCount := candleCount
  usedFallback := usedFallback

/-- The permits of the semaphore. -/
def permits : Nat := (max 1 cfg.maxConcurrency).toNat

end ScreenerConfig

/-- _screen_symbol, once the candles are fetched. -/
def screenSymbol (cfg : ScreenerConfig) (symbol : String) : Fetched → Except Exn BreakerScreeningResult
  | .error _ | .ok [] => .ok (cfg.result symbol (Screening.fallback cfg.minContinuationRate) 0 true)
  | .ok candles => do
      let candles := cfg.recent candles
      let result ← analyzeDetailed candles cfg.criteria
      return cfg.result symbol result.thresholdPct candles.length result.usedFallback

/-- A call of screen: how many of its coroutines have begun, and the gate to the exchange. -/
structure Screen where
  started : Nat := 0
  gate : Gate Fetched

/-- The next coroutine begins, or the exchange answers one. -/
inductive Event
  | begin
  | answer (i : Nat) (fetched : Fetched)

variable (cfg : ScreenerConfig) (symbols : List String)

def step (s : Screen) : Event → Screen
  | .begin =>
      if s.started < symbols.length then { started := s.started + 1, gate := s.gate.acquire s.started } else s
  | .answer i fetched => { s with gate := s.gate.finish i fetched }

def opening : Screen := { gate := { value := cfg.permits } }

/-- What the coroutines have ended with so far. -/
def results (s : Screen) : List (Nat × Except Exn BreakerScreeningResult) :=
  s.gate.ended.map (fun entry => (entry.1, screenSymbol cfg (symbols.getD entry.1 "") entry.2))

/-- The pairs of _screen_one, in the order of the symbols. -/
def pairs (s : Screen) : List (String × BreakerScreeningResult) :=
  (List.range symbols.length).filterMap (fun i => match (results cfg symbols s).lookup i with
    | some (.ok result) => some (symbols.getD i "", result)
    | _ => none)

/-- What gather returns or raises: the first exception at once, the results when there are all of them. -/
def outcome (s : Screen) : Option (Except Exn (Dict String BreakerScreeningResult)) :=
  match (results cfg symbols s).findSome? (fun entry => match entry.2 with
    | .error e => some e
    | .ok _ => none) with
  | some e => some (.error e)
  | none =>
      if s.gate.ended.length = symbols.length then
        some (.ok ((pairs cfg symbols s).foldl (fun results pair => results.set pair.1 pair.2) ∅))
      else none

/-- The candles that are analysed. -/
def kept : Fetched → List Candle
  | .ok candles => cfg.recent candles
  | .error _ => []

/-- The threshold is the smallest candidate that the kept candles bear out, or the fallback of the rate. -/
structure Screened (symbol : String) (fetched : Fetched) (r : BreakerScreeningResult) : Prop where
  key : r.symbol = upper symbol ∧ r.exchange = cfg.exchange ∧ r.minContinuationRate = cfg.minContinuationRate
  count : r.candleCount = (kept cfg fetched).length
  found : r.usedFallback = false → DropThreshold.Smallest (kept cfg fetched) cfg.criteria r.thresholdPct
  fallback : r.usedFallback = true → r.thresholdPct = Screening.fallback cfg.minContinuationRate ∧
    ¬ ∃ pct, DropThreshold.Smallest (kept cfg fetched) cfg.criteria pct

/-- A call of screen, whatever the exchange has answered: no more requests at a time than allowed, one
as long as an answer is missed, no exception, and in the end a result for each symbol and no other. -/
structure Screens (s : Screen) : Prop where
  bounded : s.gate.inside.length ≤ cfg.permits
  live : outcome cfg symbols s = none → s.started < symbols.length ∨ s.gate.inside ≠ []
  raisesNot : ∀ e, outcome cfg symbols s ≠ some (.error e)
  complete : ∀ d, outcome cfg symbols s = some (.ok d) → ∀ symbol, (d.get symbol).isSome ↔ symbol ∈ symbols
  screened : ∀ d, outcome cfg symbols s = some (.ok d) → ∀ symbol r, d.get symbol = some r → ∃ i fetched,
    symbols[i]? = some symbol ∧ (i, fetched) ∈ s.gate.ended ∧ Screened cfg symbol fetched r

variable {cfg symbols} {s : Screen} {candles : List Candle} {c : Criteria}

theorem find?_smallest (pct : ℚ) :
    candidateThresholds.find? (Stops c (DropThreshold.dropsOf candles c)) = some pct ↔
      DropThreshold.Smallest candles c pct := by
  rw [Sequence.find?_isLeast DropThreshold.candidateThresholds_sorted, DropThreshold.Smallest]
  simp only [DropThreshold.stops_iff]

/-- What an analysis finds: the smallest candidate that qualifies, or that there is none. -/
theorem analyzeDetailed_cases (candles : List Candle) (h : 1 ≤ c.minSamples) : ∃ result,
    analyzeDetailed candles c = .ok result ∧
      (result.usedFallback = false ∧ DropThreshold.Smallest candles c result.thresholdPct ∨
        result = c.fallbackResult ∧ ¬ ∃ pct, DropThreshold.Smallest candles c pct) := by
  refine ⟨_, DropThreshold.analyzeDetailed_eq h, ?_⟩
  cases hfind : candidateThresholds.find? (Stops c (DropThreshold.dropsOf candles c)) with
  | none =>
      refine .inr ⟨rfl, ?_⟩
      rintro ⟨pct, hpct⟩
      cases hfind.symm.trans ((find?_smallest pct).mpr hpct)
  | some found => exact .inl ⟨rfl, (find?_smallest found).mp hfind⟩

theorem recent_nil (cfg : ScreenerConfig) : cfg.recent [] = [] := by
  unfold ScreenerConfig.recent
  split
  · exact List.drop_nil
  · rfl

theorem not_smallest_nil (h : 1 ≤ c.minSamples) : ¬ ∃ pct, DropThreshold.Smallest [] c pct := by
  rintro ⟨pct, ⟨-, hsamples, -⟩, -⟩
  have hshort : (([] : List Candle).length : Int) < c.window + 2 := by
    have hwindow := DropThreshold.one_le_window c
    rw [List.length_nil]
    omega
  rw [DropThreshold.dropDays_empty hshort, Finset.card_empty] at hsamples
  omega

/-- Without candles the fallback is taken. -/
theorem screened_fallback (h : 1 ≤ cfg.minSamples) (symbol : String) {fetched : Fetched} (hkept : kept cfg fetched = []) :
    Screened cfg symbol fetched (cfg.result symbol (Screening.fallback cfg.minContinuationRate) 0 true) :=
  ⟨⟨rfl, rfl, rfl⟩, by rw [hkept]; rfl, fun hfound => (by cases hfound), fun _ => ⟨rfl, hkept ▸ not_smallest_nil h⟩⟩

theorem screenSymbol_screened (h : 1 ≤ cfg.minSamples) (symbol : String) (fetched : Fetched) :
    ∃ r, screenSymbol cfg symbol fetched = .ok r ∧ Screened cfg symbol fetched r := by
  rcases fetched with error | ⟨_ | ⟨candle, rest⟩⟩
  · exact ⟨_, rfl, screened_fallback h symbol rfl⟩
  · exact ⟨_, rfl, screened_fallback h symbol (recent_nil cfg)⟩
  · obtain ⟨result, hresult, hcases⟩ := analyzeDetailed_cases (c := cfg.criteria) (cfg.recent (candle :: rest)) h
    refine ⟨cfg.result symbol result.thresholdPct (cfg.recent (candle :: rest)).length result.usedFallback, ?_,
      ⟨rfl, rfl, rfl⟩, rfl, fun hfound => ?_, fun hfallback => ?_⟩
    · simp only [screenSymbol, hresult]
      rfl
    · rcases hcases with ⟨-, hsmallest⟩ | ⟨rfl, -⟩
      · exact hsmallest
      · cases hfound
    · rcases hcases with ⟨hfound, -⟩ | ⟨rfl, hnone⟩
      · cases hfound.symm.trans hfallback
      · exact ⟨rfl, hnone⟩

theorem get_foldl_set (pairs : List (String × BreakerScreeningResult)) (d : Dict String BreakerScreeningResult) (k : String) :
    ((pairs.foldl (fun d pair => d.set pair.1 pair.2) d).get k).isSome ↔ k ∈ pairs.map Prod.fst ∨ (d.get k).isSome := by
  induction pairs generalizing d with
  | nil => simp
  | cons pair rest ih =>
      rw [List.foldl_cons, ih, Dict.get_set, List.map_cons, List.mem_cons]
      by_cases hk : k = pair.1
      · simp [hk]
      · simp [hk]

theorem mem_of_get_foldl_set {pairs : List (String × BreakerScreeningResult)} {d : Dict String BreakerScreeningResult}
    {k : String} {r : BreakerScreeningResult} (h : (pairs.foldl (fun d pair => d.set pair.1 pair.2) d).get k = some r) :
    (k, r) ∈ pairs ∨ d.get k = some r := by
  induction pairs generalizing d with
  | nil => exact .inr h
  | cons pair rest ih =>
      rw [List.foldl_cons] at h
      rcases ih h with hmem | hget
      · exact .inl (List.mem_cons_of_mem pair hmem)
      · rw [Dict.get_set] at hget
        by_cases hk : k = pair.1
        · rw [if_pos hk, Option.some.injEq] at hget
          exact .inl (List.mem_cons.mpr (.inl (Prod.ext hk hget.symm)))
        · rw [if_neg hk] at hget
          exact .inr hget

/-- The coroutines begin in the order of the symbols, and each fetches once. -/
structure Gated (cfg : ScreenerConfig) (symbols : List String) (s : Screen) : Prop where
  started : s.started ≤ symbols.length
  sound : s.gate.Sound cfg.permits (List.range s.started)

theorem gated_run (cfg : ScreenerConfig) (symbols : List String) (es : List Event) :
    Gated cfg symbols (es.foldl (step symbols) (opening cfg)) := by
  refine foldl_keeps (I := Gated cfg symbols) (fun s e h => ?_) es ⟨Nat.zero_le _, Gate.sound_open _⟩
  cases e with
  | begin =>
      simp only [step]
      split
      next hless => exact ⟨hless, List.range_succ ▸ h.sound.acquire s.started⟩
      next => exact h
  | answer i fetched => exact ⟨h.started, h.sound.finish i fetched⟩

theorem permits_pos (cfg : ScreenerConfig) : 0 < cfg.permits := by
  have hle := le_max_left 1 cfg.maxConcurrency
  unfold ScreenerConfig.permits
  omega

theorem results_ok (h : 1 ≤ cfg.minSamples) {i : Nat} {outcome : Except Exn BreakerScreeningResult}
    (hmem : (i, outcome) ∈ results cfg symbols s) : ∃ fetched r, (i, fetched) ∈ s.gate.ended ∧ outcome = .ok r ∧
      Screened cfg (symbols.getD i "") fetched r := by
  obtain ⟨entry, hentry, heq⟩ := List.mem_map.mp hmem
  obtain ⟨r, hr, hscreened⟩ := screenSymbol_screened h (symbols.getD entry.1 "") entry.2
  rw [Prod.mk.injEq, hr] at heq
  obtain ⟨rfl, rfl⟩ := heq
  exact ⟨entry.2, r, hentry, rfl, hscreened⟩

/-- A pair comes from a coroutine that has ended, and its symbol. -/
theorem mem_pairs (h : 1 ≤ cfg.minSamples) {symbol : String} {r : BreakerScreeningResult}
    (hmem : (symbol, r) ∈ pairs cfg symbols s) : ∃ i fetched,
      symbols[i]? = some symbol ∧ (i, fetched) ∈ s.gate.ended ∧ Screened cfg symbol fetched r := by
  obtain ⟨i, hi, hpair⟩ := List.mem_filterMap.mp hmem
  have hsymbol : symbols[i]? = some (symbols.getD i "") := by
    rw [List.getD_eq_getElem?_getD, List.getElem?_eq_getElem (List.mem_range.mp hi), Option.getD_some]
  cases hlookup : (results cfg symbols s).lookup i with
  | none =>
      rw [hlookup] at hpair
      cases hpair
  | some outcome =>
      obtain ⟨before, after, heq, -⟩ := List.lookup_eq_some_iff.mp hlookup
      have hresult : (i, outcome) ∈ results cfg symbols s := heq ▸ List.mem_append_right before List.mem_cons_self
      obtain ⟨fetched, r', hended, rfl, hscreened⟩ := results_ok h hresult
      rw [hlookup] at hpair
      cases hpair
      exact ⟨i, fetched, hsymbol, hended, hscreened⟩

/-- When all have ended, there is a pair for each symbol. -/
theorem map_fst_pairs (h : 1 ≤ cfg.minSamples) (hgated : Gated cfg symbols s)
    (hall : s.gate.ended.length = symbols.length) : (pairs cfg symbols s).map Prod.fst = symbols := by
  have hstarted : s.started = symbols.length := by
    have hlength := hgated.sound.jobs.length_eq
    rw [List.length_append, List.length_map, List.length_range] at hlength
    have hle := hgated.started
    omega
  have hperm : (s.gate.ended.map Prod.fst).Perm (List.range symbols.length) := by
    have hsound := hgated.sound
    rw [hstarted] at hsound
    exact hsound.ended_perm (by rw [hall, List.length_range])
  have hpair : ∀ i ∈ List.range symbols.length, ((match (results cfg symbols s).lookup i with
      | some (.ok result) => some (symbols.getD i "", result)
      | _ => none).map Prod.fst) = some (symbols.getD i "") := by
    intro i hi
    obtain ⟨entry, hentry, rfl⟩ := List.mem_map.mp (hperm.symm.subset hi)
    have hresult : (entry.1, screenSymbol cfg (symbols.getD entry.1 "") entry.2) ∈ results cfg symbols s :=
      List.mem_map_of_mem (f := fun entry => (entry.1, screenSymbol cfg (symbols.getD entry.1 "") entry.2)) hentry
    cases hlookup : (results cfg symbols s).lookup entry.1 with
    | none => exact absurd (List.lookup_eq_none_iff.mp hlookup _ hresult) (by simp)
    | some outcome =>
        obtain ⟨before, after, heq, -⟩ := List.lookup_eq_some_iff.mp hlookup
        obtain ⟨fetched, r, -, rfl, -⟩ := results_ok h (heq ▸ List.mem_append_right before List.mem_cons_self)
        rfl
  rw [pairs, List.map_filterMap, List.filterMap_congr hpair, List.filterMap_eq_map']
  refine List.ext_getElem (by rw [List.length_map, List.length_range]) (fun i hi hi' => ?_)
  rw [List.getElem_map, List.getElem_range, List.getD_eq_getElem?_getD, List.getElem?_eq_getElem hi', Option.getD_some]

theorem Gated.screens (hgated : Gated cfg symbols s) (h : 1 ≤ cfg.minSamples) : Screens cfg symbols s := by
  have hnone : (results cfg symbols s).findSome? (fun entry => match entry.2 with
      | .error e => some e
      | .ok _ => none) = none := by
    refine List.findSome?_eq_none_iff.mpr (fun entry hentry => ?_)
    obtain ⟨fetched, r, -, hok, -⟩ := results_ok h hentry
    rw [hok]
  have houtcome : outcome cfg symbols s = if s.gate.ended.length = symbols.length then
      some (.ok ((pairs cfg symbols s).foldl (fun results pair => results.set pair.1 pair.2) ∅)) else none := by
    simp only [outcome, hnone]
  have hcases : ∀ d, outcome cfg symbols s = some (.ok d) → s.gate.ended.length = symbols.length ∧
      d = (pairs cfg symbols s).foldl (fun results pair => results.set pair.1 pair.2) ∅ := by
    intro d hd
    rw [houtcome] at hd
    split at hd
    next hall => exact ⟨hall, by cases hd; rfl⟩
    next => cases hd
  refine ⟨hgated.sound.bounded, fun hmissed => ?_, fun e he => ?_, fun d hd symbol => ?_, fun d hd symbol r hr => ?_⟩
  · rw [houtcome] at hmissed
    split at hmissed
    next => cases hmissed
    next hless =>
      rcases Nat.lt_or_eq_of_le hgated.started with hstarted | hstarted
      · exact .inl hstarted
      · have hlength := hgated.sound.jobs.length_eq
        rw [List.length_append, List.length_map, List.length_range, hstarted] at hlength
        refine .inr (hgated.sound.live (permits_pos cfg) ?_)
        rw [List.length_range, hstarted]
        omega
  · rw [houtcome] at he
    split at he <;> cases he
  · obtain ⟨hall, rfl⟩ := hcases d hd
    rw [get_foldl_set, map_fst_pairs h hgated hall]
    simp
  · obtain ⟨-, rfl⟩ := hcases d hd
    rcases mem_of_get_foldl_set hr with hmem | hempty
    · exact mem_pairs h hmem
    · cases hempty

/-- In every run in which at least one sample is asked for, with the answers in any order. -/
theorem screens_run (cfg : ScreenerConfig) (symbols : List String) (h : 1 ≤ cfg.minSamples) (es : List Event) :
    Screens cfg symbols (es.foldl (step symbols) (opening cfg)) := (gated_run cfg symbols es).screens h

/-- One fetch at a time, of which the first fails. -/
theorem screens_run_failed : Screens { maxConcurrency := 0 } ["btcusdt", "ETHUSDT"]
    ([.begin, .begin, .answer 0 (.error "timeout"), .answer 1 (.ok DropThreshold.falling)].foldl
      (step ["btcusdt", "ETHUSDT"]) (opening { maxConcurrency := 0 })) :=
  screens_run { maxConcurrency := 0 } ["btcusdt", "ETHUSDT"] (by decide) _

end Utos.Services.Screener
