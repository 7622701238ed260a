import Utos.MarketData.Symbols
import Utos.Services.BreakerScreeningStore
import Utos.Services.CircuitBreakerScreener

namespace Utos.Services.Served

open Core Core.DomainTypes Coroutine DailyDropAnalyzer Repositories.Thresholds Screening Screener
open MarketData.Symbols (upper_upper)

/-- What rescreen_all has the table keep of a result; the arguments of the API for days are positive. -/
def written (cfg : ScreenerConfig) (r : BreakerScreeningResult) : ScreeningResult where
  exchange := r.exchange
  symbol := r.symbol
  rate := r.minContinuationRate
  screening :=
    { thresholdPct := r.thresholdPct
      continuationWindow := r.continuationWindow.toNat
      minFutureDropPct := r.minFutureDropPct
      lookbackDays := cfg.lookbackDays.toNat
      candleCount := r.candleCount
      usedFallback := r.usedFallback }

/-- The configuration of rescreen_for_rates for one rate. -/
def forRate (base : ScreenerConfig) (rate : ℚ) : ScreenerConfig :=
  let tier := (tierConfigs.lookup rate).getD (base.continuationWindow, base.minFutureDropPct)
  { base with minContinuationRate := rate, continuationWindow := tier.1, minFutureDropPct := tier.2 }

/-- The upserts of rescreen_for_rates, given what screen has returned for each rate. -/
def rescreenForRates (base : ScreenerConfig) (drawn : Drawn) (rates : List ℚ)
    (screened : ℚ → Dict String BreakerScreeningResult) : List Call :=
  rates.flatMap (fun rate =>
    rescreenAll drawn ((screened rate).entries.map (fun entry => written (forRate base rate) entry.2)))

variable (numeric : Numeric)

def getThreshold (rows : Rows) (query : BreakerQuery) : ℚ :=
  match rows.get (query.key numeric) with
  | some row => row.screening.thresholdPct
  | none => fallback query.minContinuationRate

/-- The column keeps two decimal places. -/
def KeepsHundredths : Prop := ∀ n : Int, |n| < 100000 → numeric .thresholdPct (n / 100) = n / 100

/-- A call of screen can return the results. -/
def Returns (cfg : ScreenerConfig) (symbols : List String) (results : Dict String BreakerScreeningResult) : Prop :=
  ∃ es : List Screener.Event, outcome cfg symbols (es.foldl (Screener.step symbols) (opening cfg)) = some (.ok results)

/-- An upsert is of a result that screen has returned. -/
def FromScreening (_ : Rows) : Call → Prop
  | .upsert _ exchange symbol rate screening args => args = {} ∧ ∃ cfg symbols results screened r,
      1 ≤ cfg.minSamples ∧ Returns cfg symbols results ∧ results.get screened = some r ∧
        ⟨exchange, symbol, rate, screening⟩ = written cfg r
  | .updateResumeConfig .. => True

/-- The thresholds of the table are candidates. -/
def Sane (rows : Rows) : Prop := ∀ key row, rows.get key = some row → row.screening.thresholdPct ∈ candidateThresholds

variable {numeric} {rows : Rows} {cfg : ScreenerConfig}

theorem fallback_candidate (rate : ℚ) : fallback rate ∈ candidateThresholds := by
  rw [fallback]
  cases hrate : fallbackThresholds.lookup rate with
  | none => decide +kernel
  | some threshold =>
      obtain ⟨before, after, hsplit, -⟩ := List.lookup_eq_some_iff.mp hrate
      have hmem : (rate, threshold) ∈ fallbackThresholds := by simp [hsplit]
      have hall : ∀ x ∈ fallbackThresholds, x.2 ∈ candidateThresholds := by decide +kernel
      exact hall _ hmem

theorem Returns.screened {symbols : List String} {results : Dict String BreakerScreeningResult} {symbol : String}
    {r : BreakerScreeningResult} (h : Returns cfg symbols results) (hsamples : 1 ≤ cfg.minSamples)
    (hr : results.get symbol = some r) : ∃ fetched, Screened cfg symbol fetched r := by
  obtain ⟨es, hes⟩ := h
  obtain ⟨i, fetched, -, -, hscreened⟩ := ((gated_run cfg symbols es).screens hsamples).screened _ hes symbol r hr
  exact ⟨fetched, hscreened⟩

theorem Returns.isSome {symbols : List String} {results : Dict String BreakerScreeningResult}
    (h : Returns cfg symbols results) (hsamples : 1 ≤ cfg.minSamples) (symbol : String) :
    (results.get symbol).isSome ↔ symbol ∈ symbols := by
  obtain ⟨es, hes⟩ := h
  exact ((gated_run cfg symbols es).screens hsamples).complete _ hes symbol

theorem screened_candidate {symbol : String} {fetched : Fetched} {r : BreakerScreeningResult}
    (h : Screened cfg symbol fetched r) : r.thresholdPct ∈ candidateThresholds := by
  cases hused : r.usedFallback with
  | false => exact (h.found hused).1.1
  | true => exact (h.fallback hused).1 ▸ fallback_candidate _

/-- A candidate is as the column keeps it. -/
theorem numeric_candidate (h : KeepsHundredths numeric) {pct : ℚ} (hpct : pct ∈ candidateThresholds) :
    numeric .thresholdPct pct = pct := by
  have hall : ∀ x ∈ candidateThresholds, ((x * 100).num : ℚ) / 100 = x ∧ |(x * 100).num| < 100000 := by decide +kernel
  obtain ⟨heq, hlt⟩ := hall pct hpct
  rw [← heq]
  exact h _ hlt

theorem sane_call (h : KeepsHundredths numeric) {c : Call} (hrows : Sane rows) (hc : FromScreening rows c) :
    Sane (call numeric rows c) := by
  intro key row hrow
  cases c with
  | upsert drawn exchange symbol rate screening args =>
      obtain ⟨rfl, cfg, symbols, results, screened, r, hsamples, hreturns, hr, hwritten⟩ := hc
      obtain ⟨fetched, hscreened⟩ := hreturns.screened hsamples hr
      obtain ⟨new, hscreening, -, hget⟩ := manualUpsert_get drawn (valuesOf numeric exchange symbol rate screening {}) rows
      rw [call, upsert_eq, hget] at hrow
      split at hrow
      · cases hrow
        have hpct : screening.thresholdPct = r.thresholdPct :=
          congrArg (fun result : ScreeningResult => result.screening.thresholdPct) hwritten
        have hcandidate : screening.thresholdPct ∈ candidateThresholds := hpct ▸ screened_candidate hscreened
        rw [hscreening]
        change numeric .thresholdPct screening.thresholdPct ∈ _
        rwa [numeric_candidate h hcandidate]
      · exact hrows key row hrow
  | updateResumeConfig now exchange symbol rate args =>
      rw [call, updateResumeConfig_get] at hrow
      split at hrow
      · obtain ⟨old, hold, rfl⟩ := Option.map_eq_some_iff.mp hrow
        exact hrows _ old hold
      · exact hrows key row hrow

theorem getBreakerConfig_threshold (numeric : Numeric) (rows : Rows) (query : BreakerQuery) :
    (getBreakerConfig numeric rows query).criticalThreshold = getThreshold numeric rows query := by
  unfold getBreakerConfig getThreshold
  cases rows.get (query.key numeric) <;> rfl

/-- A symbol whose candles cannot be fetched. -/
def unfetched (rate : ℚ) : Dict String BreakerScreeningResult :=
  (∅ : Dict String BreakerScreeningResult).set "BTCUSDT" ((forRate {} rate).result "BTCUSDT" (fallback rate) 0 true)

theorem returns_unfetched (rate : ℚ) : Returns (forRate {} rate) ["BTCUSDT"] (unfetched rate) :=
  ⟨[.begin, .answer 0 (.error "timeout")], rfl⟩

/-- However rescreenings and changes of the resume behaviour take turns on the table, every instance
gets a breaker with one of the candidates as its threshold, and so with one from 1 to 15 percent. -/
theorem threshold_candidate {numeric : Numeric} (h : KeepsHundredths numeric) {calls : List Call}
    (hcalls : AllMeet (call numeric) FromScreening ∅ calls) (query : BreakerQuery) :
    let config := getBreakerConfig numeric (calls.foldl (call numeric) ∅) query
    config.criticalThreshold ∈ candidateThresholds ∧ 1 ≤ config.criticalThreshold ∧ config.criticalThreshold ≤ 15 := by
  have hsane : Sane (calls.foldl (call numeric) ∅) :=
    foldl_of_allMeet (I := Sane) (fun rows c hrows hc => sane_call h hrows hc) (fun key row hrow => by cases hrow) hcalls
  have hcandidate : getThreshold numeric (calls.foldl (call numeric) ∅) query ∈ candidateThresholds := by
    unfold getThreshold
    split
    next row hrow => exact hsane _ row hrow
    next => exact fallback_candidate _
  have hbounds : ∀ x ∈ candidateThresholds, 1 ≤ x ∧ x ≤ 15 := by decide +kernel
  simp only [getBreakerConfig_threshold]
  exact ⟨hcandidate, hbounds _ hcandidate⟩

theorem threshold_candidate_unfetched :
    let config := getBreakerConfig (fun _ x => x) ((rescreenForRates {} ⟨1, 0, true⟩ [9 / 10] unfetched).foldl
      (call (fun _ x => x)) ∅) { symbol := "btcusdt", minContinuationRate := 9 / 10 }
    config.criticalThreshold ∈ candidateThresholds ∧ 1 ≤ config.criticalThreshold ∧ config.criticalThreshold ≤ 15 := by
  refine @threshold_candidate (fun _ x => x) (fun _ _ => rfl) (rescreenForRates {} ⟨1, 0, true⟩ [9 / 10] unfetched) ?_ _
  refine ⟨⟨rfl, forRate {} (9 / 10), ["BTCUSDT"], unfetched (9 / 10), "BTCUSDT", _, ?_, returns_unfetched _, rfl, rfl⟩, trivial⟩
  decide

/-- What a table has for a key after upserts of which all those for the key write the same screening. -/
theorem get_rescreenAll {drawn : Drawn} {results : List ScreeningResult} {key : Key} 
    {screening : Repositories.Thresholds.Screening}
    (hsame : ∀ result ∈ results, keyOf numeric result.exchange result.symbol result.rate = key →
      result.screening = screening)
    (hsome : (∃ result ∈ results, keyOf numeric result.exchange result.symbol result.rate = key) ∨
      ∃ row, rows.get key = some row ∧ row.screening = screening.stored numeric) :
    ∃ row, ((rescreenAll drawn results).foldl (call numeric) rows).get key = some row ∧
      row.screening = screening.stored numeric := by
  induction results generalizing rows with
  | nil => simpa [rescreenAll] using hsome
  | cons result rest ih =>
      refine ih (fun other hother => hsame other (List.mem_cons_of_mem result hother)) ?_
      obtain ⟨row, hscreening, -, hget⟩ := manualUpsert_get drawn
        (valuesOf numeric result.exchange result.symbol result.rate result.screening {}) rows
      have hcall : ∀ k, (call numeric rows (.upsert drawn result.exchange result.symbol result.rate result.screening {})).get k =
          if k = keyOf numeric result.exchange result.symbol result.rate then some row else rows.get k := by
        intro k
        rw [call, upsert_eq, hget]
        rfl
      by_cases hkey : keyOf numeric result.exchange result.symbol result.rate = key
      · refine .inr ⟨row, by rw [hcall, if_pos hkey.symm], ?_⟩
        rw [hscreening, ← hsame result List.mem_cons_self hkey]
        rfl
      · rcases hsome with ⟨other, hother, heq⟩ | ⟨old, hold, heq⟩
        · rcases List.mem_cons.mp hother with rfl | hother
          · exact absurd heq hkey
          · exact .inl ⟨other, hother, heq⟩
        · exact .inr ⟨old, by rw [hcall, if_neg (Ne.symm hkey)]; exact hold, heq⟩

/-- Where no two symbols and no two rates are the same to the table, a rescreening for several rates is
read back: each symbol, however it is spelled, has for each rate the threshold that was found for both. -/
theorem getThreshold_rescreened {numeric : Numeric} (h : KeepsHundredths numeric) {base : ScreenerConfig}
    (hsamples : 1 ≤ base.minSamples) {symbols : List String} (hsymbols : (symbols.map upper).Nodup) {rates : List ℚ}
    (hrates : ∀ rate ∈ rates, ∀ rate' ∈ rates,
      numeric .minContinuationRate rate = numeric .minContinuationRate rate' → rate = rate')
    {screened : ℚ → Dict String BreakerScreeningResult}
    (hscreened : ∀ rate ∈ rates, Returns (forRate base rate) symbols (screened rate)) (rows : Rows) (drawn : Drawn)
    {symbol : String} (hsymbol : symbol ∈ symbols) {query : BreakerQuery} (hspelled : upper query.symbol = upper symbol)
    (hexchange : lower query.exchange = lower base.exchange) (hrate : query.minContinuationRate ∈ rates) :
    ∃ r fetched, (screened query.minContinuationRate).get symbol = some r ∧
      Screened (forRate base query.minContinuationRate) symbol fetched r ∧
      getThreshold numeric ((rescreenForRates base drawn rates screened).foldl (call numeric) rows) query =
        r.thresholdPct := by
  have hreturns := hscreened _ hrate
  obtain ⟨r, hr⟩ := Option.isSome_iff_exists.mp ((hreturns.isSome hsamples symbol).mpr hsymbol)
  obtain ⟨fetched, hfetched⟩ := hreturns.screened hsamples hr
  refine ⟨r, fetched, hr, hfetched, ?_⟩
  have hcalls : rescreenForRates base drawn rates screened = rescreenAll drawn (rates.flatMap (fun rate =>
      (screened rate).entries.map (fun entry => written (forRate base rate) entry.2))) := by
    simp only [rescreenForRates, rescreenAll, List.map_flatMap]
  have hkey : keyOf numeric r.exchange r.symbol r.minContinuationRate = query.key numeric := by
    rw [hfetched.key.1, hfetched.key.2.1, hfetched.key.2.2, BreakerQuery.key, keyOf, keyOf, upper_upper, hspelled, hexchange]
    rfl
  have hmine : written (forRate base query.minContinuationRate) r ∈ rates.flatMap (fun rate =>
      (screened rate).entries.map (fun entry => written (forRate base rate) entry.2)) :=
    List.mem_flatMap.mpr ⟨_, hrate, List.mem_map.mpr ⟨(symbol, r), Dict.mem_of_get hr, rfl⟩⟩
  -- What is written for the same key is written for the same rate and symbol.
  have hsame : ∀ result ∈ rates.flatMap (fun rate =>
        (screened rate).entries.map (fun entry => written (forRate base rate) entry.2)),
      keyOf numeric result.exchange result.symbol result.rate = query.key numeric →
        result.screening = (written (forRate base query.minContinuationRate) r).screening := by
    intro result hresult hsame
    obtain ⟨rate, hmem, hresult⟩ := List.mem_flatMap.mp hresult
    obtain ⟨entry, hentry, rfl⟩ := List.mem_map.mp hresult
    have hget := Dict.get_of_mem hentry
    obtain ⟨other, hother⟩ := (hscreened rate hmem).screened hsamples hget
    have hother' := ((hscreened rate hmem).isSome hsamples entry.1).mp (hget ▸ rfl)
    simp only [written, hother.key.1, hother.key.2.1, hother.key.2.2, BreakerQuery.key, keyOf, upper_upper, hspelled,
      Key.mk.injEq] at hsame
    obtain rfl : rate = query.minContinuationRate := hrates _ hmem _ hrate hsame.2.2
    obtain heq : entry.1 = symbol := List.inj_on_of_nodup_map hsymbols hother' hsymbol hsame.2.1
    rw [heq] at hget
    rw [Option.some.inj (hget.symm.trans hr)]
  obtain ⟨row, hrow, hscreening⟩ := get_rescreenAll hsame (.inl ⟨_, hmine, hkey⟩)
  rw [hcalls, getThreshold, hrow]
  change row.screening.thresholdPct = _
  rw [hscreening]
  exact numeric_candidate h (screened_candidate hfetched)

theorem getThreshold_rescreened_unfetched : ∃ r fetched, (unfetched (9 / 10)).get "BTCUSDT" = some r ∧
    Screened (forRate {} (9 / 10)) "BTCUSDT" fetched r ∧
    getThreshold (fun _ x => x) ((rescreenForRates {} ⟨1, 0, true⟩ [8 / 10, 9 / 10] unfetched).foldl (call (fun _ x => x)) ∅)
      { symbol := "btcusdt", minContinuationRate := 9 / 10, exchange := "Binance" } = r.thresholdPct := by
  refine @getThreshold_rescreened (fun _ x => x) (fun _ _ => rfl) {} (by decide) ["BTCUSDT"] (List.nodup_singleton _)
    [8 / 10, 9 / 10] (fun _ _ _ _ heq => heq) unfetched (fun rate _ => returns_unfetched rate) ∅ ⟨1, 0, true⟩ "BTCUSDT" (List.mem_singleton_self _)
    { symbol := "btcusdt", minContinuationRate := 9 / 10, exchange := "Binance" } ?_ ?_ ?_
  · decide
  · decide
  · exact List.mem_cons_of_mem _ (List.mem_singleton_self _)

end Utos.Services.Served
