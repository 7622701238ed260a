import Utos.Grid.BreakerRun
import Mathlib.Data.List.Induction
import Mathlib.Tactic.FieldSimp
import Mathlib.Tactic.Linarith

namespace Utos.Grid.DayAnchor

open CircuitBreaker BreakerRun
open Engine (BreakerArgs breakerGate)

/-- What happens to a breaker: a price of a day is processed, the low is watched at a
later point of a price update, the breaker is reset. -/
inductive Event
  | tick (today : Date) (price : ℚ)
  | updateBottom (price : ℚ)
  | reset
  deriving DecidableEq, Repr

def step (b : CircuitBreakerState) : Event → CircuitBreakerState
  | .tick today price => checked today price b
  | .updateBottom price => b.updateBottom price
  | .reset => b.reset

/-- The days and prices of the ticks. -/
def ticks (events : List Event) : List (Date × ℚ) :=
  events.filterMap (fun
    | .tick today price => some (today, price)
    | _ => none)

/-- A breaker that has seen no price. -/
structure Fresh (b : CircuitBreakerState) : Prop where
  triggerDate : b.triggerDate = none
  triggered : b.triggered = false

def firstPrice (history : List (Date × ℚ)) (today : Date) : Option ℚ :=
  (history.find? (fun x => x.1 = today)).map Prod.snd

/-- The first price of the day, except that a configured one goes before it on the day of the first tick. -/
def openPrice (configured : Option ℚ) (history : List (Date × ℚ)) (today : Date) : Option ℚ :=
  if history.head?.map Prod.fst = some today then configured.or (firstPrice history today)
  else firstPrice history today

/-- How the breaker that was b stands to the last day of its history. -/
structure Anchored (b : CircuitBreakerState) (history : List (Date × ℚ)) (c : CircuitBreakerState) : Prop where
  dayOpen : ∀ today, history.getLast?.map Prod.fst = some today →
    c.dayOpenPrice = openPrice b.dayOpenPrice history today
  fallen : c.triggered = true → ∃ today dayOpen price, history.getLast?.map Prod.fst = some today ∧
    c.dayOpenPrice = some dayOpen ∧ (today, price) ∈ history ∧ price ≤ dayOpen * (1 - b.criticalThreshold / 100)
  bottom : c.triggered = true → ∃ low high, c.bottomPrice = some low ∧ c.triggerPrice = some high ∧ low ≤ high

/-- What holds of a breaker at every point of a run. -/
structure Invariant (b : CircuitBreakerState) (history : List (Date × ℚ)) (c : CircuitBreakerState) : Prop
    extends Anchored b history c where
  seen : c.triggerDate = history.getLast?.map Prod.fst
  configured : history = [] → c.dayOpenPrice = b.dayOpenPrice
  threshold : c.criticalThreshold = b.criticalThreshold

variable {b c : CircuitBreakerState} {history : List (Date × ℚ)} {today : Date} {price : ℚ}

/-- Only a price at or below the threshold under the day's open triggers. -/
theorem fallen_of_shouldTrigger (hpos : 0 < c.criticalThreshold) (h : c.shouldTrigger price = true) :
    ∃ dayOpen, c.dayOpenPrice = some dayOpen ∧ price ≤ dayOpen * (1 - c.criticalThreshold / 100) := by
  rw [CircuitBreakerState.shouldTrigger] at h
  split at h
  next => cases h
  next =>
    rw [decide_eq_true_iff, CircuitBreakerState.intradayDropPct] at h
    split at h
    next => linarith
    next dayOpen hopen =>
      split at h
      next => linarith
      next hpositive =>
        have hdayOpen : 0 < dayOpen := not_le.mp hpositive
        refine ⟨dayOpen, hopen, ?_⟩
        have hdrop : (price - dayOpen) / dayOpen ≤ -(c.criticalThreshold / 100) := by linarith
        rw [div_le_iff₀ hdayOpen] at hdrop
        linarith

theorem firstPrice_append (h : today ∈ history.map Prod.fst) (later : List (Date × ℚ)) :
    firstPrice (history ++ later) today = firstPrice history today := by
  obtain ⟨x, hx, rfl⟩ := List.mem_map.mp h
  have hfound : (history.find? (fun y => y.1 = x.1)).isSome := List.find?_isSome.mpr ⟨x, hx, by simp⟩
  rw [firstPrice, List.find?_append, Option.or_of_isSome hfound, firstPrice]

theorem firstPrice_concat (h : today ∉ history.map Prod.fst) : firstPrice (history ++ [(today, price)]) today = some price := by
  have hnone : history.find? (fun y => y.1 = today) = none := by
    rw [List.find?_eq_none]
    intro x hx hday
    exact h (List.mem_map.mpr ⟨x, hx, of_decide_eq_true hday⟩)
  simp [firstPrice, List.find?_append, hnone]

/-- The open of a day that has begun is not changed by a later price. -/
theorem openPrice_append (configured : Option ℚ) (h : today ∈ history.map Prod.fst) (later : List (Date × ℚ)) :
    openPrice configured (history ++ later) today = openPrice configured history today := by
  have hne : history ≠ [] := by
    rintro rfl
    cases h
  rw [openPrice, List.head?_append_of_ne_nil _ hne, firstPrice_append h, openPrice]

theorem openPrice_concat (configured : Option ℚ) (hne : history ≠ []) (h : today ∉ history.map Prod.fst) :
    openPrice configured (history ++ [(today, price)]) today = some price := by
  have hhead : ¬ history.head?.map Prod.fst = some today := by
    intro hday
    obtain ⟨x, hx, rfl⟩ := Option.map_eq_some_iff.mp hday
    exact h (List.mem_map.mpr ⟨x, List.mem_of_head? hx, rfl⟩)
  rw [openPrice, List.head?_append_of_ne_nil _ hne, if_neg hhead, firstPrice_concat h]

theorem mem_of_getLast (h : history.getLast?.map Prod.fst = some today) : today ∈ history.map Prod.fst := by
  obtain ⟨x, hx, rfl⟩ := Option.map_eq_some_iff.mp h
  exact List.mem_map.mpr ⟨x, List.mem_of_getLast? hx, rfl⟩

theorem not_mem_of_later {last : Date} (hlast : history.getLast?.map Prod.fst = some last) (hne : last ≠ today)
    (hsorted : (history ++ [(today, price)]).Pairwise (fun x y => x.1 ≤ y.1)) : today ∉ history.map Prod.fst := by
  obtain ⟨hbefore, -, hlate⟩ := List.pairwise_append.mp hsorted
  obtain ⟨x, hx, rfl⟩ := Option.map_eq_some_iff.mp hlast
  obtain ⟨earlier, rfl⟩ := List.getLast?_eq_some_iff.mp hx
  have hle : x.1 ≤ today := hlate x (by simp) (today, price) (by simp)
  intro hmem
  obtain ⟨y, hy, rfl⟩ := List.mem_map.mp hmem
  rcases List.mem_append.mp hy with hy | hy
  · have hyx : y.1 ≤ x.1 := (List.pairwise_append.mp hbefore).2.2 y hy x (by simp)
    exact hne (le_antisymm hle hyx)
  · rw [List.mem_singleton] at hy
    exact hne (by rw [hy])

theorem Invariant.sameDay (h : Invariant b history c) (hday : c.triggerDate = some today) :
    Invariant b (history ++ [(today, price)]) c := by
  have hlast : history.getLast?.map Prod.fst = some today := h.seen.symm.trans hday
  have hlast' : (history ++ [(today, price)]).getLast?.map Prod.fst = some today := by simp
  refine ⟨⟨?_, ?_, h.bottom⟩, hday.trans hlast'.symm, fun hnil => by simp at hnil, h.threshold⟩
  · intro day hday'
    rw [hlast', Option.some.injEq] at hday'
    subst hday'
    rw [h.dayOpen _ hlast, openPrice_append _ (mem_of_getLast hlast)]
  · intro htriggered
    obtain ⟨day, dayOpen, low, hday', hopen, hmem, hlow⟩ := h.fallen htriggered
    rw [hlast, Option.some.injEq] at hday'
    subst hday'
    exact ⟨_, dayOpen, low, hlast', hopen, List.mem_append_left _ hmem, hlow⟩

theorem invariant_newDay (hseen : c.triggerDate = some today) (hclear : c.triggered = false)
    (hthreshold : c.criticalThreshold = b.criticalThreshold)
    (hopen : c.dayOpenPrice = openPrice b.dayOpenPrice (history ++ [(today, price)]) today) :
    Invariant b (history ++ [(today, price)]) c := by
  have hlast' : (history ++ [(today, price)]).getLast?.map Prod.fst = some today := by simp
  have hnever : c.triggered ≠ true := by rw [hclear]; exact Bool.false_ne_true
  refine ⟨⟨?_, fun h => (hnever h).elim, fun h => (hnever h).elim⟩, hseen.trans hlast'.symm, fun hnil => by simp at hnil, hthreshold⟩
  intro day hday
  rw [hlast', Option.some.injEq] at hday
  subst hday
  exact hopen

theorem Invariant.checkNewDay (h : Invariant b history c)
    (hsorted : (history ++ [(today, price)]).Pairwise (fun x y => x.1 ≤ y.1)) :
    Invariant b (history ++ [(today, price)]) (c.checkNewDay today price) := by
  have hthreshold := (configured_checkNewDay today price c).1.trans h.threshold
  have hdate := triggerDate_checkNewDay today price c
  by_cases hday : c.triggerDate = some today
  · rw [checkNewDay_of_today hday]
    exact h.sameDay hday
  · cases hlast : history.getLast?.map Prod.fst with
    | none =>
        have hnone : c.triggerDate = none := h.seen.trans hlast
        have hclear : c.triggered = false := by
          cases htriggered : c.triggered with
          | false => rfl
          | true =>
              obtain ⟨_, _, _, hlast', -⟩ := h.fallen htriggered
              cases hlast.symm.trans hlast'
        obtain rfl : history = [] := List.getLast?_eq_none_iff.mp (Option.map_eq_none_iff.mp hlast)
        have hcheck : c.checkNewDay today price =
            { c with triggerDate := some today, dayOpenPrice := some (c.dayOpenPrice.getD price) } := by
          simp [CircuitBreakerState.checkNewDay, hnone]
        rw [hcheck] at hthreshold hdate ⊢
        refine invariant_newDay hdate hclear hthreshold ?_
        simp only [h.configured rfl, openPrice, firstPrice, List.nil_append, List.head?_cons, Option.map_some, if_true,
          List.find?_cons, decide_true]
        cases b.dayOpenPrice <;> rfl
    | some last =>
        have hsome : c.triggerDate = some last := h.seen.trans hlast
        have hne : last ≠ today := fun heq => hday (hsome.trans (congrArg some heq))
        have hnil : history ≠ [] := by
          rintro rfl
          cases hlast
        have hcheck : c.checkNewDay today price = { c with
            triggered := false, triggerDate := some today, dayOpenPrice := some price, bottomPrice := none } := by
          simp [CircuitBreakerState.checkNewDay, hsome, hne]
        rw [hcheck] at hthreshold hdate ⊢
        exact invariant_newDay hdate rfl hthreshold
          (openPrice_concat _ hnil (not_mem_of_later hlast hne hsorted)).symm

theorem Invariant.trigger (hpos : 0 < b.criticalThreshold) (h : Invariant b (history ++ [(today, price)]) c)
    (htrigger : c.shouldTrigger price = true) : Invariant b (history ++ [(today, price)]) (c.trigger price) := by
  obtain ⟨dayOpen, hopen, hlow⟩ := fallen_of_shouldTrigger (h.threshold ▸ hpos) htrigger
  refine ⟨⟨h.dayOpen, fun _ => ?_, fun _ => ⟨price, price, rfl, rfl, le_rfl⟩⟩, h.seen, h.configured, h.threshold⟩
  exact ⟨today, dayOpen, price, by simp, hopen, by simp, h.threshold ▸ hlow⟩

theorem Invariant.tick (hpos : 0 < b.criticalThreshold) (h : Invariant b history c)
    (hsorted : (history ++ [(today, price)]).Pairwise (fun x y => x.1 ≤ y.1)) :
    Invariant b (history ++ [(today, price)]) (checked today price c) := by
  rw [checked]
  split
  next htrigger => exact (h.checkNewDay hsorted).trigger hpos htrigger
  next => exact h.checkNewDay hsorted

/-- The low that is watched only falls, and is there while the breaker is triggered. -/
theorem Invariant.updateBottom (h : Invariant b history c) (price : ℚ) : Invariant b history (c.updateBottom price) := by
  cases htriggered : c.triggered with
  | false =>
      rw [CircuitBreakerState.updateBottom, htriggered]
      exact h
  | true =>
      obtain ⟨low, high, hlow, hhigh, hle⟩ := h.bottom htriggered
      simp only [CircuitBreakerState.updateBottom, htriggered, hlow, Bool.not_true, Bool.false_eq_true, if_false]
      split
      next hlt =>
        exact ⟨⟨h.dayOpen, fun _ => h.fallen htriggered, fun _ => ⟨price, high, rfl, hhigh, hlt.le.trans hle⟩⟩, h.seen, h.configured,
          h.threshold⟩
      next => exact h

theorem Invariant.reset (h : Invariant b history c) : Invariant b history c.reset :=
  ⟨⟨h.dayOpen, fun hclear => (Bool.false_ne_true hclear).elim, fun hclear => (Bool.false_ne_true hclear).elim⟩,
    h.seen, h.configured, h.threshold⟩

/-- What a price update of the engine makes of a breaker is such a run, with one tick. -/
theorem tick_eq_steps (evaluate : Evaluate) (candles : Option (List CandleData)) (today : Date) (price : ℚ)
    (b : CircuitBreakerState) : ∃ later, ticks later = [] ∧
      BreakerRun.tick evaluate candles today price b = (.tick today price :: later).foldl step b := by
  have hlater : ∀ c : CircuitBreakerState, ∃ later, ticks later = [] ∧
      (breakerGate evaluate candles price c).2 = later.foldl step c := by
    intro c
    have hwatched : (breakerGate evaluate candles price c).2 = c.updateBottom price ∨
        (breakerGate evaluate candles price c).2 = (c.updateBottom price).reset := by
      rw [breakerGate]
      split
      next =>
        dsimp only
        split
        next => exact Or.inr rfl
        next => exact Or.inl rfl
      all_goals
        split
        next => exact Or.inr rfl
        next => exact Or.inl rfl
    rcases hwatched with heq | heq
    · exact ⟨[.updateBottom price], rfl, heq⟩
    · exact ⟨[.updateBottom price, .reset], rfl, heq⟩
  rw [BreakerRun.tick]
  split
  next =>
    obtain ⟨later, hnone, heq⟩ := hlater (checked today price b)
    exact ⟨later, hnone, heq⟩
  next => exact ⟨[], rfl, rfl⟩

end Utos.Grid.DayAnchor
