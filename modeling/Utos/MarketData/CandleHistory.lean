import Utos.Coroutine.Trace
import Utos.MarketData.Hub
import Mathlib.Data.List.Forall2

namespace Utos.MarketData.CandleHistory

open Coroutine Core.DomainTypes Hub

/-- A Candle with its timestamp. -/
structure TimedCandle extends Hub.Candle where
  timestamp : Int
  deriving DecidableEq, Repr

/-- What the cache has for one exchange, symbol and interval, the get_candles calls that
wait for the adapter, and what has been fetched last and streamed so far. -/
structure Slot where
  candles : Option (List TimedCandle) := none
  fetching : Nat := 0
  lastFetch : Option (List TimedCandle) := none
  streamed : List TimedCandle := []
  deriving DecidableEq, Repr

/-- A call of get_candles; the adapter's answer to one that waits; what the stream of candles delivers. -/
inductive Event
  | getCandles
  | fetched (candles : List TimedCandle)
  | candle (candle : TimedCandle)
  | candles (candles : List TimedCandle)
  deriving DecidableEq, Repr

/-- A call fetches only if nothing is cached. -/
def step (interval : String) (x : Slot) : Event → Slot
  | .getCandles => if x.candles = none then { x with fetching := x.fetching + 1 } else x
  | .fetched candles =>
      if x.fetching = 0 then x
      else { x with candles := some candles, fetching := x.fetching - 1, lastFetch := some candles }
  | .candle candle =>
      if candle.interval = interval then { x with candles := some [candle], streamed := x.streamed ++ [candle] } else x
  | .candles candles =>
      if interval = "1m" then { x with candles := some candles, streamed := x.streamed ++ candles } else x

/-- The candles that were fetched, of which those at the time of a streamed one may be that one, and newer ones after them. -/
def Continues (fetched streamed current : List TimedCandle) : Prop :=
  ∃ updated newer, current = updated ++ newer ∧
    List.Forall₂ (fun old new => new = old ∨ new ∈ streamed ∧ new.timestamp = old.timestamp) fetched updated ∧
    ∀ c ∈ newer, c ∈ streamed ∧ ∀ old ∈ fetched, old.timestamp < c.timestamp

/-- What get_candles returns continues what was fetched last. -/
def Keeps (x : Slot) : Prop :=
  ∀ fetched, x.lastFetch = some fetched → ∃ current, x.candles = some current ∧ Continues fetched x.streamed current

/-- A streamed candle finds that at most one was fetched, with its timestamp; a list that
replaces the candles continues them itself. -/
def Meets (interval : String) (x : Slot) : Event → Prop
  | .getCandles => True
  | .fetched _ => True
  | .candle c => c.interval = interval → ∀ fetched, x.lastFetch = some fetched →
      fetched = [] ∨ ∃ old, fetched = [old] ∧ old.timestamp = c.timestamp
  | .candles candles => interval = "1m" → ∀ fetched, x.lastFetch = some fetched →
      Continues fetched (x.streamed ++ candles) candles

variable {interval : String} {x : Slot} {fetched streamed : List TimedCandle}

theorem continues_self (fetched streamed : List TimedCandle) : Continues fetched streamed fetched := by
  refine ⟨fetched, [], (List.append_nil _).symm, List.forall₂_same.mpr (fun old _ => Or.inl rfl), fun c hc => ?_⟩
  cases hc

theorem continues_singleton_iff (c : TimedCandle) : Continues fetched (streamed ++ [c]) [c] ↔
    fetched = [] ∨ ∃ old, fetched = [old] ∧ old.timestamp = c.timestamp := by
  constructor
  · rintro ⟨updated, newer, happend, hupdated, -⟩
    cases hupdated with
    | nil => exact Or.inl rfl
    | cons hnew hrest =>
        obtain ⟨rfl, hnil⟩ := List.cons.inj happend
        obtain ⟨rfl, -⟩ := List.append_eq_nil_iff.mp hnil.symm
        cases hrest
        refine Or.inr ⟨_, rfl, ?_⟩
        rcases hnew with rfl | ⟨-, htime⟩
        · rfl
        · exact htime.symm
  · rintro (rfl | ⟨old, rfl, htime⟩)
    · exact ⟨[], [c], rfl, .nil, fun d hd => ⟨List.mem_append_right _ hd, fun old hold => by cases hold⟩⟩
    · refine ⟨[c], [], rfl, .cons (Or.inr ⟨by simp, htime.symm⟩) .nil, fun d hd => by cases hd⟩

theorem keeps_step_iff (interval : String) (x : Slot) (e : Event) (h : Keeps x) :
    Keeps (step interval x e) ↔ Meets interval x e := by
  cases e with
  | getCandles =>
      refine iff_of_true ?_ trivial
      rw [step]
      split <;> exact h
  | fetched candles =>
      refine iff_of_true ?_ trivial
      rw [step]
      split
      next => exact h
      next =>
        intro fetched hfetched
        cases hfetched
        exact ⟨_, rfl, continues_self _ _⟩
  | candle c =>
      rw [step, Meets]
      split
      next hinterval =>
        simp only [hinterval, forall_const, Keeps, Option.some.injEq, exists_eq_left', continues_singleton_iff]
      next hinterval => exact iff_of_true h (fun hc => absurd hc hinterval)
  | candles candles =>
      rw [step, Meets]
      split
      next hinterval => simp only [hinterval, forall_const, Keeps, Option.some.injEq, exists_eq_left']
      next hinterval => exact iff_of_true h (fun hc => absurd hc hinterval)

theorem keeps_empty : Keeps {} := by
  rintro fetched hnone
  cases hnone

/-- In a run every call finds the history of the last fetch exactly when every message meets the condition. -/
theorem history_kept_iff (interval : String) (events : List Event) :
    AllMeet (step interval) (fun x e => Keeps (step interval x e)) {} events ↔
      AllMeet (step interval) (Meets interval) {} events :=
  allMeet_keeps_iff (keeps_step_iff interval) keeps_empty

/-- MarketCache.get_candles -/
def getCandles (cache : MarketCache) (exchange symbol interval : String) : Option (List Candle) :=
  (cache (lower exchange, upper symbol)).bind (fun entry => entry.candles interval)

/-- The candles of the slot as the cache of the hub has them, without their timestamps. -/
def Slot.forget (x : Slot) : Option (List Candle) := x.candles.map (List.map TimedCandle.toCandle)

variable {cache : MarketCache} {exchange symbol : String}

theorem getCandles_updateCandles (candles : List Candle) (interval' : String) :
    getCandles (updateCandles cache exchange symbol interval' candles) exchange symbol interval =
      if interval = interval' then some candles else getCandles cache exchange symbol interval := by
  simp only [getCandles, updateCandles, MarketCache.assign, Function.update_self, Option.bind_some]
  split
  next h => rw [h, Function.update_self]
  next h =>
    rw [Function.update_of_ne h]
    cases cache (lower exchange, upper symbol) <;> rfl

/-- The hub does with a streamed candle what the slot does. -/
theorem cached_candle (h : getCandles cache exchange symbol interval = x.forget) (c : TimedCandle) :
    getCandles (cached cache exchange symbol "candle" (.candle c.toCandle)) exchange symbol interval =
      (step interval x (.candle c)).forget := by
  rw [cached, if_pos rfl, getCandles_updateCandles, step]
  by_cases hinterval : c.interval = interval
  · rw [if_pos hinterval.symm, if_pos hinterval]
    rfl
  · rw [if_neg (Ne.symm hinterval), if_neg hinterval, h]

theorem cached_candles (h : getCandles cache exchange symbol interval = x.forget) (candles : List TimedCandle) :
    getCandles (cached cache exchange symbol "candle" (.candles (candles.map TimedCandle.toCandle))) exchange symbol
      interval = (step interval x (.candles candles)).forget := by
  rw [cached, if_pos rfl, getCandles_updateCandles, step]
  split
  next => rfl
  next => exact h

/-- So it does with what a waiting call has fetched. -/
theorem cached_fetched (hwaiting : x.fetching ≠ 0) (candles : List TimedCandle) :
    getCandles (updateCandles cache exchange symbol interval (candles.map TimedCandle.toCandle)) exchange symbol
      interval = (step interval x (.fetched candles)).forget := by
  rw [getCandles_updateCandles, if_pos rfl, step, if_neg hwaiting]
  rfl

def dailyCandle (timestamp : Int) : TimedCandle where
  symbol := "BTCUSDT"
  interval := "1d"
  opened := 100
  high := 110
  low := 90
  close := 105
  volume := 1
  timestamp := timestamp

/-- Two candles are fetched, and the next one that is streamed takes their place. -/
theorem history_lost : ¬ ∀ (interval : String) (events : List Event),
    AllMeet (step interval) (fun x e => Keeps (step interval x e)) {} events := by
  intro h
  have hall := h "1d" [.getCandles, .fetched [dailyCandle 1, dailyCandle 2], .candle (dailyCandle 3)]
  obtain ⟨current, hcurrent, updated, newer, happend, hupdated, -⟩ :=
    hall.2.2.1 [dailyCandle 1, dailyCandle 2] rfl
  have hlength := hupdated.length_eq
  cases hcurrent
  have hshort : 1 = updated.length + newer.length := (congrArg List.length happend).trans List.length_append
  rw [List.length_cons, List.length_singleton] at hlength
  omega

end Utos.MarketData.CandleHistory
