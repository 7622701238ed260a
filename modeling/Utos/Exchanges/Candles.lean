import Utos.Core.Sequence
import Utos.Core.Snapshot
import Utos.Exchanges.Binance
import Utos.Exchanges.Bybit
import Utos.Exchanges.OKX
import Utos.MarketData.Hub

namespace Utos.Exchanges.Candles

open Core.DomainTypes Core.Exceptions Core Core.Sequence Http Errors

/-- A candle with its time, in seconds since the epoch. -/
structure Candle extends MarketData.Hub.Candle where
  timestamp : ℚ
  deriving DecidableEq, Repr

/-- What a loop over the value goes through. -/
def iterate : Json → Except Exn (List Json)
  | .list items => .ok items
  | .object fields => .ok (fields.map (fun field => .text field.1))
  | .text s => .ok (s.toList.map (fun c => .text (String.ofList [c])))
  | j => .error (.other "TypeError" s!"'{j.typeName}' object is not iterable")

/-- row[k] -/
def column (row : Json) (k : Nat) : Except Exn Json :=
  match row with
  | .list items => item items k
  | .text s => (item s.toList k).map (fun c => .text (String.ofList [c]))
  | .object _ => .error (.other "KeyError" (toString k))
  | j => .error (.other "TypeError" s!"'{j.typeName}' object is not subscriptable")

/-- Decimal(value), of what is a number or the text of one. -/
def decimal : Json → Except Exn ℚ
  | .bool b => .ok (if b then 1 else 0)
  | .float (some value) _ => .ok value
  | j => j.decimal.map Decimal.value

/-- The digits of an integer, behind a sign or not. -/
def integerText (s : String) : Option Int :=
  let (negative, digits) := Decimal.signed s.toList
  if digits ≠ [] ∧ digits.all Char.isDigit then
    some ((if negative then -1 else 1) * Nat.ofDigitChars 10 digits 0)
  else none

/-- int(value); a text is digits with a sign or without. -/
def integer : Json → Except Exn Int
  | .int n => .ok n
  | .bool b => .ok (if b then 1 else 0)
  | .float (some value) _ => .ok (if value < 0 then value.ceil else value.floor)
  | .float none _ => .error (.other "ValueError" "cannot convert float NaN to integer")
  | .text s => match integerText s with
    | some n => .ok n
    | none => .error (.other "ValueError" s!"invalid literal for int() with base 10: '{s}'")
  | j => .error (.other "TypeError"
      s!"int() argument must be a string, a bytes-like object or a real number, not '{j.typeName}'")

/-- value / 1000 -/
def thousandth : Json → Except Exn ℚ
  | .int n => .ok (n / 1000)
  | .bool b => .ok ((if b then 1 else 0) / 1000)
  | .float (some value) _ => .ok (value / 1000)
  | .float none _ => .error (.other "ValueError" "cannot convert float NaN to integer")
  | j => .error (.other "TypeError" s!"unsupported operand type(s) for /: '{j.typeName}' and 'int'")

/-- datetime.fromtimestamp(seconds, tz=UTC): the years are those from 1 to 9999. -/
def fromtimestamp (seconds : ℚ) : Except Exn ℚ :=
  if -62135596800 ≤ seconds ∧ seconds < 253402300800 then .ok seconds
  else .error (.other "ValueError" "year is out of range")

variable (timeOf : Json → Except Exn ℚ) (symbol interval : String)

/-- The candle of a row, whose first column is read as an adapter reads it. -/
def candleOf (row : Json) : Except Exn Candle := do
  let opened ← column row 1 >>= decimal
  let high ← column row 2 >>= decimal
  let low ← column row 3 >>= decimal
  let close ← column row 4 >>= decimal
  let volume ← column row 5 >>= decimal
  let timestamp ← column row 0 >>= timeOf >>= fromtimestamp
  return { symbol := upper symbol, interval, opened, high, low, close, volume, timestamp }

/-- int(value) / 1000 -/
def integerThousandth (j : Json) : Except Exn ℚ := (integer j).map (fun n => n / 1000)

end Utos.Exchanges.Candles

namespace Utos.Exchanges

open Core.Exceptions Core Core.Sequence Http Errors Candles

variable (x : Named) (symbol interval : String) (response : JsonResponse)

/-- What the loop of BinanceAdapter.get_candles goes through. -/
def Binance.rows : Except Exn (List Json) := do
  let data ← parseJson x response
  iterate data

/-- BinanceAdapter.get_candles from the response on. -/
def Binance.getCandles : Except Exn (List Candle) := do
  each (candleOf thousandth symbol interval) (← Binance.rows x response)

def Bybit.rows : Except Exn (List Json) := do
  let data ← parseJson Bybit.codes x response
  let result ← data.get "result" (.object [])
  iterate (← result.get "list" (.list []))

/-- BybitAdapter.get_candles from the response on. -/
def Bybit.getCandles : Except Exn (List Candle) := do
  each (candleOf integerThousandth symbol interval) (← Bybit.rows x response)

def OKX.rows : Except Exn (List Json) := do
  let data ← parseJson OKX.codes x response
  iterate (← data.get "data" (.list []))

/-- OKXAdapter.get_candles from the response on. -/
def OKX.getCandles : Except Exn (List Candle) := do
  each (candleOf integerThousandth symbol interval) (← OKX.rows x response)

end Utos.Exchanges

namespace Utos.Exchanges.CandleOrder

open Core.Exceptions Core Core.Sequence Errors Candles

inductive Venue
  | binance
  | bybit
  | okx
  deriving DecidableEq, Repr

def rows (x : Named) (response : JsonResponse) : Venue → Except Exn (List Json)
  | .binance => Binance.rows x response
  | .bybit => Bybit.rows x response
  | .okx => OKX.rows x response

/-- How an adapter reads the first column of a row. -/
def timeOf : Venue → Json → Except Exn ℚ
  | .binance => thousandth
  | .bybit | .okx => integerThousandth

def getCandles (x : Named) (symbol interval : String) (response : JsonResponse) : Venue → Except Exn (List Candle)
  | .binance => Binance.getCandles x symbol interval response
  | .bybit => Bybit.getCandles x symbol interval response
  | .okx => OKX.getCandles x symbol interval response

def Ascending (candles : List Candle) : Prop := candles.Pairwise (fun c c' => c.timestamp ≤ c'.timestamp)

/-- There is one candle for every row, and the candles ascend in time. -/
def OldestFirst (venue : Venue) (symbol interval : String) (rows : List Json) (candles : List Candle) : Prop :=
  Ascending candles ∧ ∃ converted,
    List.Forall₂ (fun row candle => candleOf (timeOf venue) symbol interval row = .ok candle) rows converted ∧
      candles.Perm converted

/-- The time that a row begins with. -/
def openTime (venue : Venue) (row : Json) : Except Exn ℚ := column row 0 >>= timeOf venue

/-- The rows ascend in time as they come. -/
def RowsAscend (venue : Venue) (rows : List Json) : Prop :=
  rows.Pairwise (fun row row' => ∀ t t', openTime venue row = .ok t → openTime venue row' = .ok t' → t ≤ t')

variable {x : Named} {symbol interval : String} {response : JsonResponse} {venue : Venue} {candles : List Candle}

theorem getCandles_eq_ok : getCandles x symbol interval response venue = .ok candles ↔
    ∃ rs, rows x response venue = .ok rs ∧
      List.Forall₂ (fun row candle => candleOf (timeOf venue) symbol interval row = .ok candle) rs candles := by
  have heach : getCandles x symbol interval response venue =
      (rows x response venue >>= each (candleOf (timeOf venue) symbol interval)) := by cases venue <;> rfl
  rw [heach, bind_eq_ok]
  simp only [each_eq_ok]

theorem candleOf_timestamp {row : Json} {candle : Candle}
    (h : candleOf (timeOf venue) symbol interval row = .ok candle) : openTime venue row = .ok candle.timestamp := by
  obtain ⟨_, -, h⟩ := bind_eq_ok.mp h
  obtain ⟨_, -, h⟩ := bind_eq_ok.mp h
  obtain ⟨_, -, h⟩ := bind_eq_ok.mp h
  obtain ⟨_, -, h⟩ := bind_eq_ok.mp h
  obtain ⟨_, -, h⟩ := bind_eq_ok.mp h
  obtain ⟨timestamp, htime, h⟩ := bind_eq_ok.mp h
  cases h
  obtain ⟨seconds, hopen, hrange⟩ := bind_eq_ok.mp htime
  unfold fromtimestamp at hrange
  split at hrange
  · cases hrange
    exact hopen
  · cases hrange

theorem forall₂_times {rs : List Json}
    (h : List.Forall₂ (fun row candle => candleOf (timeOf venue) symbol interval row = .ok candle) rs candles) :
    rs.map (openTime venue) = candles.map (fun candle => .ok candle.timestamp) := by
  induction h with
  | nil => rfl
  | cons hrow _ ih => rw [List.map_cons, List.map_cons, candleOf_timestamp hrow, ih]

theorem rowsAscend_iff {rs : List Json}
    (h : List.Forall₂ (fun row candle => candleOf (timeOf venue) symbol interval row = .ok candle) rs candles) :
    RowsAscend venue rs ↔ Ascending candles := by
  have hmap : RowsAscend venue rs ↔
      (rs.map (openTime venue)).Pairwise (fun m m' => ∀ t t', m = .ok t → m' = .ok t' → t ≤ t') := by
    rw [RowsAscend, List.pairwise_map]
  rw [hmap, forall₂_times h, List.pairwise_map]
  refine List.Pairwise.iff (fun candle candle' => ⟨fun hle => hle _ _ rfl rfl, ?_⟩)
  rintro hle t t' ht ht'
  cases ht
  cases ht'
  exact hle

/-- The candles come oldest first exactly when the rows of the response do. -/
theorem oldestFirst_iff (h : getCandles x symbol interval response venue = .ok candles) :
    ∃ rs, rows x response venue = .ok rs ∧
      (OldestFirst venue symbol interval rs candles ↔ RowsAscend venue rs) := by
  obtain ⟨rs, hrows, hall⟩ := getCandles_eq_ok.mp h
  refine ⟨rs, hrows, Iff.trans ?_ (rowsAscend_iff hall).symm⟩
  exact ⟨fun hfirst => hfirst.1, fun hascending => ⟨hascending, candles, hall, List.Perm.refl candles⟩⟩

def bybit : Named := ⟨"bybit", fun _ => ""⟩

/-- A row that opens at a time in milliseconds, all at one price. -/
def rowAt (openTime : Nat) (price : String) : Json :=
  .list [.text (toString openTime), .text price, .text price, .text price, .text price, .text "1"]

/-- The answer of Bybit with these rows. -/
def answer (rows : List Json) : JsonResponse :=
  { statusCode := 200, body := some (.object [("result", .object [("list", .list rows)])]) }

def candleAt (timestamp price : ℚ) : Candle :=
  { symbol := "BTCUSDT", interval := "1d", opened := price, high := price, low := price, close := price, volume := 1
    timestamp }

theorem oldestFirst_ascending : ∃ rs, rows bybit (answer [rowAt 1000 "100", rowAt 2000 "90"]) .bybit = .ok rs ∧
    (OldestFirst .bybit "BTCUSDT" "1d" rs [candleAt 1 100, candleAt 2 90] ↔ RowsAscend .bybit rs) :=
  @oldestFirst_iff bybit "BTCUSDT" "1d" (answer [rowAt 1000 "100", rowAt 2000 "90"]) .bybit
    [candleAt 1 100, candleAt 2 90] (by decide +kernel)

/-- Bybit and OKX send the newest row first, and that is how the candles are returned. -/
theorem newestFirst_kept : ¬ ∀ (x : Named) (symbol interval : String) (response : JsonResponse) (venue : Venue)
    (candles : List Candle) (rs : List Json), getCandles x symbol interval response venue = .ok candles →
      rows x response venue = .ok rs → OldestFirst venue symbol interval rs candles := by
  intro h
  have hfirst := h bybit "BTCUSDT" "1d" (answer [rowAt 2000 "90", rowAt 1000 "100"]) .bybit
    [candleAt 2 90, candleAt 1 100] [rowAt 2000 "90", rowAt 1000 "100"] (by decide +kernel) rfl
  have hle : (candleAt 2 90).timestamp ≤ (candleAt 1 100).timestamp :=
    (List.pairwise_cons.mp hfirst.1).1 _ List.mem_cons_self
  exact absurd hle (by decide +kernel)

end Utos.Exchanges.CandleOrder
