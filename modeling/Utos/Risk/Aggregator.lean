import Mathlib.Algebra.Order.BigOperators.Group.List
import Utos.Risk.Exposure

namespace Utos.Risk.Aggregator

open Core Recovery.Portfolio Exposure

structure AggregatedPosition where
  key : String
  totalLongQuantity : ℚ
  totalShortQuantity : ℚ
  netQuantity : ℚ
  weightedAvgEntryPrice : ℚ
  positionCount : Nat
  deriving DecidableEq, Repr

/-- The four running sums of the loops over the positions. -/
structure Totals where
  longQty : ℚ := 0
  shortQty : ℚ := 0
  totalCost : ℚ := 0
  totalQty : ℚ := 0
  deriving DecidableEq, Repr

def Totals.add (t : Totals) (pos : Position) : Totals where
  longQty := if pos.side = "long" then t.longQty + pos.quantity else t.longQty
  shortQty := if pos.side = "long" then t.shortQty else t.shortQty + pos.quantity
  totalCost := t.totalCost + pos.entryPrice * pos.quantity
  totalQty := t.totalQty + pos.quantity

def Totals.avgPrice (t : Totals) : ℚ := if 0 < t.totalQty then t.totalCost / t.totalQty else 0

def Totals.aggregated (t : Totals) (key : String) (count : Nat) : AggregatedPosition where
  key := key
  totalLongQuantity := t.longQty
  totalShortQuantity := t.shortQty
  netQuantity := t.longQty - t.shortQty
  weightedAvgEntryPrice := t.avgPrice
  positionCount := count

/-- _aggregate -/
def aggregate (keyFunc : Position → String) (positions : List Position) : Dict String AggregatedPosition :=
  let groups : Dict String (List Position) := positions.foldl (fun groups pos =>
    if pos.closed then groups
    else groups.set (keyFunc pos) ((groups.get (keyFunc pos)).getD [] ++ [pos])) ∅
  groups.entries.foldl (fun result entry =>
    result.set entry.1 ((entry.2.foldl Totals.add {}).aggregated entry.1 entry.2.length)) ∅

def aggregateBySymbol : List Position → Dict String AggregatedPosition := aggregate Position.symbol

def aggregateByExchange : List Position → Dict String AggregatedPosition := aggregate Position.exchange

def aggregateByAccount : List Position → Dict String AggregatedPosition := aggregate Position.accountId

def getNetPosition (positions : List Position) : AggregatedPosition :=
  let sums := positions.foldl (fun (sums : Totals × Nat) pos =>
    if pos.closed then sums else (sums.1.add pos, sums.2 + 1)) ({}, 0)
  sums.1.aggregated "net" sums.2

/-- The sums over a list of positions. -/
def totals (positions : List Position) : Totals where
  longQty := (positions.map (onLong Position.quantity)).sum
  shortQty := (positions.map (onShort Position.quantity)).sum
  totalCost := (positions.map (fun pos => pos.entryPrice * pos.quantity)).sum
  totalQty := (positions.map Position.quantity).sum

theorem foldl_add (positions : List Position) : positions.foldl Totals.add {} = totals positions := by
  have hfold : ∀ (positions : List Position) (t : Totals), positions.foldl Totals.add t =
      ⟨t.longQty + (totals positions).longQty, t.shortQty + (totals positions).shortQty,
        t.totalCost + (totals positions).totalCost, t.totalQty + (totals positions).totalQty⟩ := by
    intro positions
    induction positions with
    | nil => simp [totals]
    | cons pos positions ih =>
        intro t
        rw [List.foldl_cons, ih]
        simp only [totals, Totals.add, List.map_cons, List.sum_cons, onLong, onShort]
        split <;> simp only [zero_add, add_assoc]
  rw [hfold]
  simp only [zero_add]

theorem getNetPosition_eq (positions : List Position) :
    getNetPosition positions = (totals (openOnes positions)).aggregated "net" (openOnes positions).length := by
  have hfold : ∀ (positions : List Position) (sums : Totals × Nat), positions.foldl (fun sums pos =>
      (sums.1.add pos, sums.2 + 1)) sums = (positions.foldl Totals.add sums.1, sums.2 + positions.length) := by
    intro positions
    induction positions with
    | nil => exact fun _ => rfl
    | cons pos positions ih =>
        intro sums
        rw [List.foldl_cons, ih, List.foldl_cons, List.length_cons]
        simp only [Prod.mk.injEq, true_and]
        omega
  rw [getNetPosition, foldl_open (fun (sums : Totals × Nat) pos => (sums.1.add pos, sums.2 + 1)), hfold]
  simp only [foldl_add, zero_add]

/-- Every group of the open positions is summed up on its own. -/
theorem aggregate_values (keyFunc : Position → String) (positions : List Position) :
    (aggregate keyFunc positions).values = (Dict.groupBy keyFunc (openOnes positions)).entries.map (fun entry =>
      (totals entry.2).aggregated entry.1 entry.2.length) := by
  have hgroups : positions.foldl (fun (groups : Dict String (List Position)) pos =>
      if pos.closed then groups
      else groups.set (keyFunc pos) ((groups.get (keyFunc pos)).getD [] ++ [pos])) ∅ =
        Dict.groupBy keyFunc (openOnes positions) := foldl_open _ _ _
  simp only [aggregate, hgroups, foldl_add]
  rw [Dict.values, Dict.entries_rebuild _ (fun key group => (totals group).aggregated key group.length), List.map_map]
  rfl

/-- A quantity of the groups that is a sum over each group sums up to that over all open positions. -/
theorem sum_aggregate {M : Type} [AddCommMonoid M] {keyFunc : Position → String} {positions : List Position}
    {g : AggregatedPosition → M} {f : Position → M}
    (h : ∀ key group, (∀ pos ∈ group, pos ∈ openOnes positions) →
      g ((totals group).aggregated key group.length) = (group.map f).sum) :
    ((aggregate keyFunc positions).values.map g).sum = ((openOnes positions).map f).sum := by
  rw [← Dict.sum_groups keyFunc f, aggregate_values, List.map_map, Dict.values, List.map_map]
  refine congrArg List.sum (List.map_congr_left (fun entry hentry => h _ _ (fun pos hpos => ?_)))
  refine (Dict.flatten_groupBy keyFunc (openOnes positions)).subset (List.mem_flatten.mpr ⟨entry.2, ?_, hpos⟩)
  exact List.mem_map_of_mem (f := Prod.snd) hentry

theorem totalQty_nonneg {positions : List Position} (h : ∀ pos ∈ positions, 0 ≤ pos.quantity) :
    0 ≤ (totals positions).totalQty := List.sum_nonneg (by simpa using h)

theorem Totals.avgPrice_eq {t : Totals} (h : 0 ≤ t.totalQty) : t.avgPrice = t.totalCost / t.totalQty := by
  unfold Totals.avgPrice
  split
  next => rfl
  next hpos => rw [le_antisymm (not_lt.mp hpos) h, div_zero]

/-- Where no quantity is negative, the average is a mean: it gives the cost back. -/
theorem avgPrice_mul {positions : List Position} (h : ∀ pos ∈ positions, 0 ≤ pos.quantity) :
    (totals positions).avgPrice * (totals positions).totalQty = (totals positions).totalCost := by
  unfold Totals.avgPrice
  split
  next hpos => exact div_mul_cancel₀ _ hpos.ne'
  next hpos =>
    have hnonneg : ∀ x ∈ positions.map Position.quantity, 0 ≤ x := by simpa using h
    have hzero : ∀ x ∈ positions.map Position.quantity, x = 0 := fun x hx =>
      List.all_zero_of_le_zero_le_of_sum_eq_zero hnonneg (le_antisymm (not_lt.mp hpos) (totalQty_nonneg h)) hx
    have hcost : (totals positions).totalCost = 0 := by
      refine List.sum_eq_zero (fun x hx => ?_)
      obtain ⟨pos, hmem, rfl⟩ := List.mem_map.mp hx
      rw [hzero _ (List.mem_map_of_mem hmem), mul_zero]
    rw [zero_mul, hcost]

end Utos.Risk.Aggregator

namespace Utos.Risk.Views

open Core Recovery.Portfolio Manager Exposure Aggregator

/-- The mean of the average entry prices of the groups, weighted with their quantities.
Over no quantity at all it is zero, as the averages are. -/
def meanOf (groups : List AggregatedPosition) : ℚ :=
  (groups.map (fun group =>
    group.weightedAvgEntryPrice * (group.totalLongQuantity + group.totalShortQuantity))).sum /
      (groups.map (fun group => group.totalLongQuantity + group.totalShortQuantity)).sum

/-- The three sums of a report, and its net exposure, tell of one total. -/
structure ReportAgrees (positions : List Position) (prices : Dict String ℚ) (report : ExposureReport) : Prop where
  total : report.totalExposure = report.longExposure + report.shortExposure
  exchange : report.byExchange.values.sum = report.totalExposure
  account : report.byAccount.values.sum = report.totalExposure
  symbol : report.bySymbol.values.sum = report.totalExposure
  difference : report.netExposure = report.longExposure - report.shortExposure
  net : report.netExposure = getNetExposure positions prices

/-- The groups add up to the net position. -/
structure GroupsAgree (groups : List AggregatedPosition) (net : AggregatedPosition) : Prop where
  long : (groups.map AggregatedPosition.totalLongQuantity).sum = net.totalLongQuantity
  short : (groups.map AggregatedPosition.totalShortQuantity).sum = net.totalShortQuantity
  netQuantity : (groups.map AggregatedPosition.netQuantity).sum = net.netQuantity
  count : (groups.map AggregatedPosition.positionCount).sum = net.positionCount
  mean : meanOf groups = net.weightedAvgEntryPrice

theorem reportAgrees (positions : List Position) (prices : Dict String ℚ) :
    ReportAgrees positions prices (calculateExposure positions prices) where
  total := rfl
  exchange := sum_exposureBy positions prices Position.exchange
  account := sum_exposureBy positions prices Position.accountId
  symbol := sum_exposureBy positions prices Position.symbol
  difference := rfl
  net := by
    obtain ⟨hlong, hshort⟩ := calculateExposure_sides positions prices
    rw [getNetExposure_eq, ← hlong, ← hshort]
    rfl

theorem longShort (positions : List Position) :
    (totals positions).longQty + (totals positions).shortQty = (totals positions).totalQty :=
  onLong_add_onShort Position.quantity positions

theorem netOf (positions : List Position) : (totals positions).longQty - (totals positions).shortQty =
    (positions.map (fun pos => onLong Position.quantity pos - onShort Position.quantity pos)).sum := by
  induction positions with
  | nil => simp [totals]
  | cons pos positions ih =>
      rw [List.map_cons, List.sum_cons, ← ih]
      simp only [totals, List.map_cons, List.sum_cons]
      ring

theorem countOf (positions : List Position) : positions.length = (positions.map (fun _ => 1)).sum := by simp

theorem groupsAgree (keyFunc : Position → String) {positions : List Position}
    (h : ∀ pos ∈ openOnes positions, 0 ≤ pos.quantity) :
    GroupsAgree (aggregate keyFunc positions).values (getNetPosition positions) := by
  have hquantity : ((aggregate keyFunc positions).values.map (fun group =>
      group.totalLongQuantity + group.totalShortQuantity)).sum = (totals (openOnes positions)).totalQty :=
    sum_aggregate (fun _ group _ => longShort group)
  have hcost : ((aggregate keyFunc positions).values.map (fun group => group.weightedAvgEntryPrice *
      (group.totalLongQuantity + group.totalShortQuantity))).sum = (totals (openOnes positions)).totalCost := by
    refine sum_aggregate (fun _ group hgroup => ?_)
    have hcost := avgPrice_mul (fun pos hpos => h pos (hgroup pos hpos))
    rw [← longShort] at hcost
    exact hcost
  rw [getNetPosition_eq]
  refine ⟨sum_aggregate (fun _ _ _ => rfl), sum_aggregate (fun _ _ _ => rfl), ?_, ?_, ?_⟩
  · exact (sum_aggregate (fun _ group _ => netOf group)).trans (netOf _).symm
  · exact (sum_aggregate (fun _ group _ => countOf group)).trans (countOf _).symm
  · rw [meanOf, hquantity, hcost, ← Totals.avgPrice_eq (totalQty_nonneg h)]
    rfl

/-- The exposure report and the three groupings tell the same of every list of positions. -/
theorem views_agree {positions : List Position} (prices : Dict String ℚ)
    (h : ∀ pos ∈ positions, pos.closed = false → 0 ≤ pos.quantity) :
    ReportAgrees positions prices (calculateExposure positions prices) ∧
      ∀ aggregateBy ∈ [aggregateBySymbol, aggregateByExchange, aggregateByAccount],
        GroupsAgree (aggregateBy positions).values (getNetPosition positions) := by
  have hopen : ∀ pos ∈ openOnes positions, 0 ≤ pos.quantity := by
    intro pos hpos
    obtain ⟨hmem, hclosed⟩ := List.mem_filter.mp hpos
    exact h pos hmem (by simpa using hclosed)
  refine ⟨reportAgrees positions prices, fun aggregateBy hby => ?_⟩
  simp only [List.mem_cons, List.not_mem_nil, or_false] at hby
  rcases hby with rfl | rfl | rfl
  · exact groupsAgree Position.symbol hopen
  · exact groupsAgree Position.exchange hopen
  · exact groupsAgree Position.accountId hopen

/-- A long and a short position in one symbol, and a closed one. -/
def mixed : List Position :=
  [{ instanceId := "a", accountId := "acc", exchange := "binance", symbol := "BTCUSDT", side := "long"
     entryPrice := 100, quantity := 3 },
   { instanceId := "b", accountId := "acc", exchange := "bybit", symbol := "BTCUSDT", side := "short"
     entryPrice := 120, quantity := 1 },
   { instanceId := "c", accountId := "acc", exchange := "bybit", symbol := "ETHUSDT", side := "long"
     entryPrice := 10, quantity := 5, closed := true }]

theorem views_agree_mixed : ReportAgrees mixed ∅ (calculateExposure mixed ∅) ∧
    ∀ aggregateBy ∈ [aggregateBySymbol, aggregateByExchange, aggregateByAccount],
      GroupsAgree (aggregateBy mixed).values (getNetPosition mixed) :=
  views_agree ∅ (by decide +kernel)

end Utos.Risk.Views
