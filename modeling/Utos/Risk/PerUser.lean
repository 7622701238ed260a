import Mathlib.Algebra.Order.BigOperators.Group.List
import Mathlib.Data.Fintype.EquivFin
import Mathlib.Tactic.Linarith
import Utos.Risk.Manager

namespace Utos.Risk.PerUser

open Core Recovery.Portfolio Manager

/-- The decision for an order, with a portfolio in place of the manager's own. -/
def allowed (s : RiskManager) (portfolio : PortfolioManager) (order : Order) : Bool :=
  (checkOrderRisk { s with portfolio } order).1.allowed

/-- Open positions have positive prices and quantities, as they are registered and filled. -/
def Sound (m : PortfolioManager) : Prop :=
  ∀ i pos, m.positions.get i = some pos → pos.closed = false → 0 < pos.entryPrice ∧ 0 < pos.quantity

/-- The positions of an account are the same in both portfolios. -/
def Agree (a : String) (m m' : PortfolioManager) : Prop :=
  ∀ i pos, pos.accountId = a → (m'.positions.get i = some pos ↔ m.positions.get i = some pos)

/-- No portfolio that agrees with this one on the account of the order decides otherwise. -/
def OwnOnly (s : RiskManager) (order : Order) : Prop :=
  ∀ m, Sound m → Agree order.accountId s.portfolio m → allowed s m order = allowed s s.portfolio order

/-- The open positions of an account with a value in a field, summed up. -/
def ownTotal (a : String) (field : Position → String) (k : String) (prices : Dict String ℚ) (m : PortfolioManager) : ℚ :=
  total field k prices (m.getPositions.filter (fun pos => pos.accountId = a))

/-- The order is too large, or the capital of its instance is. -/
def OwnLimits (s : RiskManager) (order : Order) : Prop :=
  (getRiskParameters s order.userId).maxPositionSize < order.notional ∨
    0 < (s.instanceCapital.get order.instanceId).getD 0 ∧
      (getRiskParameters s order.userId).maxCapitalPerInstance < (s.instanceCapital.get order.instanceId).getD 0

/-- The positions of the account alone exceed a limit, whatever is added to them at prices that are not negative. -/
def OwnExposure (s : RiskManager) (order : Order) : Prop :=
  0 ≤ order.price ∧
    ((getRiskParameters s order.userId).maxExposurePerSymbol <
        ownTotal order.accountId Position.symbol order.symbol (currentPrices s order) s.portfolio + order.notional ∨
      (∀ symbol price, symbol ≠ order.symbol → s.prices.get symbol = some price → 0 ≤ price) ∧
        (getRiskParameters s order.userId).maxExposurePerExchange <
          ownTotal order.accountId Position.exchange order.exchange (currentPrices s order) s.portfolio + order.notional)

variable {s : RiskManager} {order : Order} {m m' : PortfolioManager} {a : String}

theorem allowed_iff : allowed s m order = true ↔ ¬ OwnLimits s order ∧
    total Position.symbol order.symbol (currentPrices s order) m.getPositions + order.notional ≤
      (getRiskParameters s order.userId).maxExposurePerSymbol ∧
    total Position.exchange order.exchange (currentPrices s order) m.getPositions + order.notional ≤
      (getRiskParameters s order.userId).maxExposurePerExchange ∧
    ¬ (getPosition m order.instanceId = none ∧
      (getRiskParameters s order.userId).maxOpenPositions ≤ getOpenPositionCount m) := by
  have hsymbol : newSymbolExposure { s with portfolio := m } order =
      total Position.symbol order.symbol (currentPrices s order) m.getPositions + order.notional := by
    rw [newSymbolExposure, getExposureBySymbol, exposureBy_get]
    rfl
  have hexchange : newExchangeExposure { s with portfolio := m } order =
      total Position.exchange order.exchange (currentPrices s order) m.getPositions + order.notional := by
    rw [newExchangeExposure, getExposureByExchange, exposureBy_get]
    rfl
  simp only [allowed, checkOrderRisk, ruling, hsymbol, hexchange, OwnLimits, not_or]
  split_ifs with h1 h2 h3 h4 h5
  · exact iff_of_false Bool.false_ne_true (fun h => h.1.1 h1)
  · exact iff_of_false Bool.false_ne_true (fun h => h.1.2 h2)
  · exact iff_of_false Bool.false_ne_true (fun h => absurd h.2.1 (not_le.mpr h3))
  · exact iff_of_false Bool.false_ne_true (fun h => absurd h.2.2.1 (not_le.mpr h4))
  · exact iff_of_false Bool.false_ne_true (fun h => h.2.2.2 h5)
  · exact iff_of_true rfl ⟨⟨h1, h2⟩, not_lt.mp h3, not_lt.mp h4, h5⟩

theorem nodup_getPositions (m : PortfolioManager) : m.getPositions.Nodup := by
  refine List.Nodup.of_map Position.instanceId ?_
  have hkeys : m.getPositions.map Position.instanceId = m.positions.entries.map Prod.fst := by
    rw [PortfolioManager.getPositions, List.map_map]
    exact List.map_congr_left (fun e he => m.keyed e.1 e.2 (Dict.get_of_mem he))
  rw [hkeys]
  exact m.positions.nodup

theorem Agree.perm (h : Agree a m m') : (m'.getPositions.filter (fun pos => pos.accountId = a)).Perm
    (m.getPositions.filter (fun pos => pos.accountId = a)) := by
  refine (List.perm_ext_iff_of_nodup ((nodup_getPositions m').filter _) ((nodup_getPositions m).filter _)).mpr ?_
  intro pos
  simp only [List.mem_filter, PortfolioManager.mem_getPositions, decide_eq_true_eq]
  exact and_congr_left (fun ha => h pos.instanceId pos ha)

theorem total_nonneg {field : Position → String} {k : String} {prices : Dict String ℚ} {positions : List Position}
    (h : ∀ pos ∈ positions, pos.closed = false → field pos = k → 0 ≤ notional prices pos) :
    0 ≤ total field k prices positions := by
  refine List.sum_nonneg (fun x hx => ?_)
  obtain ⟨pos, hpos, rfl⟩ := List.mem_map.mp hx
  obtain ⟨hmem, hfield⟩ := List.mem_filter.mp hpos
  simp only [Bool.and_eq_true, Bool.not_eq_true', decide_eq_true_eq] at hfield
  exact h pos hmem hfield.1 hfield.2

/-- What the account has counts in full where nothing else counts below zero. -/
theorem ownTotal_le {field : Position → String} {k : String} {prices : Dict String ℚ} (h : Agree a m m')
    (hpos : ∀ pos ∈ m'.getPositions, pos.closed = false → field pos = k → 0 ≤ notional prices pos) :
    ownTotal a field k prices m ≤ total field k prices m'.getPositions := by
  have hsplit := List.filter_append_perm (fun pos => decide (pos.accountId = a)) m'.getPositions
  rw [← total_perm hsplit, total_append, total_perm h.perm]
  exact le_add_of_nonneg_right (total_nonneg (fun pos hmem => hpos pos (List.mem_of_mem_filter hmem)))

theorem notional_nonneg {prices : Dict String ℚ} {pos : Position} (hm : Sound m) (hmem : pos ∈ m.getPositions)
    (hopen : pos.closed = false) (hprice : ∀ price, prices.get pos.symbol = some price → 0 ≤ price) :
    0 ≤ notional prices pos := by
  obtain ⟨hentry, hquantity⟩ := hm _ pos (m.mem_getPositions.mp hmem) hopen
  refine mul_nonneg ?_ hquantity.le
  cases hget : prices.get pos.symbol with
  | none => exact hentry.le
  | some price => exact hprice price hget

/-- What exceeds its limits on its own is denied whatever the others hold. -/
theorem denied_of_own (hown : OwnLimits s order ∨ OwnExposure s order) (hm : Sound m)
    (hagree : Agree order.accountId s.portfolio m) : allowed s m order = false := by
  refine Bool.eq_false_iff.mpr (fun hallowed => ?_)
  obtain ⟨hlimits, hsymbol, hexchange, -⟩ := allowed_iff.mp hallowed
  rcases hown with hlimits' | ⟨hprice, hown | ⟨hprices, hown⟩⟩
  · exact hlimits hlimits'
  · refine absurd (hown.trans_le ?_) (lt_irrefl _)
    refine (add_le_add_left (ownTotal_le hagree (fun pos hmem hopen hfield => ?_)) _).trans hsymbol
    refine notional_nonneg hm hmem hopen (fun price hget => ?_)
    rw [hfield, currentPrices, Dict.get_set_self] at hget
    exact Option.some.inj hget ▸ hprice
  · refine absurd (hown.trans_le ?_) (lt_irrefl _)
    refine (add_le_add_left (ownTotal_le hagree (fun pos hmem hopen _ => ?_)) _).trans hexchange
    refine notional_nonneg hm hmem hopen (fun price hget => ?_)
    rw [currentPrices, Dict.get_set] at hget
    split at hget
    · exact Option.some.inj hget ▸ hprice
    next hne => exact hprices _ price hne hget

theorem exists_fresh (l : List String) : ∃ i, i ∉ l := by
  obtain ⟨i, hi⟩ := Infinite.exists_notMem_finset l.toFinset
  exact ⟨i, fun h => hi (List.mem_toFinset.mpr h)⟩

/-- The positions of one account alone. -/
def ownPart (a : String) (m : PortfolioManager) : PortfolioManager where
  positions := m.positions.filter (fun pos => pos.accountId = a)
  keyed i pos h := m.keyed i pos (Dict.get_filter_eq_some.mp h).1

theorem agree_ownPart : Agree a m (ownPart a m) := by
  intro i pos ha
  rw [ownPart, Dict.get_filter_eq_some]
  exact and_iff_left (by simpa using ha)

theorem sound_ownPart (h : Sound m) : Sound (ownPart a m) :=
  fun i pos hget hopen => h i pos (Dict.get_filter_eq_some.mp hget).1 hopen

theorem getPositions_ownPart : (ownPart a m).getPositions = m.getPositions.filter (fun pos => pos.accountId = a) := by
  rw [PortfolioManager.getPositions, PortfolioManager.getPositions, List.filter_map]
  rfl

theorem agree_refl (a : String) (m : PortfolioManager) : Agree a m m := fun _ _ _ => Iff.rfl

/-- Whoever takes a free place of another account changes nothing for this one. -/
theorem Agree.put {i : String} {pos : Position} (h : Agree a m m') (hfree : m'.positions.get i = none)
    (hi : pos.instanceId = i) (ha : pos.accountId ≠ a) : Agree a m (m'.put i pos hi) := by
  intro j other hother
  rw [PortfolioManager.put_get, ← h j other hother]
  split
  next hj =>
    rw [hj, hfree]
    refine iff_of_false (fun heq => ha ?_) (fun heq => by cases heq)
    rw [Option.some.inj heq, hother]
  next => exact Iff.rfl

theorem Sound.put {i : String} {pos : Position} (h : Sound m) (hi : pos.instanceId = i)
    (hpos : pos.closed = false → 0 < pos.entryPrice ∧ 0 < pos.quantity) : Sound (m.put i pos hi) :=
  PortfolioManager.put_forall hi h hpos

theorem sound_empty : Sound {} := fun _ _ hget => by simp at hget

theorem Sound.registerPosition {args : PortfolioManager.RegisterArgs} {pos : Position} (h : Sound m)
    (hok : m.registerPosition args = .ok (pos, m')) : Sound m' := by
  obtain ⟨-, -, hentry, hquantity, rfl, rfl⟩ := PortfolioManager.registerPosition_ok hok
  exact h.put _ (fun _ => ⟨hentry, hquantity⟩)

theorem Sound.updatePosition {i side : String} {fillPrice fillQuantity : ℚ} {pos : Position} (h : Sound m)
    (hprice : 0 < fillPrice) (hfill : 0 < fillQuantity)
    (hok : m.updatePosition i fillPrice fillQuantity side = .ok (pos, m')) : Sound m' := by
  obtain ⟨position, hkey, hget, hclosed, rfl, hchanged⟩ := PortfolioManager.updatePosition_ok hok
  obtain ⟨hentry, hquantity⟩ := h i position hget hclosed
  rcases hchanged with ⟨-, -, rfl⟩ | ⟨-, hle, rfl⟩
  · refine h.put _ (fun _ => ⟨div_pos ?_ ?_, ?_⟩)
    · exact add_pos (mul_pos hentry hquantity) (mul_pos hprice hfill)
    · exact add_pos hquantity hfill
    · exact add_pos hquantity hfill
  · refine h.put _ (fun hopen => ⟨hentry, lt_of_le_of_ne (sub_nonneg.mpr hle) (fun hzero => ?_)⟩)
    simp only [PortfolioManager.decreased, decide_eq_false_iff_not] at hopen
    exact hopen hzero.symm

theorem Sound.closePosition {i : String} {pos : Position} (h : Sound m) (hok : m.closePosition i = .ok (pos, m')) :
    Sound m' := by
  obtain ⟨found, -, -, rfl⟩ := PortfolioManager.closePosition_ok hok
  exact PortfolioManager.drop_forall h

theorem getPositions_put {i : String} {pos : Position} (hfree : m.positions.get i = none) (hi : pos.instanceId = i) :
    (m.put i pos hi).getPositions = m.getPositions ++ [pos] := by
  rw [PortfolioManager.getPositions, PortfolioManager.put, Dict.entries_set_of_get_none pos hfree, List.map_append]
  rfl

/-- A portfolio with the positions of the account and a closed one or one of its own
at the instance of the order, so that the count of positions does not matter. -/
theorem exists_seated (hm : Sound m) (a i : String) : ∃ m0, Sound m0 ∧ Agree a m m0 ∧ getPosition m0 i ≠ none ∧
    ∀ field k prices, total field k prices m0.getPositions = ownTotal a field k prices m := by
  obtain ⟨b, hb⟩ := exists_fresh [a]
  cases hget : (ownPart a m).positions.get i with
  | some pos =>
      refine ⟨ownPart a m, sound_ownPart hm, agree_ownPart, ?_, fun field k prices => ?_⟩
      · rw [getPosition, hget]
        exact Option.some_ne_none pos
      · rw [getPositions_ownPart, ownTotal]
  | none =>
      let seat : Position := { instanceId := i, accountId := b, exchange := "", symbol := "", side := "long"
                               entryPrice := 1, quantity := 0, closed := true }
      have hsound : Sound ((ownPart a m).put i seat rfl) := (sound_ownPart hm).put _ (fun h => Bool.noConfusion h)
      refine ⟨(ownPart a m).put i seat rfl, hsound, agree_ownPart.put hget rfl (fun h => hb (List.mem_singleton.mpr h)), ?_, fun field k prices => ?_⟩
      · rw [getPosition, PortfolioManager.put_get, if_pos rfl]
        exact Option.some_ne_none seat
      · have hclosed : ¬ (seat.closed = false ∧ field seat = k) := fun h => Bool.noConfusion h.1
        rw [getPositions_put hget rfl, total_append, total_cons, if_neg hclosed, getPositions_ownPart, ownTotal,
          zero_add]
        exact add_zero (total field k prices _)

theorem exists_joined (hm : Sound m) (a i exchange symbol : String) {entryPrice quantity : ℚ}
    (hentry : 0 < entryPrice) (hquantity : 0 < quantity) :
    ∃ m1 pos, Sound m1 ∧ Agree a m m1 ∧ getPosition m1 i ≠ none ∧ pos.exchange = exchange ∧ pos.symbol = symbol ∧
      pos.entryPrice = entryPrice ∧ pos.quantity = quantity ∧
      ∀ field k prices, total field k prices m1.getPositions =
        ownTotal a field k prices m + if field pos = k then notional prices pos else 0 := by
  obtain ⟨m0, hsound, hagree, hseated, htotal⟩ := exists_seated hm a i
  obtain ⟨b, hb⟩ := exists_fresh [a]
  obtain ⟨j, hj⟩ := exists_fresh (m0.positions.entries.map Prod.fst)
  have hfree : m0.positions.get j = none := by
    refine Option.eq_none_iff_forall_ne_some.mpr (fun pos hget => hj ?_)
    exact List.mem_map_of_mem (f := Prod.fst) (Dict.mem_of_get hget)
  let pos : Position := { instanceId := j, accountId := b, exchange, symbol, side := "long", entryPrice, quantity }
  have hjoined : Sound (m0.put j pos rfl) := hsound.put _ (fun _ => ⟨hentry, hquantity⟩)
  refine ⟨m0.put j pos rfl, pos, hjoined,
    hagree.put hfree rfl (fun h => hb (List.mem_singleton.mpr h)), ?_, rfl, rfl, rfl, rfl, fun field k prices => ?_⟩
  · rw [getPosition, PortfolioManager.put_get]
    split
    · exact Option.some_ne_none pos
    · exact hseated
  · rw [getPositions_put hfree rfl, total_append, total_cons, htotal]
    simp [total, pos]

theorem exists_small {c : ℚ} (hc : c < 0) (x y : ℚ) : ∃ q, 0 < q ∧ x + c * q ≤ 0 ∧ y + c * q ≤ 0 := by
  have hpos : 0 < max 1 (max x y) := lt_max_of_lt_left one_pos
  refine ⟨max 1 (max x y) / -c, div_pos hpos (neg_pos.mpr hc), ?_⟩
  have hmul : c * (max 1 (max x y) / -c) = -max 1 (max x y) := by
    rw [mul_div_assoc', div_eq_iff (neg_ne_zero.mpr hc.ne), neg_mul_neg, mul_comm]
  rw [hmul]
  have hx : x ≤ max 1 (max x y) := le_max_of_le_right (le_max_left x y)
  have hy : y ≤ max 1 (max x y) := le_max_of_le_right (le_max_right x y)
  exact ⟨by linarith, by linarith⟩

/-- Where nothing of its own stands against an order, a portfolio allows it. -/
theorem exists_allowed (hm : Sound s.portfolio) (h : ¬ (OwnLimits s order ∨ OwnExposure s order)) :
    ∃ m, Sound m ∧ Agree order.accountId s.portfolio m ∧ allowed s m order = true := by
  obtain ⟨hlimits, hexposure⟩ := not_or.mp h
  let S := ownTotal order.accountId Position.symbol order.symbol (currentPrices s order) s.portfolio + order.notional -
    (getRiskParameters s order.userId).maxExposurePerSymbol
  let E := ownTotal order.accountId Position.exchange order.exchange (currentPrices s order) s.portfolio +
    order.notional - (getRiskParameters s order.userId).maxExposurePerExchange
  -- one more position of another account, at a negative price, makes room for the order
  have hjoin : ∀ symbol c, c < 0 → (currentPrices s order).get symbol = some c →
      (symbol = order.symbol ∨ S ≤ 0) → ∃ m, Sound m ∧ Agree order.accountId s.portfolio m ∧ allowed s m order = true := by
    intro symbol c hc hget hsymbol
    obtain ⟨q, hq, hS, hE⟩ := exists_small hc S E
    obtain ⟨m, pos, hsound, hagree, hseated, hexchange, rfl, -, rfl, htotal⟩ :=
      exists_joined hm order.accountId order.instanceId order.exchange symbol one_pos hq
    have hnotional : notional (currentPrices s order) pos = c * pos.quantity := by rw [notional, hget, Option.getD_some]
    refine ⟨m, hsound, hagree, allowed_iff.mpr ⟨hlimits, ?_, ?_, fun hnone => hseated hnone.1⟩⟩
    · rw [htotal, hnotional]
      split
      next => linarith
      next hne => linarith [hsymbol.resolve_left hne]
    · rw [htotal, hnotional, if_pos hexchange]
      linarith
  have hself : (currentPrices s order).get order.symbol = some order.price := Dict.get_set_self _ _ _
  rcases lt_or_ge order.price 0 with hprice | hprice
  · exact hjoin order.symbol order.price hprice hself (.inl rfl)
  have hS : S ≤ 0 := sub_nonpos.mpr (not_lt.mp (fun hlt => hexposure ⟨hprice, .inl hlt⟩))
  by_cases hprices : ∀ symbol price, symbol ≠ order.symbol → s.prices.get symbol = some price → 0 ≤ price
  · have hE : E ≤ 0 := sub_nonpos.mpr (not_lt.mp (fun hlt => hexposure ⟨hprice, .inr ⟨hprices, hlt⟩⟩))
    obtain ⟨m, hsound, hagree, hseated, htotal⟩ := exists_seated hm order.accountId order.instanceId
    refine ⟨m, hsound, hagree, allowed_iff.mpr ⟨hlimits, ?_, ?_, fun hnone => hseated hnone.1⟩⟩
    · rw [htotal]
      linarith
    · rw [htotal]
      linarith
  · push Not at hprices
    obtain ⟨symbol, price, hne, hget, hneg⟩ := hprices
    exact hjoin symbol price hneg ((Dict.get_set_of_ne _ _ _ hne).trans hget) (.inr hS)

/-- Some portfolio denies any order. -/
theorem exists_denied (hm : Sound s.portfolio) (order : Order) :
    ∃ m, Sound m ∧ Agree order.accountId s.portfolio m ∧ allowed s m order = false := by
  obtain ⟨symbol, hsymbol⟩ := exists_fresh (order.symbol :: s.prices.entries.map Prod.fst)
  let E := (getRiskParameters s order.userId).maxExposurePerExchange - order.notional -
    ownTotal order.accountId Position.exchange order.exchange (currentPrices s order) s.portfolio
  have hq : 0 < max 0 E + 1 := lt_add_of_le_of_pos (le_max_left 0 E) one_pos
  obtain ⟨m, pos, hsound, hagree, -, hexchange, rfl, hentry, hquantity, htotal⟩ :=
    exists_joined hm order.accountId order.instanceId order.exchange symbol one_pos hq
  refine ⟨m, hsound, hagree, Bool.eq_false_iff.mpr (fun hallowed => ?_)⟩
  have hle := (allowed_iff.mp hallowed).2.2.1
  have hnone : (currentPrices s order).get pos.symbol = none := by
    rw [List.mem_cons, not_or] at hsymbol
    rw [currentPrices, Dict.get_set_of_ne _ _ _ hsymbol.1]
    refine Option.eq_none_iff_forall_ne_some.mpr (fun price hget => hsymbol.2 ?_)
    exact List.mem_map_of_mem (f := Prod.fst) (Dict.mem_of_get hget)
  rw [htotal, if_pos hexchange, notional, hnone, Option.getD_none, hentry, hquantity, one_mul] at hle
  have hmax := le_max_right 0 E
  linarith

/-- The decision for an order on an account depends on what others hold unless the
order is too large, its instance has too much capital, or the account alone exceeds a limit. -/
theorem ownOnly_iff (hm : Sound s.portfolio) : OwnOnly s order ↔ OwnLimits s order ∨ OwnExposure s order := by
  constructor
  · intro hown
    by_contra hnot
    obtain ⟨m, hsound, hagree, hallowed⟩ := exists_allowed hm hnot
    obtain ⟨m', hsound', hagree', hdenied⟩ := exists_denied hm order
    have heq := (hown m hsound hagree).trans (hown m' hsound' hagree').symm
    rw [hallowed, hdenied] at heq
    cases heq
  · intro h m hsound hagree
    rw [denied_of_own h hsound hagree, denied_of_own h hm (agree_refl _ _)]

def smallOrder : Order :=
  { instanceId := "inst-a", accountId := "acc-a", exchange := "binance", symbol := "BTCUSDT", side := "buy"
    quantity := 1 / 100, price := 50000 }

theorem ownOnly_smallOrder : OwnOnly {} smallOrder ↔ OwnLimits {} smallOrder ∨ OwnExposure {} smallOrder :=
  ownOnly_iff sound_empty

def foreignPosition : Position :=
  { instanceId := "inst-b", accountId := "acc-b", exchange := "binance", symbol := "BTCUSDT", side := "long"
    entryPrice := 50000, quantity := 2 }

/-- Another account has used up the exposure to the symbol. -/
def shared : PortfolioManager := PortfolioManager.put {} "inst-b" foreignPosition rfl

theorem foreign_position_denies : ¬ ∀ (s : RiskManager) (order : Order), Sound s.portfolio → OwnOnly s order := by
  intro h
  have hshared : Sound shared := sound_empty.put _ (fun _ => by decide +kernel)
  have hagree : Agree "acc-a" {} shared := (agree_refl "acc-a" {}).put rfl _ (by decide)
  have hsame := h {} smallOrder sound_empty shared hshared hagree
  revert hsame
  decide +kernel

end Utos.Risk.PerUser

namespace Utos.Risk.Reducing

open Core Recovery.Portfolio Manager PerUser

/-- The order takes from the open position of its instance, and no more than it holds. -/
def Reduces (m : PortfolioManager) (order : Order) : Prop :=
  ∃ pos, m.positions.get order.instanceId = some pos ∧ pos.closed = false ∧
    order.symbol = pos.symbol ∧ order.exchange = pos.exchange ∧
    (pos.side = "long" ∧ order.side = "sell" ∨ pos.side = "short" ∧ order.side = "buy") ∧
    0 < order.quantity ∧ order.quantity ≤ pos.quantity

/-- How the texts begin with which the rules on the symbol, on the exchange and on the
number of open positions deny an order. -/
def exposureTexts : List String := ["Symbol ", "Exchange ", "Open positions "]

def opensWith (start : String) (reason : Option String) : Bool :=
  reason.any (fun text => start.toList.isPrefixOf text.toList)

/-- The order is denied by one of these three rules. -/
def BlockedByExposure (result : RiskCheckResult) : Prop :=
  result.allowed = false ∧ ∃ start ∈ exposureTexts, opensWith start result.reason = true

variable {s : RiskManager} {order : Order}

theorem opensWith_append {start head : String} (rest : String) (hle : start.toList.length ≤ head.toList.length) :
    opensWith start (some (head ++ rest)) = start.toList.isPrefixOf head.toList := by
  rw [Bool.eq_iff_iff, opensWith, Option.any_some, String.toList_append, List.isPrefixOf_iff_prefix,
    List.isPrefixOf_iff_prefix]
  constructor
  · exact fun h => List.prefix_of_prefix_length_le h (List.prefix_append _ _) hle
  · exact fun h => h.trans (List.prefix_append _ _)

theorem ownTexts : ∀ start ∈ exposureTexts, ∀ head ∈ ["Order notional ", "Instance capital "],
    start.toList.length ≤ head.toList.length ∧ start.toList.isPrefixOf head.toList = false := by decide

/-- The first two rules deny with texts of their own. -/
theorem not_blocked_of_own (h : OwnLimits s order) : ¬ BlockedByExposure (ruling s order) := by
  have htext : ∃ head ∈ ["Order notional ", "Instance capital "], ∃ rest,
      (ruling s order).reason = some (head ++ rest) := by
    unfold ruling
    by_cases hsize : (getRiskParameters s order.userId).maxPositionSize < order.notional
    · rw [if_pos hsize]
      simp only [denied, String.append_assoc]
      exact ⟨_, List.mem_cons_self, _, rfl⟩
    · rw [if_neg hsize, if_pos (h.resolve_left hsize)]
      simp only [denied, String.append_assoc]
      exact ⟨_, List.mem_cons_of_mem _ List.mem_cons_self, _, rfl⟩
  obtain ⟨head, hhead, rest, hreason⟩ := htext
  rintro ⟨-, start, hstart, hopens⟩
  obtain ⟨hle, hprefix⟩ := ownTexts start hstart head hhead
  rw [hreason, opensWith_append rest hle, hprefix] at hopens
  cases hopens

theorem blocked_denied {start : String} (rest : String) (x y : ℚ) (h : start ∈ exposureTexts) :
    BlockedByExposure (denied (start ++ rest) x y) := by
  refine ⟨rfl, start, h, ?_⟩
  rw [denied, opensWith_append rest le_rfl, List.isPrefixOf_iff_prefix]

/-- Whatever else is denied is denied by the other three. -/
theorem blocked_of_not_own (h : ¬ OwnLimits s order) (hdenied : (ruling s order).allowed = false) :
    BlockedByExposure (ruling s order) := by
  obtain ⟨hsize, hcapital⟩ := not_or.mp h
  unfold ruling at hdenied ⊢
  simp only [if_neg hsize, if_neg hcapital, String.append_assoc] at hdenied ⊢
  split
  next => exact blocked_denied _ _ _ List.mem_cons_self
  next hsymbol =>
    rw [if_neg hsymbol] at hdenied
    split
    next => exact blocked_denied _ _ _ (List.mem_cons_of_mem _ List.mem_cons_self)
    next hexchange =>
      rw [if_neg hexchange] at hdenied
      split
      next => exact blocked_denied _ _ _ (List.mem_cons_of_mem _ (List.mem_cons_of_mem _ List.mem_cons_self))
      next hcount =>
        rw [if_neg hcount] at hdenied
        cases hdenied

/-- A reducing order gets past the three rules exactly when its notional, added to
what is open, stays within both limits, or one of the other two rules denies it first. -/
theorem unblocked_iff (h : Reduces s.portfolio order) : ¬ BlockedByExposure (checkOrderRisk s order).1 ↔
    OwnLimits s order ∨
      total Position.symbol order.symbol (currentPrices s order) s.portfolio.getPositions + order.notional ≤
          (getRiskParameters s order.userId).maxExposurePerSymbol ∧
        total Position.exchange order.exchange (currentPrices s order) s.portfolio.getPositions + order.notional ≤
          (getRiskParameters s order.userId).maxExposurePerExchange := by
  obtain ⟨pos, hget, -⟩ := h
  have hheld : ¬ (getPosition s.portfolio order.instanceId = none ∧
      (getRiskParameters s order.userId).maxOpenPositions ≤ getOpenPositionCount s.portfolio) := by
    rintro ⟨hnone, -⟩
    cases hget.symm.trans hnone
  have hallowed := @allowed_iff s order s.portfolio
  by_cases hown : OwnLimits s order
  · exact iff_of_true (not_blocked_of_own hown) (.inl hown)
  · have hblocked : BlockedByExposure (ruling s order) ↔ ¬ allowed s s.portfolio order = true := by
      constructor
      · exact fun hb => by simpa [allowed, checkOrderRisk] using hb.1
      · exact fun hb => blocked_of_not_own hown (by simpa [allowed, checkOrderRisk] using hb)
    rw [show (checkOrderRisk s order).1 = ruling s order from rfl, hblocked, not_not, hallowed]
    simp only [hown, not_false_eq_true, true_and, false_or, hheld, and_true]

def held : Position :=
  { instanceId := "inst", accountId := "acc", exchange := "binance", symbol := "BTCUSDT", side := "long"
    entryPrice := 45000, quantity := 2 }

/-- The manager of a portfolio with one position, under the default limits. -/
def holding : RiskManager := { portfolio := PortfolioManager.put .empty "inst" held rfl }

def exit (quantity : ℚ) : Order :=
  { instanceId := "inst", accountId := "acc", exchange := "binance", symbol := "BTCUSDT", side := "sell"
    quantity, price := 45000 }

theorem reduces_exit {quantity : ℚ} (hpos : 0 < quantity) (hle : quantity ≤ 2) :
    Reduces holding.portfolio (exit quantity) :=
  ⟨held, rfl, rfl, rfl, rfl, .inl ⟨rfl, rfl⟩, hpos, hle⟩

theorem unblocked_exit : ¬ BlockedByExposure (checkOrderRisk holding (exit (1 / 10))).1 :=
  (unblocked_iff (reduces_exit (by decide +kernel) (by decide +kernel))).mpr (.inr (by decide +kernel))

/-- Selling half a bitcoin of two is denied for what the sale would add to them. -/
theorem exit_blocked : ¬ ∀ (s : RiskManager) (order : Order), Reduces s.portfolio order →
    ¬ BlockedByExposure (checkOrderRisk s order).1 := by
  intro h
  refine h holding (exit (1 / 2)) (reduces_exit (by decide +kernel) (by decide +kernel)) ?_
  exact ⟨by decide +kernel, "Symbol ", List.mem_cons_self, by decide +kernel⟩

end Utos.Risk.Reducing
