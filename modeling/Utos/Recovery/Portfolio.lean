import Mathlib.Algebra.Order.Field.Rat
import Utos.Core.Dict
import Utos.Core.Exceptions

namespace Utos.Recovery.Portfolio

open Core Core.Exceptions

/-- Position without its two timestamps. -/
structure Position where
  instanceId : String
  accountId : String
  exchange : String
  symbol : String
  side : String
  entryPrice : ℚ
  quantity : ℚ
  realizedPnl : ℚ := 0
  closed : Bool := false
  deriving DecidableEq, Repr

/-- The positions, each under its own instance id, and those that were closed. -/
structure PortfolioManager where
  positions : Dict String Position := ∅
  closedPositions : List Position := []
  keyed : ∀ i position, positions.get i = some position → position.instanceId = i := by simp

theorem keyed_empty (i : String) (position : Position) (h : (∅ : Dict String Position).get i = some position) :
    position.instanceId = i := by simp at h

/-- PortfolioManager() -/
def PortfolioManager.empty : PortfolioManager := { keyed := keyed_empty }

def portfolioError (message : String) : Exn := .other "PortfolioError" message

namespace PortfolioManager

variable (m : PortfolioManager)

/-- The manager with the position of an instance replaced, or entered. -/
def put (i : String) (position : Position) (h : position.instanceId = i) : PortfolioManager where
  positions := m.positions.set i position
  closedPositions := m.closedPositions
  keyed j other hother := by
    rw [Dict.get_set] at hother
    split at hother
    next hj =>
      cases hother
      exact h.trans hj.symm
    next => exact m.keyed j other hother

/-- The manager without the position of an instance, which is kept among the closed ones. -/
def drop (i : String) (closed : List Position) : PortfolioManager where
  positions := m.positions.pop i
  closedPositions := m.closedPositions ++ closed
  keyed j other hother := by
    rw [Dict.get_pop] at hother
    split at hother
    next => cases hother
    next => exact m.keyed j other hother

structure RegisterArgs where
  instanceId : String
  accountId : String
  exchange : String
  symbol : String
  side : String
  entryPrice : ℚ
  quantity : ℚ

def RegisterArgs.position (args : RegisterArgs) : Position :=
  { instanceId := args.instanceId, accountId := args.accountId, exchange := args.exchange, symbol := args.symbol
    side := args.side, entryPrice := args.entryPrice, quantity := args.quantity }

def registerPosition (args : RegisterArgs) : Except Exn (Position × PortfolioManager) :=
  if (m.positions.get args.instanceId).isSome then
    .error (portfolioError s!"Position already exists for instance {args.instanceId}")
  else if args.side ∉ ["long", "short"] then
    .error (.validationError s!"side must be 'long' or 'short', got '{args.side}'")
  else if args.entryPrice ≤ 0 then .error (.validationError s!"entry_price must be > 0, got {args.entryPrice}")
  else if args.quantity ≤ 0 then .error (.validationError s!"quantity must be > 0, got {args.quantity}")
  else .ok (args.position, m.put args.instanceId args.position rfl)

/-- Whether a fill adds to the position. -/
def isOpening (position : Position) (side : String) : Bool :=
  (position.side = "long" && side = "buy") || (position.side = "short" && side = "sell")

def increased (position : Position) (fillPrice fillQuantity : ℚ) : Position :=
  { position with
    entryPrice := (position.entryPrice * position.quantity + fillPrice * fillQuantity) /
      (position.quantity + fillQuantity)
    quantity := position.quantity + fillQuantity }

def fillPnl (position : Position) (fillPrice fillQuantity : ℚ) : ℚ :=
  if position.side = "long" then (fillPrice - position.entryPrice) * fillQuantity
  else (position.entryPrice - fillPrice) * fillQuantity

def decreased (position : Position) (fillPrice fillQuantity : ℚ) : Position :=
  { position with
    realizedPnl := position.realizedPnl + fillPnl position fillPrice fillQuantity
    quantity := position.quantity - fillQuantity
    closed := position.quantity - fillQuantity = 0 }

def updatePosition (i : String) (fillPrice fillQuantity : ℚ) (side : String) :
    Except Exn (Position × PortfolioManager) :=
  match h : m.positions.get i with
  | none => .error (portfolioError s!"Position not found for instance {i}")
  | some position =>
      if position.closed then .error (portfolioError s!"Position already closed for instance {i}")
      else if isOpening position side then
        if position.quantity + fillQuantity = 0 then .error (.other "DivisionByZero" "[<class 'decimal.DivisionByZero'>]")
        else .ok (increased position fillPrice fillQuantity,
          m.put i (increased position fillPrice fillQuantity) (m.keyed i position h))
      else if position.quantity < fillQuantity then
        .error (portfolioError
          s!"Fill quantity {fillQuantity} exceeds position quantity {position.quantity}")
      else .ok (decreased position fillPrice fillQuantity,
        m.put i (decreased position fillPrice fillQuantity) (m.keyed i position h))

def closePosition (i : String) : Except Exn (Position × PortfolioManager) :=
  match m.positions.get i with
  | none => .error (portfolioError s!"Position not found for instance {i}")
  | some position => .ok ({ position with closed := true }, m.drop i [{ position with closed := true }])

/-- get_positions() without a filter. -/
def getPositions : List Position := m.positions.entries.map Prod.snd

@[simp] theorem put_get (i : String) (position : Position) (h : position.instanceId = i) (j : String) :
    (m.put i position h).positions.get j = if j = i then some position else m.positions.get j :=
  Dict.get_set _ _ _ _

@[simp] theorem drop_get (i : String) (closed : List Position) (j : String) :
    (m.drop i closed).positions.get j = if j = i then none else m.positions.get j :=
  Dict.get_pop _ _ _

theorem mem_getPositions {position : Position} :
    position ∈ m.getPositions ↔ m.positions.get position.instanceId = some position := by
  constructor
  · intro h
    obtain ⟨⟨i, _⟩, hmem, rfl⟩ := List.mem_map.mp h
    have hget := Dict.get_of_mem hmem
    rw [m.keyed i _ hget]
    exact hget
  · exact fun h => List.mem_map_of_mem (f := Prod.snd) (Dict.mem_of_get h)

/-- The positions of the other instances. -/
def others (i : String) : List Position := (m.positions.pop i).entries.map Prod.snd

variable {m} {m' : PortfolioManager} {i : String} {position : Position}

theorem perm_others (h : m.positions.get i = some position) : m.getPositions.Perm (position :: m.others i) :=
  (Dict.perm_of_get h).map Prod.snd

theorem others_of_get_none (h : m.positions.get i = none) : m.others i = m.getPositions :=
  congrArg (List.map Prod.snd) (Dict.entries_pop_of_get_none h)

theorem put_perm (h : position.instanceId = i) : (m.put i position h).getPositions.Perm (position :: m.others i) :=
  (Dict.perm_set m.positions i position).map Prod.snd

theorem put_forall {P : String → Position → Prop} (h : position.instanceId = i)
    (hall : ∀ j other, m.positions.get j = some other → P j other) (hnew : P i position) :
    ∀ j other, (m.put i position h).positions.get j = some other → P j other := by
  intro j other hother
  rw [put_get] at hother
  split at hother
  next hj =>
    cases hother
    rwa [hj]
  next => exact hall j other hother

theorem drop_forall {P : String → Position → Prop} {closed : List Position}
    (hall : ∀ j other, m.positions.get j = some other → P j other) :
    ∀ j other, (m.drop i closed).positions.get j = some other → P j other := by
  intro j other hother
  rw [drop_get] at hother
  split at hother
  next => cases hother
  next => exact hall j other hother

@[simp] theorem put_registered_get (m : PortfolioManager) (args : RegisterArgs) (j : String) :
    (m.put args.instanceId args.position rfl).positions.get j =
      if j = args.instanceId then some args.position else m.positions.get j := Dict.get_set _ _ _ _

theorem registerPosition_ok {args : RegisterArgs} (h : m.registerPosition args = .ok (position, m')) :
    m.positions.get args.instanceId = none ∧ (args.side = "long" ∨ args.side = "short") ∧ 0 < args.entryPrice ∧
      0 < args.quantity ∧ position = args.position ∧ m' = m.put args.instanceId args.position rfl := by
  unfold registerPosition at h
  split at h
  next => cases h
  next hfree =>
    split at h
    next => cases h
    next hside =>
      split at h
      next => cases h
      next hprice =>
        split at h
        next => cases h
        next hquantity =>
          cases h
          refine ⟨by simpa using hfree, ?_, not_le.mp hprice, not_le.mp hquantity, rfl, rfl⟩
          simpa only [List.mem_cons, List.not_mem_nil, or_false, not_not] using hside

theorem registerPosition_free {args : RegisterArgs} (hfree : m.positions.get args.instanceId = none)
    (hside : args.side = "long" ∨ args.side = "short") (hprice : 0 < args.entryPrice) (hquantity : 0 < args.quantity) :
    m.registerPosition args = .ok (args.position, m.put args.instanceId args.position rfl) := by
  have hlisted : args.side ∈ ["long", "short"] := by simpa using hside
  rw [registerPosition, hfree, if_neg (by simp), if_neg (not_not.mpr hlisted), if_neg (not_le.mpr hprice),
    if_neg (not_le.mpr hquantity)]

theorem updatePosition_ok {fillPrice fillQuantity : ℚ} {side : String}
    (h : m.updatePosition i fillPrice fillQuantity side = .ok (position, m')) :
    ∃ found hkey, m.positions.get i = some found ∧ found.closed = false ∧ m' = m.put i position hkey ∧
      (isOpening found side = true ∧ found.quantity + fillQuantity ≠ 0 ∧ position = increased found fillPrice fillQuantity ∨
        isOpening found side = false ∧ fillQuantity ≤ found.quantity ∧ position = decreased found fillPrice fillQuantity) := by
  unfold updatePosition at h
  split at h
  next => cases h
  next found hget =>
    have hkey := m.keyed _ _ hget
    split at h
    next => cases h
    next hopen =>
      split at h
      next hopening =>
        split at h
        next => cases h
        next hne =>
          cases h
          exact ⟨found, hkey, hget, by simpa using hopen, rfl, .inl ⟨hopening, hne, rfl⟩⟩
      next hclosing =>
        split at h
        next => cases h
        next hle =>
          cases h
          exact ⟨found, hkey, hget, by simpa using hopen, rfl, .inr ⟨by simpa using hclosing, not_lt.mp hle, rfl⟩⟩

theorem closePosition_error {e : Exn} (h : m.closePosition i = .error e) : m.positions.get i = none := by
  unfold closePosition at h
  split at h
  next hget => exact hget
  next => cases h

theorem closePosition_ok (h : m.closePosition i = .ok (position, m')) :
    ∃ found, m.positions.get i = some found ∧ position = { found with closed := true } ∧ m' = m.drop i [position] := by
  unfold closePosition at h
  split at h
  next => cases h
  next found hget =>
    cases h
    exact ⟨found, hget, rfl, rfl⟩

end PortfolioManager

end Utos.Recovery.Portfolio
