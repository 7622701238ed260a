import Utos.Execution.Liveness
import Utos.Grid.PlanStable
import Utos.Grid.CallTerms

namespace Utos.Grid.ForceAtomic

open Coroutine Program Core.DomainTypes Core.Exceptions Execution.Models Execution.Service Execution.Exchange
open Execution.Validator State CircuitBreaker Engine Trading Invariant

/-- What place_order answers to a request, and whether a live order comes of it. -/
def placed (oracle : Oracle) (request : OrderRequest) : Except Exn OrderResult :=
  match validate request with
  | .error e => .error e
  | .ok _ => (oracle.place request).answer

def MakesLive (oracle : Oracle) (request : OrderRequest) : Prop :=
  validate request = .ok () ∧ true ∈ (oracle.place request).orders

/-- The old order is not live, or the exchange ends it when it is asked to cancel it. -/
def Ended (oracle : Oracle) (d : Desk Owner) (acct : Option UUID) (orderId : OrderId) : Prop :=
  orderId ≠ none → ∀ ref, d.index (acct, orderId) = some ref → d.IsLive ref → (oracle.cancel ref).effect ≠ .unchanged

def orderIdOf (side : OrderSide) (lv : GridLevel) : OrderId :=
  match side with
  | .buy => lv.buyOrderId
  | .sell => lv.sellOrderId

/-- No level names an id that the exchange hands out for a new request. -/
def FreshIds (oracle : Oracle) (d : Desk Owner) (g : GridState) : Prop :=
  ∀ request : OrderRequest, d.asked.length ≤ request.requestId → ∀ lv ∈ g.levels, ∀ side, orderIdOf side lv ≠ none →
    (oracle.place request).registered ≠ some (orderIdOf side lv)

/-- The order that the level had is not live, and the level names the new one. -/
structure Replaced (i : String) (side : OrderSide) (n : Nat) (orderId : OrderId) (s : Floor) (s' : GridEngine)
    (d' : Desk Owner) : Prop where
  old : ∀ g lv ref, s.engine.grids i = some g → findLevel n g.levels = some lv → orderIdOf side lv ≠ none →
    s.desk.index (g.exchangeAccountId, orderIdOf side lv) = some ref → ¬ d'.IsLive ref
  new : (s'.grids.getLevel i n).map (orderIdOf side) = some orderId

/-- A placement that may be followed by an exception: it makes no live order, and answers the id that the level has. -/
def Idle (oracle : Oracle) (side : OrderSide) (lv : GridLevel) (request : OrderRequest) : Prop :=
  ¬ MakesLive oracle request ∧ ∀ result, placed oracle request = .ok result → result.orderId = orderIdOf side lv

/-- What the cancels of some ids and a number of placements have left of the desk;
made says whether one of these has made a live order. -/
structure Left (oracle : Oracle) (d : Desk Owner) (acct : Option UUID) (named cancelled : List OrderId) (count : Nat)
    (made : Prop) (d' : Desk Owner) : Prop where
  asked : d'.asked.length = d.asked.length + count
  length : d.orders.length ≤ d'.orders.length
  index : ∀ id ∈ named, id ≠ none → d'.index (acct, id) = d.index (acct, id)
  old : ∀ ref, ref < d.orders.length → (d'.IsLive ref ↔ d.IsLive ref ∧
    ∀ id ∈ cancelled, id ≠ none → d.index (acct, id) = some ref → (oracle.cancel ref).effect = .unchanged)
  new : (∃ ref, d.orders.length ≤ ref ∧ d'.IsLive ref) ↔ made

section

variable {oracle : Oracle} {d d' : Desk Owner} {acct : Option UUID} {named cancelled : List OrderId} {count : Nat}
variable {made : Prop} {orderId : OrderId} {request : UUID → OrderRequest} {owner : Owner} {s : GridEngine}

theorem Left.refl (oracle : Oracle) (d : Desk Owner) (acct : Option UUID) (named : List OrderId) :
    Left oracle d acct named [] 0 False d where
  asked := rfl
  length := le_rfl
  index _ _ _ := rfl
  old _ _ := by simp
  new := ⟨fun ⟨_, hr, hl⟩ => Nat.not_lt.mpr hr hl.lt, False.elim⟩

/-- The world after the cancel of an order that is replaced. -/
def afterCancel (oracle : Oracle) (acct : Option UUID) (orderId : OrderId) (d : Desk Owner) : Desk Owner :=
  if orderId = none then d else d.settleById oracle (acct, orderId)

theorem Left.cancel (h : Left oracle d acct named cancelled count made d') (hd : d.Indexed) (hmem : orderId ∈ named) :
    Left oracle d acct named (orderId :: cancelled) count made (afterCancel oracle acct orderId d') := by
  rw [afterCancel]
  by_cases hid : orderId = none
  · rw [if_pos hid]
    refine ⟨h.asked, h.length, h.index, fun ref href => (h.old ref href).trans (and_congr_right (fun _ => ?_)), h.new⟩
    simp only [List.mem_cons, forall_eq_or_imp, hid, ne_eq, not_true_eq_false, false_implies, true_and]
  · rw [if_neg hid]
    have hkey := h.index orderId hmem hid
    refine ⟨?_, ?_, fun id hmem hid => ?_, fun ref href => ?_, ?_⟩
    · rw [← h.asked, Desk.settleById]
      split <;> simp
    · rw [Desk.settleById_length]
      exact h.length
    · rw [Desk.settleById_index]
      exact h.index id hmem hid
    · rw [isLive_settleById, h.old ref href, hkey, List.forall_mem_cons, and_assoc]
      refine and_congr_right (fun _ => ?_)
      constructor
      · rintro ⟨hrest, hfirst⟩
        exact ⟨fun _ => hfirst, hrest⟩
      · rintro ⟨hfirst, hrest⟩
        exact ⟨hrest, hfirst hid⟩
    · rw [← h.new]
      refine exists_congr (fun ref => and_congr_right (fun href => ?_))
      rw [isLive_settleById, hkey]
      exact and_iff_left (fun hindex => absurd (hd _ ref hindex) (Nat.not_lt.mpr href))

/-- The world after a placement. -/
def afterPlace (oracle : Oracle) (owner : Owner) (request : OrderRequest) (d : Desk Owner) : Desk Owner :=
  match validate request with
  | .error _ => { d with asked := owner :: d.asked }
  | .ok _ => Desk.accept { d with asked := owner :: d.asked } owner request (oracle.place request)

theorem wp_placeOrder {R : Except Exn OrderResult → GridEngine → World Owner → Prop} :
    wp handler (placeOrder owner request) R s ⟨d, oracle⟩ ↔
      R (placed oracle (request d.asked.length)) s ⟨afterPlace oracle owner (request d.asked.length) d, oracle⟩ := by
  rw [placeOrder, wp_await, placed, afterPlace]
  simp only [handler]
  cases validate (request d.asked.length) <;> rfl

theorem Left.place (h : Left oracle d acct named cancelled count made d') (r : OrderRequest)
    (hfresh : ∀ id ∈ named, id ≠ none → (oracle.place r).registered ≠ some id) :
    Left oracle d acct named cancelled (count + 1) (made ∨ MakesLive oracle r) (afterPlace oracle owner r d') := by
  have hasked : Left oracle d acct named cancelled (count + 1) made { d' with asked := owner :: d'.asked } := by
    refine ⟨?_, h.length, h.index, h.old, h.new⟩
    rw [List.length_cons, h.asked, Nat.add_assoc]
  rw [afterPlace, MakesLive]
  cases hvalid : validate r with
  | error e => simpa using hasked
  | ok u =>
      have hlength : ({ d' with asked := owner :: d'.asked } : Desk Owner).orders.length = d'.orders.length := rfl
      refine ⟨hasked.asked, ?_, fun id hmem hid => ?_, fun ref href => ?_, ?_⟩
      · simp only [Desk.accept, List.length_append]
        exact h.length.trans (Nat.le_add_right _ _)
      · rw [← h.index id hmem hid]
        refine accept_index_of_ne (fun orderId hreg hkey => hfresh id hmem hid ?_)
        rw [hreg, (Prod.mk.inj hkey).2]
      · rw [isLive_accept, ← h.old ref href]
        exact or_iff_left (fun hnew => Nat.not_lt.mpr (h.length.trans hnew.1) href)
      · rw [← h.new]
        simp only [isLive_accept]
        constructor
        · rintro ⟨ref, href, hl | ⟨-, hl⟩⟩
          · exact .inl ⟨ref, href, hl⟩
          · exact .inr ⟨trivial, List.mem_of_getElem? hl⟩
        · rintro (⟨ref, href, hl⟩ | ⟨-, hmem⟩)
          · exact ⟨ref, href, .inl hl⟩
          · obtain ⟨n, hn⟩ := List.mem_iff_getElem?.mp hmem
            refine ⟨d'.orders.length + n, h.length.trans (Nat.le_add_right _ _), .inr ⟨Nat.le_add_right _ _, ?_⟩⟩
            rw [hlength, Nat.add_sub_cancel_left]
            exact hn

end

/-- The levels with the new order ids of some of them, the latest first. -/
def renamed (side : OrderSide) (levels : List GridLevel) : List (GridLevel × OrderId) → List GridLevel
  | [] => levels
  | p :: done => modifyLevel p.1.level (setOrderId side p.2) (renamed side levels done)

section

variable {side : OrderSide} {levels : List GridLevel} {done : List (GridLevel × OrderId)} {n : Nat}

/-- The levels done are different levels of the grid. -/
structure Distinct (levels : List GridLevel) (done : List (GridLevel × OrderId)) : Prop where
  found : ∀ p ∈ done, findLevel p.1.level levels = some p.1
  nodup : (done.map (fun p => p.1.level)).Nodup

theorem Distinct.tail {p : GridLevel × OrderId} (h : Distinct levels (p :: done)) : Distinct levels done :=
  ⟨fun q hq => h.found q (List.mem_cons_of_mem p hq), (List.nodup_cons.mp h.nodup).2⟩

end

section

variable {evaluate : Evaluate} {i : String} {s : Floor} {g : GridState} {oracle : Oracle} {s' : GridEngine}
variable {d' : Desk Owner} {named cancelled : List OrderId} {count : Nat} {made : Prop}

/-- The state in which some levels have got new order ids. -/
structure Forced (i : String) (s : Floor) (g : GridState) (oracle : Oracle) (side : OrderSide)
    (done : List (GridLevel × OrderId)) (cancelled : List OrderId) (count : Nat) (made : Prop) (s' : GridEngine)
    (d' : Desk Owner) : Prop where
  grids : s'.grids = s.engine.grids.put i { g with levels := renamed side g.levels done }
  distinct : Distinct g.levels done
  left : Left oracle s.desk g.exchangeAccountId (g.levels.map (orderIdOf side)) cancelled count made d'

variable {side : OrderSide} {done : List (GridLevel × OrderId)}

theorem Forced.getLevel (h : Forced i s g oracle side done cancelled count made s' d') (n : Nat) :
    s'.grids.getLevel i n = findLevel n (renamed side g.levels done) := by
  rw [h.grids, State.Store.getLevel_put, if_pos rfl]

theorem Forced.swap (h : Forced i s g oracle side done cancelled count made s' d') (hd : s.desk.Indexed)
    (hfresh : FreshIds oracle s.desk g) {lv : GridLevel} (hlv : lv ∈ g.levels) (owner : Owner) {r : OrderRequest}
    (hr : s.desk.asked.length ≤ r.requestId) :
    Forced i s g oracle side done (orderIdOf side lv :: cancelled) (count + 1) (made ∨ MakesLive oracle r) s'
      (afterPlace oracle owner r (afterCancel oracle g.exchangeAccountId (orderIdOf side lv) d')) := by
  refine ⟨h.grids, h.distinct, (h.left.cancel hd (List.mem_map_of_mem hlv)).place r (fun id hmem hid => ?_)⟩
  obtain ⟨lv', hlv', rfl⟩ := List.mem_map.mp hmem
  exact hfresh r hr lv' hlv' side hid

end

/-- An exchange that hands out one new id, and refuses the requests behind it. -/
def once (requestId : UUID) : Oracle where
  place request := if request.requestId = requestId then accepted "new" else
    { orders := [], registered := none
      answer := .error (.exchange .orderExecutionError "insufficient balance" "binance" none) }
  cancel _ := cancelSucceeds

/-- Both levels have filled, under locks that watch the price. -/
def filled : Floor := (Floor.start true).runEvents (fun _ _ _ => true)
  (.call (.configureTrailingProfit "grid" { triggerPercentage := 5, trailPercentage := 2 }) willing :: activated ++
    [.call (.onBuyFilled "grid" 0 100 (11 / 5)) willing, .call (.onBuyFilled "grid" 1 110 2) willing])

end Utos.Grid.ForceAtomic
