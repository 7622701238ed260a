import Utos.Grid.Invariant
import Utos.Coroutine.Interference

namespace Utos.Grid.Terms

open Coroutine Program Core.DomainTypes Core.Exceptions Execution.Models Execution.Service State
open CircuitBreaker Planner Calculator Engine Invariant
open ProfitLock.State (ProfitLockState ProfitLockStatus)

/-- What a call may still ask of ExecutionEngine: the quantity it may still
offer for sale on behalf of each owner, the orders it cancels before it sells,
whether it may cancel and whether it may buy. Nothing is cancelled any more
once a buy has been placed. -/
structure Quota where
  sells : Owner → ℚ
  replaces : LevelKey → Option (Option UUID × OrderId) := fun _ => none
  mayCancel : Bool := true
  mayBuy : Bool := true

namespace Quota

def spend (o : Quota) : ExecReq Owner → Quota
  | .placeOrder owner request => match (request 0).side with
    | .buy => { o with mayCancel := false }
    | .sell => { o with sells := Function.update o.sells owner (o.sells owner - max (request 0).quantity 0) }
  | .cancelOrder exchangeAccountId orderId => { o with
      replaces := fun k => if o.replaces k = some (exchangeAccountId, orderId) then none else o.replaces k }

def Allows (o : Quota) : ExecReq Owner → Prop
  | .placeOrder owner request => (∀ id, request id = { request 0 with requestId := id }) ∧
      match (request 0).side with
      | .buy => o.mayBuy = true ∧ ∃ k, owner = .level k
      | .sell => (request 0).quantity ≤ o.sells owner ∧ o.replaces owner.key = none
  | .cancelOrder _ _ => o.mayCancel = true

end Quota

/-- The terms of a call that runs alone; the locks of K ask for no order. -/
def terms (K : Set LevelKey) : Protocol GridEngine (ExecReq Owner) (ExecAns Owner) Quota where
  inv := Sound K
  guar _ _ _ := True
  rely _ s s' := s' = s
  asks o _ q := o.Allows q ∧ ∀ k ∈ K, ∀ request, q ≠ .placeOrder (.lock k) request
  spend := Quota.spend

variable {K : Set LevelKey} {α : Type} {o : Quota} {s : GridEngine}

@[simp] theorem terms_inv : (terms K).inv = Sound K := rfl

@[simp] theorem terms_guar (o : Quota) (s s' : GridEngine) : (terms K).guar o s s' ↔ True := Iff.rfl

@[simp] theorem terms_rely (o : Quota) (s s' : GridEngine) : (terms K).rely o s s' ↔ s' = s := Iff.rfl

@[simp] theorem terms_asks (o : Quota) (s : GridEngine) (q : ExecReq Owner) :
    (terms K).asks o s q ↔ o.Allows q ∧ ∀ k ∈ K, ∀ request, q ≠ .placeOrder (.lock k) request := Iff.rfl

@[simp] theorem terms_spend (o : Quota) (q : ExecReq Owner) : (terms K).spend o q = o.spend q := rfl

theorem under_attemptGrids {O : Type} {π : Protocol GridEngine (ExecReq Owner) (ExecAns Owner) O}
    (f : State.Store → Except Exn (Unit × State.Store)) {R : Except Exn Unit → O → GridEngine → Prop}
    {o : O} {s : GridEngine} :
    Under π (attemptGrids f) R o s ↔ match f s.grids with
      | .ok (a, g) => π.inv { s with grids := g } ∧ π.guar o s { s with grids := g } ∧
          R (.ok a) o { s with grids := g }
      | .error e => R (.error e) o s := by
  rw [attemptGrids, under_attempt]
  cases f s.grids <;> rfl

/-- The request of _place_order. -/
def placement (state : GridState) (i : String) (a : GridAction) : ExecReq Owner :=
  .placeOrder (.level ⟨i, a.level⟩) (limitOrder state a.side a.quantity (some a.price))

theorem Quota.spend_cancel (hn : ∀ k, o.replaces k = none) (acct : Option UUID) (orderId : OrderId) :
    o.spend (.cancelOrder acct orderId) = o := by
  have h : (fun k => if o.replaces k = some (acct, orderId) then none else o.replaces k) = o.replaces := by
    funext k; simp [hn k]
  simp only [Quota.spend, h]

/-- A planned action and what it needs. -/
def Quota.Admits (o : Quota) (i : String) (buysAllowed : Bool) (a : GridAction) : Prop :=
  a.action = .placeBuy ∧ a.side = .buy ∧ (buysAllowed = true → o.mayBuy = true) ∨
    a.action = .placeSell ∧ a.side = .sell ∧ a.quantity ≤ o.sells (.level ⟨i, a.level⟩)

theorem Quota.Admits.allows {i : String} {a : GridAction} (hn : ∀ k, o.replaces k = none)
    (h : o.Admits i true a) (state : GridState) : o.Allows (placement state i a) := by
  rcases h with ⟨-, hside, hbuy⟩ | ⟨-, hside, hq⟩
  · exact ⟨fun _ => rfl, by simp only [limitOrder, hside]; exact ⟨hbuy rfl, _, rfl⟩⟩
  · exact ⟨fun _ => rfl, by simp only [limitOrder, hside]; exact ⟨hq, hn _⟩⟩

/-- Placing an action leaves the quota of the other levels and of the locks as it was. -/
structure Quota.Rest (i : String) (n : Nat) (o o' : Quota) : Prop where
  sells : ∀ w, w ≠ .level ⟨i, n⟩ → o'.sells w = o.sells w
  replaces : o'.replaces = o.replaces
  mayBuy : o'.mayBuy = o.mayBuy

theorem Quota.rest_placement {i : String} {a : GridAction} {o' : Quota}
    (h : o' = o ∨ ∃ state, o' = o.spend (placement state i a)) : Quota.Rest i a.level o o' := by
  rcases h with rfl | ⟨state, rfl⟩
  · exact ⟨fun _ _ => rfl, rfl, rfl⟩
  · cases hside : a.side with
    | buy => simp only [Quota.spend, placement, limitOrder, hside]; exact ⟨fun _ _ => rfl, rfl, rfl⟩
    | sell =>
        simp only [Quota.spend, placement, limitOrder, hside]
        exact ⟨fun w hw => Function.update_of_ne hw _ _, rfl, rfl⟩

theorem Quota.Admits.rest {i : String} {n : Nat} {b : Bool} {a : GridAction} {o' : Quota} (h : o.Admits i b a)
    (hr : Quota.Rest i n o o') (hne : a.level ≠ n) : o'.Admits i b a := by
  rcases h with ⟨ha, hside, hbuy⟩ | ⟨ha, hside, hq⟩
  · exact .inl ⟨ha, hside, fun hb => hr.mayBuy.trans (hbuy hb)⟩
  · exact .inr ⟨ha, hside, by rw [hr.sells _ (by simp [hne])]; exact hq⟩

theorem under_placeOrder {k : LevelKey} {request : UUID → OrderRequest}
    {R : Except Exn OrderResult → Quota → GridEngine → Prop} (ha : o.Allows (.placeOrder (.level k) request))
    (hR : ∀ r, R r (o.spend (.placeOrder (.level k) request)) s) :
    Under (terms K) (placeOrder (.level k) request) R o s := by
  rw [placeOrder, under_await]
  exact ⟨⟨ha, fun _ _ _ h => by cases h⟩, fun r s' _ _ hs' => hs' ▸ hR r⟩

theorem under_cancelOrder {exchangeAccountId : Option UUID} {orderId : OrderId}
    {R : Except Exn OrderResult → Quota → GridEngine → Prop} (ha : o.mayCancel = true)
    (hR : ∀ r, R r (o.spend (.cancelOrder exchangeAccountId orderId)) s) :
    Under (terms K) (cancelOrder exchangeAccountId orderId) R o s := by
  rw [cancelOrder, under_await]
  exact ⟨⟨ha, fun _ _ _ h => by cases h⟩, fun r s' _ _ hs' => hs' ▸ hR r⟩

theorem under_placeOrder_lock {k : LevelKey} {request : UUID → OrderRequest}
    {R : Except Exn OrderResult → Quota → GridEngine → Prop} (hk : k ∉ K)
    (ha : o.Allows (.placeOrder (.lock k) request))
    (hR : ∀ r, R r (o.spend (.placeOrder (.lock k) request)) s) :
    Under (terms K) (zoom locksLens (placeOrder (.lock k) request)) R o s := by
  rw [placeOrder, under_zoom_await]
  exact ⟨⟨ha, fun j hj _ h => by cases h; exact hk hj⟩, fun r s' _ _ hs' => hs' ▸ hR r⟩

theorem under_cancelOrder_lock {exchangeAccountId : Option UUID} {orderId : OrderId}
    {R : Except Exn OrderResult → Quota → GridEngine → Prop} (ha : o.mayCancel = true)
    (hR : ∀ r, R r (o.spend (.cancelOrder exchangeAccountId orderId)) s) :
    Under (terms K) (zoom locksLens (cancelOrder exchangeAccountId orderId)) R o s := by
  rw [cancelOrder, under_zoom_await]
  exact ⟨⟨ha, fun _ _ _ h => by cases h⟩, fun r s' _ _ hs' => hs' ▸ hR r⟩

theorem under_updateLevel {i : String} {n : Nat} {f : GridLevel → GridLevel}
    {R : Except Exn Unit → Quota → GridEngine → Prop} (hs : Sound K s) (hf : ∀ lv, (f lv).level = lv.level)
    (hok : Sound K { s with grids := s.grids.assignLevel i n f } →
      R (.ok ()) o { s with grids := s.grids.assignLevel i n f })
    (herr : ∀ e, R (.error e) o s) :
    Under (terms K) (attemptGrids (fun grids => grids.updateLevel i n f)) R o s := by
  rw [under_attemptGrids]
  split
  next a g hg =>
    obtain ⟨_, rfl⟩ := State.Store.updateLevel_ok hg
    have h := hs.withGrids (hs.numbered.assignLevel i n f hf)
    exact ⟨h, trivial, hok h⟩
  next e _ => exact herr e

theorem under_transitionLevel {i : String} {n : Nat} {target : GridLevelStatus}
    {R : Except Exn Unit → Quota → GridEngine → Prop} (hs : Sound K s)
    (hok : ∀ lv s', s.grids.getLevel i n = some lv → target ∈ levelTransitions lv.status →
      s' = { s with grids := s.grids.assignLevel i n (setStatus target) } →
      Sound K s' → R (.ok ()) o s')
    (herr : ∀ e, R (.error e) o s) :
    Under (terms K) (attemptGrids (fun grids => grids.transitionLevel i n target)) R o s := by
  rw [under_attemptGrids]
  split
  next a g hg =>
    obtain ⟨lv, hlv, hm, rfl⟩ := State.Store.transitionLevel_ok hg
    have h := hs.withGrids (hs.numbered.assignLevel i n (setStatus target) (fun _ => rfl))
    exact ⟨h, trivial, hok lv _ hlv hm rfl h⟩
  next e _ => exact herr e

theorem under_transitionGrid {i : String} {target : GridStatus}
    {R : Except Exn Unit → Quota → GridEngine → Prop} (hs : Sound K s)
    (hok : ∀ g s', s.grids i = some g → target ∈ gridTransitions g.status →
      s' = { s with grids := s.grids.put i { g with status := target } } → Sound K s' → R (.ok ()) o s')
    (herr : ∀ e, R (.error e) o s) :
    Under (terms K) (attemptGrids (fun grids => grids.transitionGrid i target)) R o s := by
  rw [under_attemptGrids]
  split
  next a g' hg =>
    obtain ⟨g, hgi, hm, rfl⟩ := State.Store.transitionGrid_ok hg
    have h := hs.withGrids (hs.numbered.put (i := i) (g := { g with status := target }) (hs.numbered i g hgi))
    exact ⟨h, trivial, hok g _ hgi hm rfl h⟩
  next e _ => exact herr e

/-- What is shown of a call as a whole. -/
abbrev Fine (K : Set LevelKey) (o : Quota) (s : GridEngine) (p : Op α) : Prop :=
  Under (terms K) p (fun _ _ _ => True) o s

theorem fine_bind_ret {β : Type} {p : Op α} {f : α → Op β} (hf : ∀ a o s, Fine K o s (f a))
    (hp : Fine K o s p) : Fine K o s (p.bind f) := by
  rw [Fine, under_bind]
  refine under_mono hp ?_
  rintro (e | a) o' s' _
  · trivial
  · exact hf a o' s'

end Utos.Grid.Terms
