import Utos.Grid.Pause

namespace Utos.Grid.Resume

open Coroutine Program Core.DomainTypes Core.Exceptions Execution.Service Execution.Exchange State CircuitBreaker
open Planner Engine Trading Invariant Reach Pause

theorem wp_placeGridOrder_adds {i : String} {a : GridAction} {s : GridEngine} {w : World Owner} :
    wp handler (placeGridOrder i a) (fun _ _ w' =>
      Desk.Adds (fun o => o.owner = .level ⟨i, a.level⟩) w.desk.orders w'.desk) s w := by
  rw [placeGridOrder, bind_eq, wp_bind, wp_read, andThen_ok]
  split
  next => exact .refl _ _
  next state hg =>
    have hadds := (handler_placeOrder_adds w (.level ⟨i, a.level⟩)
      (limitOrder state a.side a.quantity (some a.price))).mono (fun o ho => ho.1)
    rw [bind_eq, wp_bind, placeOrder, wp_await]
    cases (handler w (.placeOrder (.level ⟨i, a.level⟩)
        (limitOrder state a.side a.quantity (some a.price)))).1 with
    | error e => exact hadds
    | ok result =>
        rw [id_eq, andThen_ok, bind_eq, wp_bind, wp_attemptGrids]
        split
        next =>
          rw [andThen_ok, bind_eq, wp_bind, wp_attemptGrids]
          split
          next => exact hadds
          next => exact hadds
        next => exact hadds

theorem wp_placeAll_adds {i : String} {actions : List GridAction} {s : GridEngine} {w : World Owner} :
    wp handler (placeAll i actions) (fun _ _ w' =>
      Desk.Adds (fun o => ∃ a ∈ actions, o.owner = .level ⟨i, a.level⟩) w.desk.orders w'.desk) s w := by
  refine wp_forEach (fun xs _ w' => (∀ a ∈ xs, a ∈ actions) ∧
    Desk.Adds (fun o => ∃ a ∈ actions, o.owner = .level ⟨i, a.level⟩) w.desk.orders w'.desk) _ ?_
    (fun _ _ h => h.2) actions ⟨fun _ h => h, .refl _ _⟩
  rintro a xs s1 w1 ⟨hmem, hadds⟩
  rw [bind_eq, wp_bind]
  refine wp_mono wp_placeGridOrder_adds ?_
  have hgrow : ∀ d : Desk Owner, Desk.Adds (fun o => o.owner = .level ⟨i, a.level⟩) w1.desk.orders d →
      Desk.Adds (fun o => ∃ a ∈ actions, o.owner = .level ⟨i, a.level⟩) w.desk.orders d := fun d h =>
    hadds.trans (h.mono (fun o ho => ⟨a, hmem a (by simp), ho⟩))
  rintro (e | orderId) s2 w2 h
  · exact hgrow _ h
  · exact ⟨fun a' ha' => hmem a' (by simp [ha']), hgrow _ h⟩

theorem runCall_resume_adds (evaluate : Evaluate) (s : Floor) (i : String) (p : ℚ) (oracle : Oracle) :
    Desk.Adds (fun o => ∃ g, s.engine.grids i = some g ∧ ∃ a ∈ plan g.levels p false 1,
      o.owner = .level ⟨i, a.level⟩) s.desk.orders (s.runCall evaluate (.resumeGrid i p) oracle).2.desk := by
  have hwp : wp handler (perform evaluate (.resumeGrid i p)) (fun _ _ w' =>
      Desk.Adds (fun o => ∃ g, s.engine.grids i = some g ∧ ∃ a ∈ plan g.levels p false 1,
        o.owner = .level ⟨i, a.level⟩) s.desk.orders w'.desk) s.engine ⟨s.desk, oracle⟩ := by
    rw [perform, void, wp_bind, resumeGrid, bind_eq, wp_bind, wp_read, andThen_ok]
    split
    next => exact .refl _ _
    next g hg =>
      rw [bind_eq, wp_bind, wp_attemptGrids]
      split
      next =>
        rw [andThen_ok, bind_eq, wp_bind, setCurrentPrice, modifyGrids, wp_modify, andThen_ok, bind_eq, wp_bind]
        refine wp_mono wp_placeAll_adds ?_
        rintro (e | u) s1 w1 h
        · exact h.mono (fun o ho => ⟨g, hg, ho⟩)
        · exact h.mono (fun o ho => ⟨g, hg, ho⟩)
      next => exact .refl _ _
  exact hwp

/-- The order at r is live and one that an order of the grid's cancel plan for a level names. -/
def Paused (g : GridState) (d : Desk Owner) (a : GridAction) (r : Nat) (o : Order Owner) : Prop :=
  a ∈ planCancelAll g.levels ∧ d.index (g.exchangeAccountId, a.orderId) = some r ∧ d.orders[r]? = some o ∧
    o.state = .live

/-- A live order of the level with the side, the price and the quantity of another. -/
def Stands (i : String) (d : Desk Owner) (a : GridAction) (o : Order Owner) (r' : Nat) : Prop :=
  ∃ o', d.orders[r']? = some o' ∧ o'.state = .live ∧ o'.owner.key = ⟨i, a.level⟩ ∧ o'.side = o.side ∧
    o'.price = o.price ∧ o'.quantity = o.quantity

/-- Every order that a pause in state s cancels stands again in state s'. -/
def Restored (i : String) (g : GridState) (s s' : Floor) : Prop :=
  ∀ a r o, Paused g s.desk a r o → ∃ r', Stands i s'.desk a o r'

/-- Every order that the pause cancels has a double of the same level that it does not cancel. -/
def Doubled (i : String) (g : GridState) (d : Desk Owner) : Prop :=
  ∀ a r o, Paused g d a r o → ∃ r', Stands i d a o r' ∧ ∀ key ∈ cancelKeys g g.levels, d.index key ≠ some r'

theorem cancelIds_live {d : Desk Owner} {keys : List (Option UUID × OrderId)} {r : Nat} {o : Order Owner} :
    (d.cancelIds keys).orders[r]? = some o ∧ o.state = .live ↔
      d.orders[r]? = some o ∧ o.state = .live ∧ ∀ key ∈ keys, d.index key ≠ some r := by
  rw [Desk.cancelIds_orders]
  cases ho : d.orders[r]? with
  | none => simp
  | some o0 =>
      simp only [Option.map_some, Option.some.injEq]
      by_cases hn : ∃ key ∈ keys, d.index key = some r
      · have hfalse : ¬ ∀ key ∈ keys, d.index key ≠ some r := fun h =>
          hn.elim (fun key hk => h key hk.1 hk.2)
        by_cases hl : o0.state = .live
        · rw [if_pos ⟨hn, hl⟩]
          constructor
          · rintro ⟨rfl, h⟩; cases h
          · rintro ⟨-, -, h⟩; exact absurd h hfalse
        · rw [if_neg (fun h => hl h.2)]
          constructor
          · rintro ⟨rfl, h⟩; exact absurd h hl
          · rintro ⟨-, -, h⟩; exact absurd h hfalse
      · have htrue : ∀ key ∈ keys, d.index key ≠ some r := fun key hk he => hn ⟨key, hk, he⟩
        rw [if_neg (fun h => hn h.1)]
        exact ⟨fun h => ⟨h.1, h.2, htrue⟩, fun h => ⟨h.1, h.2.1⟩⟩

/-- After a pause the planner has no plan for a level whose order was cancelled. -/
theorem closed_not_planned {i : String} {g g1 : GridState} {s s1 : GridEngine} {p : ℚ} {a a' : GridAction}
    (hs : Sound ∅ s) (hs1 : Sound ∅ s1) (hg : s.grids i = some g) (hg1 : s1.grids i = some g1)
    (hlevels : ∀ m, s1.grids.getLevel i m = (s.grids.getLevel i m).map closeLevel)
    (ha : a ∈ planCancelAll g.levels) (ha' : a' ∈ plan g1.levels p false 1) : a'.level ≠ a.level := by
  intro heq
  obtain ⟨lv, hlv, hcancel⟩ := List.mem_filterMap.mp ha
  obtain ⟨lv', hlv', hplan⟩ := mem_plan ha'
  have hget : s.grids.getLevel i lv.level = some lv := by
    rw [State.Store.getLevel_eq hg]; exact findLevel_of_mem (hs.numbered i g hg) hlv
  have hget1 : s1.grids.getLevel i lv'.level = some lv' := by
    rw [State.Store.getLevel_eq hg1]; exact findLevel_of_mem (hs1.numbered i g1 hg1) hlv'
  have hlevel : lv'.level = lv.level := by
    rw [← planLevel_level hplan, heq, (cancelOf_some hcancel).1]
  rw [hlevel, hlevels, hget, Option.map_some, Option.some.injEq] at hget1
  have hstatus : lv'.status = .cancelled := by
    rw [← hget1]; simp [closeLevel, hcancel, setStatus]
  simp [planLevel, hstatus] at hplan

/-- Resuming restores what a pause cancelled only where the pause left a double
of it: no cancelled order is placed again. -/
theorem resume_restores_iff {evaluate : Evaluate} {s : Floor} (hs : s.Reachable evaluate) {i : String}
    {g : GridState} (hg : s.engine.grids i = some g) {oracle oracle' : Oracle}
    (hc : ∀ ref, (oracle.cancel ref).effect = .cancelled)
    (hret : (s.runCall evaluate (.pauseGrid i) oracle).1 = .ok ()) (p : ℚ) :
    Restored i g s ((s.runCall evaluate (.pauseGrid i) oracle).2.runCall evaluate (.resumeGrid i p) oracle').2 ↔
      Doubled i g s.desk := by
  have hsound := reachable_sound hs
  obtain ⟨hlevels, hdesk⟩ := runCall_closes hsound hg (.inl rfl) hret
  have hsound1 := (runCall_keeps evaluate (.pauseGrid i) hsound
    (fun k _ hk => by simp at hk) oracle).1
  rw [Desk.settleIds_of_cancels hc] at hdesk
  set s1 := (s.runCall evaluate (.pauseGrid i) oracle).2 with hs1
  have hadds := runCall_resume_adds evaluate s1 i p oracle'
  rw [hdesk] at hadds
  constructor
  · intro h a r o hp
    obtain ⟨r', o', ho', hl', hkey, hsame⟩ := h a r o hp
    rcases hadds.cases ho' with hold | ⟨g1, hg1, a', ha', howner⟩
    · obtain ⟨ho, -, hn⟩ := cancelIds_live.mp ⟨hold, hl'⟩
      exact ⟨r', ⟨o', ho, hl', hkey, hsame⟩, hn⟩
    · rw [howner] at hkey
      have hlevel : a'.level = a.level := congrArg LevelKey.level hkey
      exact absurd hlevel (closed_not_planned hsound hsound1 hg hg1 hlevels hp.1 ha')
  · intro h a r o hp
    obtain ⟨r', ⟨o', ho', hl', hkey, hsame⟩, hn⟩ := h a r o hp
    exact ⟨r', o', hadds.old (cancelIds_live.mpr ⟨ho', hl', hn⟩).1, hl', hkey, hsame⟩

/-- The grid of two levels with both buys at the exchange, paused and resumed at 105. -/
def waitingToBuy : Floor := (Floor.start true).runEvents (fun _ _ _ => true) activated

def resumed : Floor :=
  ((waitingToBuy.runCall (fun _ _ _ => true) (.pauseGrid "grid") willing).2.runCall (fun _ _ _ => true)
    (.resumeGrid "grid" 105) willing).2

theorem resume_restores_iff_waitingToBuy :
    Restored "grid" tradingGrid waitingToBuy resumed ↔ Doubled "grid" tradingGrid waitingToBuy.desk :=
  resume_restores_iff ⟨true, _, rfl⟩ (by decide +kernel) (fun _ => rfl) (by decide +kernel) 105

/-- Both buys are cancelled, both operations return, and no order is at the exchange afterwards. -/
theorem resume_restores_nothing :
    waitingToBuy.Reachable (fun _ _ _ => true) ∧ waitingToBuy.engine.grids "grid" = some tradingGrid ∧
      (waitingToBuy.runCall (fun _ _ _ => true) (.pauseGrid "grid") willing).1 = .ok () ∧
      ((waitingToBuy.runCall (fun _ _ _ => true) (.pauseGrid "grid") willing).2.runCall (fun _ _ _ => true)
        (.resumeGrid "grid" 105) willing).1 = .ok () ∧
      ¬ Restored "grid" tradingGrid waitingToBuy resumed := by
  refine ⟨⟨true, _, rfl⟩, by decide +kernel, by decide +kernel, by decide +kernel, fun h => ?_⟩
  obtain ⟨r', o', ho', hl', -⟩ := h
    { level := 1, action := .cancel, side := .buy, price := 110, quantity := 2, orderId := some "ii" } 1
    { owner := .level ⟨"grid", 1⟩, side := .buy, price := some 110, quantity := 2, state := .live }
    ⟨by decide +kernel, by decide +kernel, by decide +kernel, rfl⟩
  have hnone : ∀ o ∈ resumed.desk.orders, o.state ≠ .live := by decide +kernel
  exact hnone o' (List.mem_of_getElem? ho') hl'

end Utos.Grid.Resume
