import Utos.Grid.CallTerms

namespace Utos.Grid.Pause

open Coroutine Program Core.DomainTypes Core.Exceptions Execution.Service Execution.Exchange State CircuitBreaker
open Planner Engine Trading Invariant Terms Reach

/-- The ids by which a pause cancels the orders of some levels. -/
def cancelKeys (g : GridState) (levels : List GridLevel) : List (Option UUID × OrderId) :=
  (planCancelAll levels).map (fun a => (g.exchangeAccountId, a.orderId))

/-- What a pause makes of a level. -/
def closeLevel (lv : GridLevel) : GridLevel :=
  match cancelOf lv with
  | none => lv
  | some a => setStatus .cancelled (setOrderId a.side none lv)

theorem cancelOf_some {lv : GridLevel} {a : GridAction} (h : cancelOf lv = some a) :
    a.level = lv.level ∧ lv.status = .opened ∧ pendingOrderId lv = a.orderId ∧ a.orderId ≠ none ∧
      a.side = if truthy lv.buyOrderId then .buy else .sell := by
  unfold cancelOf at h
  split at h
  next hs =>
    split at h
    · cases h
    · next orderId hid => cases h; exact ⟨rfl, hs, hid, by simp, rfl⟩
  next => cases h

theorem cancelKeys_cons (g : GridState) (lv : GridLevel) (levels : List GridLevel) :
    cancelKeys g (lv :: levels) = cancelKeys g [lv] ++ cancelKeys g levels := by
  simp only [cancelKeys, planCancelAll, ← List.map_append, ← List.filterMap_append, List.singleton_append]

theorem wp_attemptGrids {f : State.Store → Except Exn (Unit × State.Store)}
    {R : Except Exn Unit → GridEngine → World Owner → Prop} {s : GridEngine} {w : World Owner} :
    wp handler (attemptGrids f) R s w ↔ match f s.grids with
      | .ok (a, g) => R (.ok a) { s with grids := g } w
      | .error e => R (.error e) s w := by
  rw [attemptGrids, wp_attempt]
  cases f s.grids <;> rfl

theorem wp_cancelGridOrder {i : String} {g : GridState} {lv : GridLevel} {a : GridAction} {s : GridEngine}
    {w : World Owner} (hs : Sound ∅ s) (hg : s.grids i = some g) (ha : cancelOf lv = some a)
    (hlv : s.grids.getLevel i lv.level = some lv) :
    wp handler (cancelGridOrder i a) (fun r s' w' => r = .ok () → Sound ∅ s' ∧
      (∃ g', s'.grids i = some g' ∧ g'.exchangeAccountId = g.exchangeAccountId) ∧
      (∀ m, s'.grids.getLevel i m =
        if m = lv.level then some (closeLevel lv) else s.grids.getLevel i m) ∧
      w' = { w with desk := w.desk.settleById w.oracle (g.exchangeAccountId, a.orderId) }) s w := by
  obtain ⟨hlevel, hopen, hid, hne, hside⟩ := cancelOf_some ha
  obtain ⟨orderId, horderId⟩ := Option.ne_none_iff_exists'.mp hne
  rw [cancelGridOrder, bind_eq, wp_bind, wp_read, andThen_ok]
  simp only [hg, horderId]
  rw [bind_eq, wp_bind, cancelOrder, wp_await, handler_cancelOrder]
  cases (handler w (.cancelOrder g.exchangeAccountId (some orderId))).1 with
  | error e => exact fun h => by cases h
  | ok result =>
      rw [id_eq, andThen_ok, bind_eq, wp_bind, wp_attemptGrids]
      split
      next g1 hup =>
        obtain ⟨-, rfl⟩ := State.Store.updateLevel_ok hup
        rw [andThen_ok, wp_attemptGrids]
        split
        next g2 htr =>
          obtain ⟨lv', -, -, rfl⟩ := State.Store.transitionLevel_ok htr
          intro _
          have hs1 := hs.withGrids (hs.numbered.assignLevel i a.level (setOrderId a.side none)
            (setOrderId_level _ _))
          have hs2 := hs1.withGrids (hs1.numbered.assignLevel i a.level (setStatus .cancelled) (fun _ => rfl))
          refine ⟨hs2, ?_, fun m => ?_, rfl⟩
          · simp [State.Store.assignLevel, hg, State.Store.put]
          · rw [State.Store.getLevel_assignLevel _ _ _ (setStatus .cancelled) (fun _ => rfl),
              State.Store.getLevel_assignLevel _ _ _ _ (setOrderId_level _ _),
              State.Store.getLevel_assignLevel _ _ _ _ (setOrderId_level _ _), hlevel, hlv]
            by_cases hm : m = lv.level
            · simp [hm, closeLevel, ha]
            · simp [hm]
        next => exact fun h => by cases h
      next => exact fun h => by cases h

/-- What holds during a pause that began in state s and world w, with some levels still to come. -/
structure Closing (i : String) (g : GridState) (s : GridEngine) (w : World Owner) (levels : List GridLevel)
    (s' : GridEngine) (w' : World Owner) : Prop where
  sound : Sound ∅ s'
  account : ∃ g', s'.grids i = some g' ∧ g'.exchangeAccountId = g.exchangeAccountId
  nodup : (levels.map GridLevel.level).Nodup
  toCome : ∀ lv ∈ levels, s.grids.getLevel i lv.level = some lv ∧ s'.grids.getLevel i lv.level = some lv
  closed : ∀ m, m ∉ levels.map GridLevel.level →
    s'.grids.getLevel i m = (s.grids.getLevel i m).map closeLevel
  oracle : w'.oracle = w.oracle
  desk : w'.desk.settleIds w.oracle (cancelKeys g levels) = w.desk.settleIds w.oracle (cancelKeys g g.levels)

theorem closing_start {i : String} {g : GridState} {s : GridEngine} {w : World Owner} (hs : Sound ∅ s)
    (hg : s.grids i = some g) : Closing i g s w g.levels s w := by
  refine ⟨hs, ⟨g, hg, rfl⟩, hs.numbered i g hg, fun lv hlv => ?_, fun m hm => ?_, rfl, rfl⟩
  · rw [State.Store.getLevel_eq hg]
    exact ⟨findLevel_of_mem (hs.numbered i g hg) hlv, findLevel_of_mem (hs.numbered i g hg) hlv⟩
  · rw [State.Store.getLevel_eq hg]
    cases hf : findLevel m g.levels with
    | none => rfl
    | some lv =>
        obtain ⟨hmem, hl⟩ := findLevel_mem hf
        exact absurd (hl ▸ List.mem_map_of_mem hmem) hm

theorem Closing.next {i : String} {g : GridState} {s s1 s2 : GridEngine} {w w1 w2 : World Owner}
    {lv : GridLevel} {levels : List GridLevel} (h : Closing i g s w (lv :: levels) s1 w1) (hs2 : Sound ∅ s2)
    (hacct : ∃ g', s2.grids i = some g' ∧ g'.exchangeAccountId = g.exchangeAccountId)
    (hget : ∀ m, s2.grids.getLevel i m = if m = lv.level then some (closeLevel lv) else s1.grids.getLevel i m)
    (ho : w2.oracle = w1.oracle) (hd : w2.desk = w1.desk.settleIds w.oracle (cancelKeys g [lv])) :
    Closing i g s w levels s2 w2 := by
  have hnin : lv.level ∉ levels.map GridLevel.level := (List.nodup_cons.mp h.nodup).1
  refine ⟨hs2, hacct, (List.nodup_cons.mp h.nodup).2, fun lv' hlv' => ?_, fun m hm => ?_,
    ho.trans h.oracle, ?_⟩
  · have hne : lv'.level ≠ lv.level := fun he => hnin (he ▸ List.mem_map_of_mem hlv')
    rw [hget, if_neg hne]
    exact h.toCome lv' (by simp [hlv'])
  · rw [hget]
    by_cases hne : m = lv.level
    · rw [if_pos hne, hne, (h.toCome lv (by simp)).1]
      rfl
    · rw [if_neg hne]
      exact h.closed m (by simp [hne, hm])
  · rw [← h.desk, hd, cancelKeys_cons g lv levels]
    simp only [Desk.settleIds, List.foldl_append]

theorem wp_cancelAll {i : String} {g : GridState} {s : GridEngine} {w : World Owner} (hs : Sound ∅ s)
    (hg : s.grids i = some g) :
    wp handler (cancelAll i (planCancelAll g.levels)) (fun r s' w' => r = .ok () → Sound ∅ s' ∧
      (∀ m, s'.grids.getLevel i m = (s.grids.getLevel i m).map closeLevel) ∧
      w' = { w with desk := w.desk.settleIds w.oracle (cancelKeys g g.levels) }) s w := by
  rw [cancelAll, planCancelAll, forEach_filterMap]
  refine wp_forEach (Closing i g s w) _ ?_ ?_ g.levels (closing_start hs hg)
  · intro lv levels s1 w1 h
    obtain ⟨g1, hg1, hacct⟩ := h.account
    have hlv := (h.toCome lv (by simp)).2
    cases ha : cancelOf lv with
    | none =>
        have hkeys : cancelKeys g [lv] = [] := by simp [cancelKeys, planCancelAll, ha]
        have hclose : closeLevel lv = lv := by simp [closeLevel, ha]
        refine h.next h.sound ⟨g1, hg1, hacct⟩ (fun m => ?_) rfl (by rw [hkeys]; rfl)
        by_cases hne : m = lv.level
        · rw [if_pos hne, hne, hclose]
          exact hlv
        · rw [if_neg hne]
          rfl
    | some a =>
        have hkeys : cancelKeys g [lv] = [(g1.exchangeAccountId, a.orderId)] := by
          simp [cancelKeys, planCancelAll, ha, hacct]
        refine wp_mono (wp_cancelGridOrder h.sound hg1 ha hlv) ?_
        rintro (e | u) s2 w2 h2
        · exact fun h' => by cases h'
        · obtain ⟨hs2, ⟨g2, hg2, hacct2⟩, hget2, rfl⟩ := h2 rfl
          exact h.next hs2 ⟨g2, hg2, hacct2.trans hacct⟩ hget2 rfl (by rw [hkeys, h.oracle]; rfl)
  · intro s1 w1 h _
    refine ⟨h.sound, fun m => h.closed m (by simp), ?_⟩
    rw [← h.desk, ← h.oracle]
    rfl

/-- The operations that cancel the pending orders of a grid. -/
def Closes (i : String) (call : Call) : Prop := call = .pauseGrid i ∨ call = .closeAllGridOrders i

theorem runCall_closes {evaluate : Evaluate} {s : Floor} {i : String} {g : GridState} {call : Call}
    {oracle : Oracle} (hs : Sound ∅ s.engine) (hg : s.engine.grids i = some g) (hcall : Closes i call)
    (hret : (s.runCall evaluate call oracle).1 = .ok ()) :
    (∀ m, (s.runCall evaluate call oracle).2.engine.grids.getLevel i m =
      (s.engine.grids.getLevel i m).map closeLevel) ∧
      (s.runCall evaluate call oracle).2.desk = s.desk.settleIds oracle (cancelKeys g g.levels) := by
  have hloop := wp_cancelAll (w := ⟨s.desk, oracle⟩) hs hg
  have hwp : wp handler (perform evaluate call) (fun r s' w' => r = .ok () →
      (∀ m, s'.grids.getLevel i m = (s.engine.grids.getLevel i m).map closeLevel) ∧
        w'.desk = s.desk.settleIds oracle (cancelKeys g g.levels)) s.engine ⟨s.desk, oracle⟩ := by
    rcases hcall with rfl | rfl
    · rw [perform, void, wp_bind, pauseGrid, bind_eq, wp_bind, wp_read, andThen_ok]
      simp only [hg]
      rw [bind_eq, wp_bind]
      refine wp_mono hloop ?_
      rintro (e | u) s1 w1 h
      · exact fun h' => by cases h'
      · obtain ⟨-, hlevels, rfl⟩ := h rfl
        rw [andThen_ok, bind_eq, wp_bind, wp_attemptGrids]
        split
        next g1 htr =>
          obtain ⟨g', hg', -, rfl⟩ := State.Store.transitionGrid_ok htr
          simp only [andThen_ok, pure_eq, wp_ret]
          refine fun _ => ⟨fun m => ?_, trivial⟩
          rw [State.Store.getLevel_put, if_pos rfl, ← hlevels m, State.Store.getLevel_eq hg']
        next => exact fun h' => by cases h'
    · have hlist : s.engine.grids.listLevels i = g.levels := by simp [State.Store.listLevels, hg]
      rw [perform, void, wp_bind, closeAllGridOrders, bind_eq, wp_bind, wp_read, andThen_ok, hlist, bind_eq,
        wp_bind]
      refine wp_mono hloop ?_
      rintro (e | u) s1 w1 h
      · exact fun h' => by cases h'
      · obtain ⟨-, hlevels, rfl⟩ := h rfl
        exact fun _ => ⟨hlevels, rfl⟩
  exact hwp hret

/-- A level whose orders are forgotten: CANCELLED, and no order id left. -/
def Forgotten (lv : GridLevel) : Prop :=
  lv.status = .cancelled ∧ truthy lv.buyOrderId = false ∧ truthy lv.sellOrderId = false

/-- A level in status OPEN on a single order id. -/
def OpenOnOne (lv : GridLevel) : Prop :=
  lv.status = .opened ∧ pendingOrderId lv ≠ none ∧
    (truthy lv.buyOrderId = true → truthy lv.sellOrderId = false)

/-- Whether the last order of the level that filled was a buy. -/
def holdsCoins (d : Desk Owner) (k : LevelKey) : Bool :=
  match d.fills.find? (fun fill => fill.1.owner.key = k) with
  | none => false
  | some fill => fill.1.side = .buy

theorem forgotten_closeLevel {lv : GridLevel} : Forgotten (closeLevel lv) ↔ Forgotten lv ∨ OpenOnOne lv := by
  cases ha : cancelOf lv with
  | none =>
      have hno : ¬ OpenOnOne lv := by
        rintro ⟨hopen, hid, -⟩
        obtain ⟨orderId, horderId⟩ := Option.ne_none_iff_exists'.mp hid
        simp [cancelOf, hopen, horderId] at ha
      simp [closeLevel, ha, hno]
  | some a =>
      obtain ⟨-, hopen, hid, hne, hside⟩ := cancelOf_some ha
      have hclose : closeLevel lv = setStatus .cancelled (setOrderId a.side none lv) := by simp [closeLevel, ha]
      have hnf : ¬ Forgotten lv := fun h => by
        have hc := h.1
        rw [hopen] at hc
        cases hc
      rw [hclose, or_iff_right hnf]
      cases hb : truthy lv.buyOrderId with
      | true =>
          simp only [hb, if_true] at hside
          simp [Forgotten, OpenOnOne, hside, setStatus, setOrderId, hopen, hb, hid, hne]
      | false =>
          simp only [hb, Bool.false_eq_true, if_false] at hside
          simp [Forgotten, OpenOnOne, hside, setStatus, setOrderId, hopen, hb, hid, hne]

/-- No level of the instance that holds coins has been forgotten. -/
def HoldingsKept (i : String) (s : Floor) : Prop :=
  ∀ n lv, s.engine.grids.getLevel i n = some lv → Forgotten lv → holdsCoins s.desk ⟨i, n⟩ = false

/-- Pausing or closing a grid forgets the holding of every level whose only
order it cancels, be it the sell over the holding or a buy that fills meanwhile. -/
theorem holdingsKept_iff {evaluate : Evaluate} {s : Floor} (hs : s.Reachable evaluate) {i : String}
    {g : GridState} (hg : s.engine.grids i = some g) {call : Call} (hcall : Closes i call) {oracle : Oracle}
    (hret : (s.runCall evaluate call oracle).1 = .ok ()) :
    HoldingsKept i (s.runCall evaluate call oracle).2 ↔ ∀ lv ∈ g.levels, Forgotten lv ∨ OpenOnOne lv →
      holdsCoins (s.desk.settleIds oracle (cancelKeys g g.levels)) ⟨i, lv.level⟩ = false := by
  have hsound := reachable_sound hs
  obtain ⟨hlevels, hdesk⟩ := runCall_closes hsound hg hcall hret
  simp only [HoldingsKept, hlevels, hdesk]
  constructor
  · intro h lv hlv hforgotten
    refine h lv.level (closeLevel lv) ?_ (forgotten_closeLevel.mpr hforgotten)
    rw [State.Store.getLevel_eq hg, findLevel_of_mem (hsound.numbered i g hg) hlv]
    rfl
  · intro h n lv' hlv' hforgotten
    obtain ⟨lv, hlv, rfl⟩ := Option.map_eq_some_iff.mp hlv'
    rw [State.Store.getLevel_eq hg] at hlv
    obtain ⟨hmem, rfl⟩ := findLevel_mem hlv
    exact h lv hmem (forgotten_closeLevel.mp hforgotten)

/-- The buy at 100 has filled and its sell at 120 is at the exchange. -/
def holding : Floor :=
  (Floor.start true).runEvents (fun _ _ _ => true)
    (activated ++ [.fill 0 (11 / 5), .call (.onBuyFilled "grid" 0 100 (11 / 5)) willing])

def holdingGrid : GridState :=
  { tradingGrid with
    levels := [{ level := 0, buyPrice := 100, sellPrice := 120, quantity := 11 / 5, sellOrderId := some "iii"
                 status := .opened },
               { level := 1, buyPrice := 110, sellPrice := 120, quantity := 2, buyOrderId := some "ii"
                 status := .opened }] }

theorem holdingsKept_iff_holding :
    HoldingsKept "grid" (holding.runCall (fun _ _ _ => true) (.pauseGrid "grid") willing).2 ↔
      ∀ lv ∈ holdingGrid.levels, Forgotten lv ∨ OpenOnOne lv →
        holdsCoins (holding.desk.settleIds willing (cancelKeys holdingGrid holdingGrid.levels))
          ⟨"grid", lv.level⟩ = false :=
  holdingsKept_iff ⟨true, _, rfl⟩ (by decide +kernel) (.inl rfl) (by decide +kernel)

/-- The sell is cancelled, the level ends up CANCELLED without ids, and the coins
bought at 100 are still held. -/
theorem pause_forgets_holding :
    holding.Reachable (fun _ _ _ => true) ∧
      (holding.runCall (fun _ _ _ => true) (.pauseGrid "grid") willing).1 = .ok () ∧
      ¬ HoldingsKept "grid" (holding.runCall (fun _ _ _ => true) (.pauseGrid "grid") willing).2 := by
  refine ⟨⟨true, _, rfl⟩, by decide +kernel, fun h => ?_⟩
  have hkept := h 0 { level := 0, buyPrice := 100, sellPrice := 120, quantity := 11 / 5, status := .cancelled }
    (by decide +kernel) ⟨rfl, rfl, rfl⟩
  revert hkept
  decide +kernel

end Utos.Grid.Pause
