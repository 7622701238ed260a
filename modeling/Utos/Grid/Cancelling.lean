import Utos.Coroutine.Frame
import Utos.Grid.Pause

namespace Utos.Grid.Cancelling

open Coroutine Program Core.DomainTypes Core.Exceptions Execution.Models Execution.Service Execution.Exchange
open State Planner Engine Trading Invariant Pause

theorem wp_cancelGridOrder_ok {i : String} {g : GridState} {lv : GridLevel} {a : GridAction} {s : GridEngine}
    {w : World Owner} {ref : Nat} {result : OrderResult} (hg : s.grids i = some g) (ha : cancelOf lv = some a)
    (hlv : s.grids.getLevel i lv.level = some lv) (hkey : w.desk.index (g.exchangeAccountId, a.orderId) = some ref)
    (hanswer : (w.oracle.cancel ref).answer = .ok result) :
    wp handler (cancelGridOrder i a) (fun r _ _ => r = .ok ()) s w := by
  obtain ⟨hlevel, hopen, hid, hne, hside⟩ := cancelOf_some ha
  obtain ⟨orderId, horderId⟩ := Option.ne_none_iff_exists'.mp hne
  rw [horderId] at hkey
  rw [cancelGridOrder, bind_eq, wp_bind, wp_read, andThen_ok]
  simp only [hg, horderId]
  rw [bind_eq, wp_bind, cancelOrder, wp_await]
  simp only [handler, hkey, hanswer, id_eq]
  have hupdate : s.grids.updateLevel i a.level (setOrderId a.side none) =
      .ok ((), s.grids.assignLevel i a.level (setOrderId a.side none)) := by
    simp [State.Store.updateLevel, hlevel, hlv]
  have hassigned : (s.grids.assignLevel i a.level (setOrderId a.side none)).getLevel i a.level =
      some (setOrderId a.side none lv) := by
    rw [State.Store.getLevel_assignLevel _ _ _ _ (setOrderId_level _ _), hlevel, hlv]
    simp
  have htransition : (s.grids.assignLevel i a.level (setOrderId a.side none)).transitionLevel i a.level .cancelled =
      .ok ((), (s.grids.assignLevel i a.level (setOrderId a.side none)).assignLevel i a.level (setStatus .cancelled)) := by
    have hstatus : (setOrderId a.side none lv).status = .opened := by cases a.side <;> exact hopen
    unfold State.Store.getLevel at hassigned
    unfold State.Store.transitionLevel
    cases hstore : s.grids.assignLevel i a.level (setOrderId a.side none) i with
    | none => simp [hstore] at hassigned
    | some g1 =>
        rw [hstore, Option.bind_some] at hassigned
        simp only [hassigned, validateLevelTransition, hstatus]
        rfl
  rw [andThen_ok, bind_eq, wp_bind, wp_attemptGrids, hupdate]
  simp only [andThen_ok]
  rw [wp_attemptGrids, htransition]

/-- Every cancel of the plan is answered with a result. -/
def Answered (g : GridState) (w : World Owner) : Prop :=
  ∀ key ∈ cancelKeys g g.levels, ∃ ref result, w.desk.index key = some ref ∧ (w.oracle.cancel ref).answer = .ok result

theorem cancelKeys_mem {g : GridState} {lv : GridLevel} {a : GridAction} (hlv : lv ∈ g.levels)
    (ha : cancelOf lv = some a) : (g.exchangeAccountId, a.orderId) ∈ cancelKeys g g.levels :=
  List.mem_map_of_mem (List.mem_filterMap.mpr ⟨lv, hlv, ha⟩)

/-- A pause whose cancels are all answered has dealt with every order of its plan. -/
theorem wp_cancelAll_answered {i : String} {g : GridState} {s : GridEngine} {w : World Owner} (hs : Sound ∅ s)
    (hg : s.grids i = some g) (hanswered : Answered g w) :
    wp handler (cancelAll i (planCancelAll g.levels)) (fun r _ w' => r = .ok () ∧
      w' = { w with desk := w.desk.settleIds w.oracle (cancelKeys g g.levels) }) s w := by
  rw [cancelAll, planCancelAll, forEach_filterMap]
  refine wp_forEach (fun levels s' w' => Closing i g s w levels s' w' ∧ levels ⊆ g.levels ∧
    w'.desk.index = w.desk.index) _ ?_ ?_ g.levels ⟨closing_start hs hg, List.Subset.refl _, rfl⟩
  · rintro lv levels s1 w1 ⟨hclosing, hsub, hindex⟩
    obtain ⟨g1, hg1, hacct⟩ := hclosing.account
    have hlv := (hclosing.toCome lv (by simp)).2
    have hsub' : levels ⊆ g.levels := fun lv' hlv' => hsub (List.mem_cons_of_mem lv hlv')
    cases ha : cancelOf lv with
    | none =>
        have hkeys : cancelKeys g [lv] = [] := by simp [cancelKeys, planCancelAll, ha]
        have hclose : closeLevel lv = lv := by simp [closeLevel, ha]
        refine ⟨hclosing.next hclosing.sound ⟨g1, hg1, hacct⟩ (fun m => ?_) rfl (by rw [hkeys]; rfl), hsub', hindex⟩
        by_cases hne : m = lv.level
        · rw [if_pos hne, hne, hclose]
          exact hlv
        · rw [if_neg hne]
          rfl
    | some a =>
        have hkeys : cancelKeys g [lv] = [(g1.exchangeAccountId, a.orderId)] := by
          simp [cancelKeys, planCancelAll, ha, hacct]
        obtain ⟨ref, result, hkey, hanswer⟩ := hanswered _ (cancelKeys_mem (hsub List.mem_cons_self) ha)
        have hok := wp_cancelGridOrder_ok (w := w1) hg1 ha hlv (by rw [hacct, hindex]; exact hkey)
          (by rw [hclosing.oracle]; exact hanswer)
        refine wp_mono (wp_and hok (wp_cancelGridOrder hclosing.sound hg1 ha hlv)) ?_
        rintro r s2 w2 ⟨rfl, h2⟩
        obtain ⟨hs2, ⟨g2, hg2, hacct2⟩, hget2, rfl⟩ := h2 rfl
        refine ⟨hclosing.next hs2 ⟨g2, hg2, hacct2.trans hacct⟩ hget2 rfl (by rw [hkeys, hclosing.oracle]; rfl), hsub', ?_⟩
        simpa using hindex
  · rintro s1 w1 ⟨hclosing, -, -⟩
    refine ⟨rfl, ?_⟩
    rw [← hclosing.desk, ← hclosing.oracle]
    rfl

theorem wp_pauseGrid_answered {i : String} {g : GridState} {s : GridEngine} {w : World Owner} (hs : Sound ∅ s)
    (hg : s.grids i = some g) (hanswered : Answered g w) :
    wp handler (pauseGrid i)
      (fun _ _ w' => w' = { w with desk := w.desk.settleIds w.oracle (cancelKeys g g.levels) }) s w := by
  rw [pauseGrid, bind_eq, wp_bind, wp_read, andThen_ok]
  simp only [hg]
  rw [bind_eq, wp_bind]
  refine wp_mono (wp_cancelAll_answered hs hg hanswered) ?_
  rintro r s1 w1 ⟨rfl, rfl⟩
  rw [andThen_ok, bind_eq, wp_bind, wp_attemptGrids]
  split
  · rfl
  · rfl

theorem keeps_attemptGrids_world {P : World Owner → Prop} (f : State.Store → Except Exn (Unit × State.Store)) :
    Keeps handler (fun _ w => P w) (attemptGrids f) := by
  intro s w hw
  rw [wp_attemptGrids]
  split <;> exact hw

/-- A pause makes no order live. -/
theorem keeps_pauseGrid_live (d : Desk Owner) (i : String) :
    Keeps handler (fun _ w => LiveIn d w.desk) (pauseGrid i) := by
  have hcancel : ∀ a, Keeps handler (fun _ w => LiveIn d w.desk) (cancelGridOrder i a) := by
    intro a
    refine keeps_read_bind (fun s => ?_)
    cases s.grids i with
    | none => exact keeps_raise _
    | some g =>
        cases a.orderId with
        | none => exact keeps_ret _
        | some orderId =>
            refine keeps_bind (keeps_await (fun _ w hw => ?_)) (fun _ => ?_)
            · rw [handler_cancelOrder]
              exact hw.trans (fun r o ho hl => (settleById_live ho hl).1)
            · exact keeps_bind (keeps_attemptGrids_world _) (fun _ => keeps_attemptGrids_world _)
  refine keeps_read_bind (fun s => ?_)
  cases s.grids i with
  | none => exact keeps_raise _
  | some g =>
      refine keeps_bind (keeps_forEach (fun a _ => hcancel a)) (fun _ => ?_)
      exact keeps_bind (keeps_attemptGrids_world _) (fun _ => keeps_ret _)

end Utos.Grid.Cancelling
