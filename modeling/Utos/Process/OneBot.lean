import Utos.Process.Recovery

namespace Utos.Process.OneBot

open Coroutine Program Core Core.DomainTypes Core.Exceptions StateMachine Manager Lifecycle Runs Records Moves Recovery

variable {W : Type} {h : Handler W Req Ans} {row : TradingInstance}

def Active (row : TradingInstance) : Prop := row.status = .running ∨ row.status = .paused

def SameMarket (row other : TradingInstance) : Prop :=
  upper other.symbol = upper row.symbol ∧ other.exchangeAccountId = row.exchangeAccountId

/-- One active bot per market. -/
def OneBot (rows : Rows) : Prop :=
  ∀ i j row other, rows.get i = some row → rows.get j = some other → i ≠ j → Active row → Active other →
    ¬ SameMarket row other

/-- No other bot is active on the market of the row. -/
def Free (rows : Rows) (i : InstanceId) (row : TradingInstance) : Prop :=
  ∀ j other, rows.get j = some other → j ≠ i → Active other → ¬ SameMarket row other

/-- Whoever starts or resumes a bot that is not active finds its market free; a
start that its own check refuses may find it taken. -/
def Meets (x : System × W) : Event W → Prop
  | .call (.start _ i userId) => ∀ row, x.1.rows.get i = some row → row.userId = userId → row.status = .ready →
      (∀ other ∈ rowsWith x.1 .running, duplicates row other = false) → Free x.1.rows i row
  | .call (.resume _ i userId) => ∀ row, x.1.rows.get i = some row → row.userId = userId → row.status = .ready →
      Free x.1.rows i row
  | _ => True

theorem SameMarket.symm {row other : TradingInstance} (hm : SameMarket row other) : SameMarket other row :=
  ⟨hm.1.symm, hm.2.symm⟩

theorem market_of_sameBot {row' other : TradingInstance} (hsame : SameBot row row') :
    SameMarket row' other ↔ SameMarket row other := by
  rw [SameBot] at hsame
  rw [← hsame]
  rfl

/-- The invariant of a run; RECOVERED is never persisted. -/
structure Sound (rows : Rows) : Prop where
  keyed : Keyed rows
  recovered : ∀ i row, rows.get i = some row → row.status ≠ .recovered
  oneBot : OneBot rows

/-- A row is written that is not active, or was active before, or finds its market free. -/
theorem Sound.sets {rows rows' : Rows} {i : InstanceId} {row' : TradingInstance} (hs : Sound rows)
    (hsets : Sets rows i row' rows') (hid : row'.id = i) (hstatus : row'.status ≠ .recovered)
    (hactive : Active row' → Free rows i row') : Sound rows' := by
  have hget : ∀ j row, rows'.get j = some row → j = i ∧ row = row' ∨ j ≠ i ∧ rows.get j = some row := by
    intro j row hj
    rw [hsets j] at hj
    split at hj
    next he => cases hj; exact .inl ⟨he, rfl⟩
    next he => exact .inr ⟨he, hj⟩
  refine ⟨hs.keyed.sets hid hsets, fun j row hj => ?_, fun j k row other hj hk hne hrow hother => ?_⟩
  · rcases hget j row hj with ⟨-, rfl⟩ | ⟨-, hold⟩
    · exact hstatus
    · exact hs.recovered j row hold
  · rcases hget j row hj with ⟨rfl, rfl⟩ | ⟨hji, hj⟩
    · rcases hget k other hk with ⟨rfl, -⟩ | ⟨hki, hk⟩
      · exact absurd rfl hne
      · exact hactive hrow k other hk hki hother
    · rcases hget k other hk with ⟨rfl, rfl⟩ | ⟨-, hk⟩
      · exact fun hm => hactive hother j row hj hji hrow hm.symm
      · exact hs.oneBot j k row other hj hk hne hrow hother

theorem Sound.free {rows : Rows} {i : InstanceId} {row : TradingInstance} (hs : Sound rows)
    (hrow : rows.get i = some row) (hactive : Active row) : Free rows i row :=
  fun j other hj hne hother => hs.oneBot i j row other hrow hj (Ne.symm hne) hactive hother

theorem startable {status : TradingInstanceStatus} (hedge : .running ∈ transitions status)
    (hstatus : status ≠ .recovered) : status = .ready ∨ status = .paused := by
  revert hedge hstatus
  cases status <;> simp [transitions]

theorem pausable {status : TradingInstanceStatus} (hedge : .paused ∈ transitions status)
    (hstatus : status ≠ .recovered) : status = .running := by
  revert hedge hstatus
  cases status <;> simp [transitions]

theorem Sound.withStatus {rows rows' : Rows} {i : InstanceId} {row row0 : TradingInstance}
    {status : TradingInstanceStatus} (hs : Sound rows) (hrow : rows.get i = some row0) (hid : row.id = row0.id)
    (hsets : Sets rows i (row.withStatus status) rows') (hstatus : status ≠ .recovered)
    (hfree : status = .running ∨ status = .paused → Free rows i row) : Sound rows' :=
  hs.sets hsets (hid.trans (hs.keyed i row0 hrow)) hstatus hfree

theorem Sound.runs {rows rows' : Rows} {i : InstanceId} {row : TradingInstance} (hs : Sound rows)
    (hrow : rows.get i = some row) (hedge : .running ∈ transitions row.status)
    (hfree : row.status = .ready → Free rows i row) (hsets : Sets rows i (row.withStatus .running) rows') :
    Sound rows' := by
  refine hs.withStatus hrow rfl hsets (by simp) (fun _ => ?_)
  rcases startable hedge (hs.recovered i row hrow) with hready | hpaused
  · exact hfree hready
  · exact hs.free hrow (.inr hpaused)

theorem Sound.moved {x : System × W} {rows' : Rows} {c : Call} (hs : Sound x.1.rows)
    (hmeets : Meets x (.call c)) (hm : Moved x.1 rows' c) : Sound rows' := by
  cases hm with
  | created hnew hactive hsets =>
      exact hs.sets hsets rfl (by simp [newInstance]) (fun ha => by simp [Active, newInstance] at ha)
  | prepared hrow hedge hsets => exact hs.withStatus hrow rfl hsets (by simp) (fun ha => by simp at ha)
  | started hrow howner hedge hdup hsets =>
      exact hs.runs hrow hedge (fun hready => hmeets _ hrow howner hready hdup) hsets
  | resumed hrow howner hedge hsets =>
      exact hs.runs hrow hedge (fun hready => hmeets _ hrow howner hready) hsets
  | paused hrow hedge hsets =>
      refine hs.withStatus hrow rfl hsets (by simp) (fun _ => ?_)
      exact hs.free hrow (.inl (pausable hedge (hs.recovered _ _ hrow)))
  | @stopped w i userId row hrow hedge hsets =>
      have hid : row.id = i := hs.keyed i row hrow
      exact hs.sets hsets hid (by simp [TradingInstance.withStatus])
        (fun ha => by simp [Active, TradingInstance.withStatus] at ha)

theorem Sound.restarted {rows rows' : Rows} (hs : Sound rows) (hr : Restarted rows rows') : Sound rows' := by
  have hback : ∀ i row', rows'.get i = some row' → row'.status ≠ .recovered ∧ (Active row' →
      ∃ row, rows.get i = some row ∧ Active row ∧ ∀ other, SameMarket row' other ↔ SameMarket row other) := by
    intro i row' hrow'
    rcases hr i with hsame | ⟨row, row'', hrow, hrow'', hsame, hend⟩
    · rw [hsame] at hrow'
      exact ⟨hs.recovered i row' hrow', fun ha => ⟨row', hrow', ha, fun _ => Iff.rfl⟩⟩
    · rw [hrow'] at hrow''
      cases hrow''
      rcases hend with herr | ⟨hstatus, hlive⟩
      · exact ⟨by simp [herr], fun ha => by simp [Active, herr] at ha⟩
      · refine ⟨hstatus ▸ hs.recovered i row hrow, fun _ => ⟨row, hrow, hlive, fun _ => market_of_sameBot hsame⟩⟩
  refine ⟨hr.keyed hs.keyed, fun i row' hrow' => (hback i row' hrow').1, ?_⟩
  intro i j row' other' hrow' hother' hne hactive hactive' hm
  obtain ⟨row, hrow, ha, hmarket⟩ := (hback i row' hrow').2 hactive
  obtain ⟨other, hother, ha', hmarket'⟩ := (hback j other' hother').2 hactive'
  exact hs.oneBot i j row other hrow hother hne ha ha' ((hmarket' row).mp ((hmarket other').mp hm).symm).symm

theorem Sound.step {x : System × W} {e : Event W} (hs : Sound x.1.rows) (hmeets : Meets x e) :
    Sound (step h x e).1.rows := by
  cases e with
  | call c =>
      by_cases hc : ∀ w, c ≠ .recover w
      · rcases perform_moves (ω := x.2) (h := h) hs.keyed hc with hsame | hm
        · exact hsame ▸ hs
        · exact hs.moved hmeets hm
      · obtain ⟨w, rfl⟩ : ∃ w, c = .recover w := by simpa using hc
        exact hs.restarted (perform_restarts hs.keyed)
  | restart w gridUp hubUp => exact hs
  | expire i => exact hs
  | world ω => exact hs

/-- In a run in which every bot finds its market free when it becomes active,
there is one active bot per market at every point. -/
theorem oneBot_of_allMeet {x : System × W} (hstart : x.1.rows = ∅) {events : List (Event W)}
    (hmeets : AllMeet (step h) Meets x events) : OneBot (runEvents h x events).1.rows := by
  have hsound : Sound x.1.rows := by
    rw [hstart]
    constructor
    · intro i row hrow
      simp at hrow
    · intro i row hrow
      simp at hrow
    · intro i j row other hrow
      simp at hrow
  exact (foldl_of_allMeet (I := fun x => Sound x.1.rows) (fun x e hs he => hs.step he) hsound hmeets).oneBot

theorem free_of_single {rows : Rows} {i : InstanceId} {row : TradingInstance} (hrows : rows.entries = [(i, row)])
    (row' : TradingInstance) : Free rows i row' := by
  intro j other hother hne
  have hmem := Dict.mem_of_get hother
  rw [hrows, List.mem_singleton] at hmem
  cases hmem
  exact absurd rfl hne

theorem oneBot_of_allMeet_oneBot :
    OneBot (runEvents unwired ({}, ())
      [.call (.createProcess "a" (botArgs 1)), .call (.prepare "a" 1), .call (.start 0 "a" 1)]).1.rows := by
  refine oneBot_of_allMeet rfl ⟨trivial, trivial, fun row _ _ _ _ => ?_, trivial⟩
  exact free_of_single (show _ = [("a", (newInstance "a" (botArgs 1)).withStatus .ready)] by decide +kernel) row

/-- Two bots for one market, with different strategies. -/
def twoBots : List (Event Unit) :=
  [.call (.createProcess "a" (botArgs 1)), .call (.createProcess "b" (botArgs 2)), .call (.prepare "a" 1),
    .call (.prepare "b" 1), .call (.start 0 "a" 1)]

theorem secondBot_shares_market :
    ¬ OneBot (runEvents unwired ({}, ()) (twoBots ++ [.call (.start 0 "b" 1)])).1.rows := by
  intro h
  have hclash := h "a" "b" ((newInstance "a" (botArgs 1)).withStatus .ready |>.withStatus .running)
    ((newInstance "b" (botArgs 2)).withStatus .ready |>.withStatus .running) (by decide +kernel)
    (by decide +kernel) (by decide) (.inl rfl) (.inl rfl)
  exact hclash ⟨rfl, rfl⟩

end Utos.Process.OneBot
