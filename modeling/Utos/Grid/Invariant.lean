import Utos.Grid.Engine

namespace Utos.Grid.Invariant

open Coroutine Program Core.DomainTypes Core.Exceptions Execution.Models Execution.Service State
open CircuitBreaker Planner Calculator Engine
open ProfitLock.State (ProfitLockState ProfitLockStatus)

def Numbered (grids : State.Store) : Prop :=
  ∀ i g, grids i = some g → (g.levels.map GridLevel.level).Nodup

/-- Every lock guards a long position, and one that is not enabled is in status DISABLED. -/
def LocksOk (locks : Locks) : Prop :=
  ∀ k st, locks k = some st → st.side = "long" ∧ (st.enabled = false → st.status = .disabled)

def Off (locks : Locks) (k : LevelKey) : Prop := ∀ st, locks k = some st → st.enabled = false

/-- The invariant of the engines, where the locks of K are known to be off. -/
structure Sound (K : Set LevelKey) (s : GridEngine) : Prop where
  numbered : Numbered s.grids
  locksOk : LocksOk s.locks
  off : ∀ k ∈ K, Off s.locks k

theorem Numbered.put {grids : State.Store} (h : Numbered grids) {i : String} {g : GridState}
    (hg : (g.levels.map GridLevel.level).Nodup) : Numbered (grids.put i g) := by
  intro j g' hj
  by_cases hji : j = i
  · subst hji; simp only [State.Store.put, Function.update_self, Option.some.injEq] at hj; exact hj ▸ hg
  · simp only [State.Store.put, Function.update_of_ne hji] at hj; exact h j g' hj

theorem Numbered.assignGrid {grids : State.Store} (h : Numbered grids) (i : String)
    (f : GridState → GridState) (hf : ∀ g, (f g).levels = g.levels) : Numbered (grids.assignGrid i f) := by
  unfold State.Store.assignGrid
  cases hg : grids i with
  | none => exact h
  | some g => exact h.put (by rw [hf]; exact h i g hg)

theorem Numbered.assignLevel {grids : State.Store} (h : Numbered grids) (i : String) (n : Nat)
    (f : GridLevel → GridLevel) (hf : ∀ lv, (f lv).level = lv.level) : Numbered (grids.assignLevel i n f) := by
  unfold State.Store.assignLevel
  cases hg : grids i with
  | none => exact h
  | some g => exact h.put (by simpa only [modifyLevel_levels n f hf] using h i g hg)

theorem setOrderId_level (side : OrderSide) (orderId : OrderId) (lv : GridLevel) :
    (setOrderId side orderId lv).level = lv.level := by
  cases side <;> rfl

theorem Sound.putLock {K : Set LevelKey} {s : GridEngine} (h : Sound K s) {k : LevelKey}
    {st st' : ProfitLockState} (hk : s.locks k = some st) (hside : st'.side = st.side)
    (hon : st'.enabled = false → st'.status = .disabled) (hoff : st.enabled = false → st'.enabled = false) :
    Sound K { s with locks := s.locks.put k st' } := by
  refine ⟨h.numbered, ?_, ?_⟩
  · intro j st'' hj
    by_cases hjk : j = k
    · subst hjk
      simp only [ProfitLock.State.Store.put, Function.update_self, Option.some.injEq] at hj
      subst hj
      exact ⟨hside.trans (h.locksOk j st hk).1, hon⟩
    · simp only [ProfitLock.State.Store.put, Function.update_of_ne hjk] at hj
      exact h.locksOk j st'' hj
  · intro j hjK st'' hj
    by_cases hjk : j = k
    · subst hjk
      simp only [ProfitLock.State.Store.put, Function.update_self, Option.some.injEq] at hj
      exact hj ▸ hoff (h.off j hjK st hk)
    · simp only [ProfitLock.State.Store.put, Function.update_of_ne hjk] at hj
      exact h.off j hjK st'' hj

/-- No operation but enable leads out of DISABLED. -/
theorem Sound.transition {K : Set LevelKey} {s : GridEngine} (h : Sound K s) {k : LevelKey}
    {target : ProfitLockStatus} (ht : target ≠ .monitoring ∧ target ≠ .cancelled) {locks' : Locks}
    (hl : s.locks.transition k target = .ok ((), locks')) : Sound K { s with locks := locks' } := by
  obtain ⟨st, hk, hmem, rfl⟩ := ProfitLock.State.Store.transition_ok hl
  refine h.putLock hk rfl (fun hoff => ?_) id
  rw [(h.locksOk k st hk).2 hoff] at hmem
  simp [ProfitLock.State.transitions, ht] at hmem

theorem Sound.assignLock {K : Set LevelKey} {s : GridEngine} (h : Sound K s) (k : LevelKey)
    (f : ProfitLockState → ProfitLockState) (hside : ∀ st, (f st).side = st.side)
    (hen : ∀ st, (f st).enabled = st.enabled) (hst : ∀ st, (f st).status = st.status) :
    Sound K { s with locks := s.locks.assign k f } := by
  unfold ProfitLock.State.Store.assign
  cases hk : s.locks k with
  | none => exact h
  | some st =>
      refine h.putLock hk (hside st) (fun hoff => ?_) (fun hoff => (hen st).trans hoff)
      rw [hst]
      exact (h.locksOk k st hk).2 ((hen st) ▸ hoff)

variable {K : Set LevelKey} {s : GridEngine}

theorem Sound.withGrids (hs : Sound K s) {grids : State.Store} (h : Numbered grids) :
    Sound K { s with grids := grids } := ⟨h, hs.locksOk, hs.off⟩

theorem Sound.withBreakers (hs : Sound K s) (b : String → Option CircuitBreakerState) :
    Sound K { s with breakers := b } := ⟨hs.numbered, hs.locksOk, hs.off⟩

theorem numbered_listLevels {grids : State.Store} (h : Numbered grids) (i : String) :
    ((grids.listLevels i).map GridLevel.level).Nodup := by
  unfold State.Store.listLevels
  split
  · simp
  · next g hg => exact h i g hg

theorem getLevel_of_mem_listLevels {grids : State.Store} (h : Numbered grids) {i : String} {lv : GridLevel}
    (hlv : lv ∈ grids.listLevels i) : grids.getLevel i lv.level = some lv := by
  unfold State.Store.listLevels at hlv
  split at hlv
  · simp at hlv
  · next g hg =>
      rw [State.Store.getLevel_eq hg]
      exact findLevel_of_mem (h i g hg) hlv

theorem mem_listLevels_of_getLevel {grids : State.Store} {i : String} {n : Nat} {lv : GridLevel}
    (h : grids.getLevel i n = some lv) : lv ∈ grids.listLevels i ∧ lv.level = n := by
  unfold State.Store.getLevel at h
  unfold State.Store.listLevels
  cases hg : grids i with
  | none => simp [hg] at h
  | some g =>
      simp only [hg, Option.bind_some] at h
      exact findLevel_mem h

end Utos.Grid.Invariant
