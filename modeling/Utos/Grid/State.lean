import Utos.Core.DomainTypes
import Utos.Core.Exceptions

namespace Utos.Grid.State

open Core.DomainTypes Core.Exceptions

/-- GridStateMachine.GRID_TRANSITIONS -/
def gridTransitions : GridStatus → List GridStatus
  | .idle => [.initialized]
  | .initialized => [.active, .error]
  | .active => [.paused, .completed, .error]
  | .paused => [.active, .completed, .error]
  | .error => [.active, .paused]
  | .completed => []

/-- GridStateMachine.LEVEL_TRANSITIONS -/
def levelTransitions : GridLevelStatus → List GridLevelStatus
  | .waiting => [.opened, .cancelled]
  | .opened => [.filled, .cancelled, .waiting, .tpHit]
  | .filled => [.opened, .tpHit, .cancelled]
  | .tpHit => [.waiting, .opened]
  | .cancelled => [.waiting]

def validateGridTransition (source target : GridStatus) : Except Exn Unit :=
  if target ∈ gridTransitions source then .ok ()
  else .error (.invalidStateTransition s!"Invalid grid transition: {source.value} → {target.value}"
    source.value target.value)

def validateLevelTransition (source target : GridLevelStatus) : Except Exn Unit :=
  if target ∈ levelTransitions source then .ok ()
  else .error (.invalidStateTransition s!"Invalid grid level transition: {source.value} → {target.value}"
    source.value target.value)

/-- GridStateStore: the grids by instance id. -/
abbrev Store := String → Option GridState

/-- The first level carrying the number, as the loops of the store find it. -/
def findLevel (n : Nat) (levels : List GridLevel) : Option GridLevel :=
  levels.find? (fun lv => lv.level = n)

def modifyLevel (n : Nat) (f : GridLevel → GridLevel) : List GridLevel → List GridLevel
  | [] => []
  | lv :: rest => if lv.level = n then f lv :: rest else lv :: modifyLevel n f rest

def setStatus (target : GridLevelStatus) (lv : GridLevel) : GridLevel := { lv with status := target }

namespace Store

def put (store : Store) (instanceId : String) (state : GridState) : Store :=
  Function.update store instanceId (some state)

def getLevel (store : Store) (instanceId : String) (n : Nat) : Option GridLevel :=
  (store instanceId).bind (fun g => findLevel n g.levels)

def listLevels (store : Store) (instanceId : String) : List GridLevel :=
  match store instanceId with
  | none => []
  | some g => g.levels

/-- Assign to attributes of the level object held by the store. -/
def assignLevel (store : Store) (instanceId : String) (n : Nat) (f : GridLevel → GridLevel) : Store :=
  match store instanceId with
  | none => store
  | some g => store.put instanceId { g with levels := modifyLevel n f g.levels }

/-- Assign to attributes of the grid object held by the store. -/
def assignGrid (store : Store) (instanceId : String) (f : GridState → GridState) : Store :=
  match store instanceId with
  | none => store
  | some g => store.put instanceId (f g)

def transitionGrid (store : Store) (instanceId : String) (target : GridStatus) : Except Exn (Unit × Store) :=
  match store instanceId with
  | none => .error (.gridError s!"Grid not found for instance {instanceId}")
  | some g => do
      validateGridTransition g.status target
      return ((), store.put instanceId { g with status := target })

def transitionLevel (store : Store) (instanceId : String) (n : Nat) (target : GridLevelStatus) :
    Except Exn (Unit × Store) :=
  match store instanceId with
  | none => .error (.gridError s!"Grid not found for instance {instanceId}")
  | some g => match findLevel n g.levels with
    | none => .error (.gridError s!"Grid level {n} not found for instance {instanceId}")
    | some lv => do
        validateLevelTransition lv.status target
        return ((), store.assignLevel instanceId n (setStatus target))

def updateLevel (store : Store) (instanceId : String) (n : Nat) (f : GridLevel → GridLevel) :
    Except Exn (Unit × Store) :=
  match store.getLevel instanceId n with
  | none => .error (.gridError s!"Grid level {n} not found for instance {instanceId}")
  | some _ => .ok ((), store.assignLevel instanceId n f)

end Store

theorem modifyLevel_levels (n : Nat) (f : GridLevel → GridLevel) (hf : ∀ lv, (f lv).level = lv.level)
    (levels : List GridLevel) :
    (modifyLevel n f levels).map GridLevel.level = levels.map GridLevel.level := by
  induction levels with
  | nil => rfl
  | cons lv rest ih =>
      by_cases hn : lv.level = n
      · simp [modifyLevel, hn, hf]
      · simp [modifyLevel, hn, ih]

theorem findLevel_modifyLevel (n m : Nat) (f : GridLevel → GridLevel) (hf : ∀ lv, (f lv).level = lv.level)
    (levels : List GridLevel) :
    findLevel m (modifyLevel n f levels) =
      if m = n then (findLevel n levels).map f else findLevel m levels := by
  induction levels with
  | nil => simp [modifyLevel, findLevel]
  | cons lv rest ih =>
      by_cases hn : lv.level = n
      · by_cases hm : m = n
        · simp [modifyLevel, findLevel, hn, hf, hm]
        · have hne : ¬ n = m := Ne.symm hm
          simp [modifyLevel, findLevel, hn, hf, hm, hne]
      · by_cases hm : m = n
        · subst hm
          simpa [modifyLevel, findLevel, hn] using ih
        · by_cases hl : lv.level = m
          · simp [modifyLevel, findLevel, hm, hl]
          · simpa [modifyLevel, findLevel, hn, hm, hl] using ih

theorem findLevel_mem {n : Nat} {levels : List GridLevel} {lv : GridLevel}
    (h : findLevel n levels = some lv) : lv ∈ levels ∧ lv.level = n :=
  ⟨List.mem_of_find?_eq_some h, by simpa using List.find?_some h⟩

theorem findLevel_of_mem {levels : List GridLevel} (hn : (levels.map GridLevel.level).Nodup)
    {lv : GridLevel} (h : lv ∈ levels) : findLevel lv.level levels = some lv := by
  induction levels with
  | nil => simp at h
  | cons a rest ih =>
      simp only [List.map_cons, List.nodup_cons] at hn
      rcases List.mem_cons.mp h with rfl | hr
      · simp [findLevel]
      · have hne : a.level ≠ lv.level := fun he => hn.1 (he ▸ List.mem_map_of_mem hr)
        simpa [findLevel, hne] using ih hn.2 hr

namespace Store

theorem getLevel_put (store : Store) (i j : String) (g : GridState) (n : Nat) :
    (store.put i g).getLevel j n = if j = i then findLevel n g.levels else store.getLevel j n := by
  by_cases hj : j = i
  · subst hj; simp [put, getLevel]
  · simp [put, getLevel, hj]

theorem getLevel_eq {store : Store} {i : String} {g : GridState} (hg : store i = some g) (n : Nat) :
    store.getLevel i n = findLevel n g.levels := by
  simp [getLevel, hg]

theorem getLevel_assignLevel (store : Store) (i : String) (n : Nat) (f : GridLevel → GridLevel)
    (hf : ∀ lv, (f lv).level = lv.level) (j : String) (m : Nat) :
    (store.assignLevel i n f).getLevel j m =
      if j = i ∧ m = n then (store.getLevel i n).map f else store.getLevel j m := by
  unfold assignLevel
  cases hg : store i with
  | none =>
      by_cases hj : j = i
      · subst hj; simp [getLevel, hg]
      · simp [hj]
  | some g =>
      simp only [getLevel_put, getLevel_eq hg, findLevel_modifyLevel n m f hf]
      by_cases hj : j = i
      · subst hj; by_cases hm : m = n <;> simp [hm, getLevel_eq hg]
      · simp [hj]

theorem getLevel_assignGrid (store : Store) (i : String) (f : GridState → GridState)
    (hf : ∀ g, (f g).levels = g.levels) (j : String) (n : Nat) :
    (store.assignGrid i f).getLevel j n = store.getLevel j n := by
  unfold assignGrid
  cases hg : store i with
  | none => rfl
  | some g =>
      rw [getLevel_put]
      by_cases hj : j = i
      · subst hj; rw [if_pos rfl, hf, getLevel_eq hg]
      · rw [if_neg hj]

theorem transitionLevel_ok {store store' : Store} {i : String} {n : Nat} {target : GridLevelStatus}
    (h : store.transitionLevel i n target = .ok ((), store')) :
    ∃ lv, store.getLevel i n = some lv ∧ target ∈ levelTransitions lv.status ∧
      store' = store.assignLevel i n (setStatus target) := by
  unfold transitionLevel at h
  cases hg : store i with
  | none => simp [hg] at h
  | some g =>
      simp only [hg] at h
      cases hl : findLevel n g.levels with
      | none => simp [hl] at h
      | some lv =>
          simp only [hl, validateLevelTransition] at h
          by_cases ht : target ∈ levelTransitions lv.status
          · simp only [ht, if_true, bind, Except.bind, pure, Except.pure, Except.ok.injEq, Prod.mk.injEq,
              true_and] at h
            exact ⟨lv, by rw [getLevel_eq hg, hl], ht, h.symm⟩
          · simp [ht, bind, Except.bind] at h

theorem transitionLevel_eq {store : Store} {i : String} {n : Nat} {target : GridLevelStatus} {lv : GridLevel}
    (hlv : store.getLevel i n = some lv) (ht : target ∈ levelTransitions lv.status) :
    store.transitionLevel i n target = .ok ((), store.assignLevel i n (setStatus target)) := by
  obtain ⟨g, hg, hfind⟩ := Option.bind_eq_some_iff.mp hlv
  simp only [transitionLevel, hg, hfind, validateLevelTransition, if_pos ht]
  rfl

theorem updateLevel_ok {store store' : Store} {i : String} {n : Nat} {f : GridLevel → GridLevel}
    (h : store.updateLevel i n f = .ok ((), store')) :
    (∃ lv, store.getLevel i n = some lv) ∧ store' = store.assignLevel i n f := by
  unfold updateLevel at h
  cases hl : store.getLevel i n with
  | none => simp [hl] at h
  | some lv =>
      simp only [hl, Except.ok.injEq, Prod.mk.injEq, true_and] at h
      exact ⟨⟨lv, rfl⟩, h.symm⟩

theorem transitionGrid_ok {store store' : Store} {i : String} {target : GridStatus}
    (h : store.transitionGrid i target = .ok ((), store')) :
    ∃ g, store i = some g ∧ target ∈ gridTransitions g.status ∧
      store' = store.put i { g with status := target } := by
  unfold transitionGrid at h
  cases hg : store i with
  | none => simp [hg] at h
  | some g =>
      simp only [hg, validateGridTransition] at h
      by_cases ht : target ∈ gridTransitions g.status
      · simp only [ht, if_true, bind, Except.bind, pure, Except.pure, Except.ok.injEq, Prod.mk.injEq,
          true_and] at h
        exact ⟨g, rfl, ht, h.symm⟩
      · simp [ht, bind, Except.bind] at h

theorem transitionGrid_eq {store : Store} {i : String} {target : GridStatus} {g : GridState} (hg : store i = some g)
    (ht : target ∈ gridTransitions g.status) :
    store.transitionGrid i target = .ok ((), store.put i { g with status := target }) := by
  simp only [transitionGrid, hg, validateGridTransition, if_pos ht]
  rfl

end Store

end Utos.Grid.State
