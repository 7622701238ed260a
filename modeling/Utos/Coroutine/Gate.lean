import Mathlib.Data.List.Perm.Basic
import Mathlib.Data.List.Range

namespace Utos.Coroutine

variable {ρ : Type}

/-- Jobs behind a semaphore: how many more it lets in, those that wait in line, those that are in, and
those that have ended, with what they ended with. -/
structure Gate (ρ : Type) where
  value : Nat
  waiters : List Nat := []
  inside : List Nat := []
  ended : List (Nat × ρ) := []

namespace Gate

def acquire (g : Gate ρ) (i : Nat) : Gate ρ :=
  if 0 < g.value ∧ g.waiters = [] then { g with value := g.value - 1, inside := g.inside ++ [i] }
  else { g with waiters := g.waiters ++ [i] }

/-- The permit goes to the first in line. -/
def release (g : Gate ρ) : Gate ρ :=
  match g.waiters with
  | [] => { g with value := g.value + 1 }
  | i :: rest => { g with waiters := rest, inside := g.inside ++ [i] }

def finish (g : Gate ρ) (i : Nat) (r : ρ) : Gate ρ :=
  if i ∈ g.inside then release { g with inside := g.inside.erase i, ended := g.ended ++ [(i, r)] } else g

/-- The permits are those of the semaphore, one is free only when nobody waits, and every job that came
waits, is in or has ended. -/
structure Sound (permits : Nat) (jobs : List Nat) (g : Gate ρ) : Prop where
  permits : g.value + g.inside.length = permits
  full : g.waiters ≠ [] → g.value = 0
  jobs : (g.inside ++ g.waiters ++ g.ended.map Prod.fst).Perm jobs

variable {g : Gate ρ} {permits i : Nat} {jobs : List Nat}

theorem sound_open (permits : Nat) : Sound permits [] ({ value := permits } : Gate ρ) :=
  ⟨rfl, fun h => absurd rfl h, List.Perm.refl _⟩

namespace Sound

theorem acquire (h : g.Sound permits jobs) (i : Nat) : (g.acquire i).Sound permits (jobs ++ [i]) := by
  have hlast : ∀ xs ys : List Nat, (xs ++ [i] ++ ys).Perm (xs ++ ys ++ [i]) := by
    intro xs ys
    rw [List.append_assoc, List.append_assoc]
    exact List.perm_append_comm.append_left xs
  unfold Gate.acquire
  split
  next hfree =>
    refine ⟨?_, fun hwaiters => absurd hfree.2 hwaiters, ?_⟩
    · have hpermits := h.permits
      simp only [List.length_append, List.length_singleton]
      omega
    · have hjobs := h.jobs
      rw [hfree.2, List.append_nil] at hjobs
      simp only [hfree.2, List.append_nil]
      exact (hlast _ _).trans (hjobs.append_right [i])
  next hbusy =>
    refine ⟨h.permits, fun _ => ?_, ?_⟩
    · by_contra hvalue
      refine hvalue (h.full (fun hnone => hbusy ⟨Nat.pos_of_ne_zero hvalue, hnone⟩))
    · rw [← List.append_assoc]
      exact (hlast _ _).trans (h.jobs.append_right [i])

theorem finish (h : g.Sound permits jobs) (i : Nat) (r : ρ) : (g.finish i r).Sound permits jobs := by
  unfold Gate.finish
  split
  next hi =>
    have hlength := List.length_erase_add_one hi
    have hpermits := h.permits
    have hmoved : (g.inside.erase i ++ g.waiters ++ (g.ended ++ [(i, r)]).map Prod.fst).Perm jobs := by
      refine List.Perm.trans ?_ h.jobs
      rw [List.map_append, List.map_singleton, ← List.append_assoc]
      refine (List.perm_append_singleton i _).trans ?_
      rw [← List.cons_append, ← List.cons_append]
      exact ((List.perm_cons_erase hi).symm.append_right _).append_right _
    unfold Gate.release
    split
    next hwaiters =>
      dsimp only at hwaiters
      exact ⟨by dsimp only; omega, fun hne => absurd hwaiters hne, hmoved⟩
    next first rest hwaiters =>
      dsimp only at hwaiters
      have hfull : g.value = 0 := h.full (by rw [hwaiters]; exact List.cons_ne_nil _ _)
      refine ⟨?_, fun _ => hfull, ?_⟩
      · simp only [List.length_append, List.length_singleton]
        omega
      · simp only [hwaiters] at hmoved ⊢
        rwa [List.append_assoc (g.inside.erase i), List.singleton_append]
  next => exact h

/-- No more are in than there are permits. -/
theorem bounded (h : g.Sound permits jobs) : g.inside.length ≤ permits := by
  have hpermits := h.permits
  omega

/-- As long as a job has not ended, one is in. -/
theorem live (h : g.Sound permits jobs) (hpermits : 0 < permits) (hless : g.ended.length < jobs.length) : g.inside ≠ [] := by
  intro hnone
  have hvalue := h.permits
  rw [hnone, List.length_nil, Nat.add_zero] at hvalue
  have hwaiters : g.waiters = [] := by
    by_contra hne
    rw [h.full hne] at hvalue
    exact hpermits.ne hvalue
  have hlength := h.jobs.length_eq
  rw [hnone, hwaiters, List.nil_append, List.nil_append, List.length_map] at hlength
  exact hless.ne hlength

theorem ended_perm (h : g.Sound permits jobs) (hall : g.ended.length = jobs.length) : (g.ended.map Prod.fst).Perm jobs := by
  have hlength := h.jobs.length_eq
  rw [List.length_append, List.length_map, hall] at hlength
  have hnone : g.inside ++ g.waiters = [] := List.eq_nil_of_length_eq_zero (by omega)
  have hjobs := h.jobs
  rwa [hnone, List.nil_append] at hjobs

end Sound

end Gate

end Utos.Coroutine
