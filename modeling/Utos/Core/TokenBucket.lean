import Mathlib.Algebra.BigOperators.Group.List.Basic
import Mathlib.Algebra.Order.BigOperators.Group.List
import Mathlib.Algebra.Order.Field.Basic
import Mathlib.Tactic.Linarith
import Mathlib.Tactic.Ring

namespace Utos.Core.TokenBucket

section

variable {K : Type} [Field K]

def total (ws : List (K × K)) : K := (ws.map Prod.snd).sum

@[simp] theorem total_nil : total ([] : List (K × K)) = 0 := rfl

@[simp] theorem total_cons (w : K × K) (ws : List (K × K)) : total (w :: ws) = w.2 + total ws := by
  simp [total]

@[simp] theorem total_append (ws ws' : List (K × K)) : total (ws ++ ws') = total ws + total ws' := by
  simp [total]

end

section

variable {K : Type} [Field K] [LinearOrder K]

/-- A bucket that holds up to a capacity and is filled at a rate. -/
structure Config (K : Type) where
  capacity : K
  rate : K

/-- What is in a bucket, and since when. -/
structure Bucket (K : Type) where
  level : K
  since : K

/-- What a bucket holds at a later time if nothing is taken out. -/
def levelAt (c : Config K) (b : Bucket K) (now : K) : K := min c.capacity (b.level + (now - b.since) * c.rate)

def take (c : Config K) (b : Bucket K) (now amount : K) : Bucket K := ⟨levelAt c b now - amount, now⟩

/-- The bucket after withdrawals, each given with its time. -/
def drawn (c : Config K) (b : Bucket K) (ws : List (K × K)) : Bucket K := ws.foldl (fun b w => take c b w.1 w.2) b

/-- Withdrawals in the order of their times, of which each finds what it takes. -/
def Conforms (c : Config K) : Bucket K → List (K × K) → Prop
  | _, [] => True
  | b, w :: ws => b.since ≤ w.1 ∧ 0 ≤ w.2 ∧ w.2 ≤ levelAt c b w.1 ∧ Conforms c (take c b w.1 w.2) ws

/-- What is taken out in a window of time, its ends included. -/
def within (start stop : K) (ws : List (K × K)) : K := total (ws.filter (fun w => start ≤ w.1 ∧ w.1 ≤ stop))

variable {c : Config K} {b : Bucket K} {ws : List (K × K)} {start stop : K}

@[simp] theorem levelAt_le (c : Config K) (b : Bucket K) (now : K) : levelAt c b now ≤ c.capacity := min_le_left _ _

theorem Conforms.since_le (h : Conforms c b ws) : ∀ w ∈ ws, b.since ≤ w.1 ∧ 0 ≤ w.2 := by
  induction ws generalizing b with
  | nil => exact fun w hw => by cases hw
  | cons v ws ih =>
      obtain ⟨hsince, hnonneg, -, hrest⟩ := h
      rintro w (_ | ⟨_, hw⟩)
      · exact ⟨hsince, hnonneg⟩
      · exact ⟨hsince.trans (ih hrest w hw).1, (ih hrest w hw).2⟩

theorem conforms_append {ws' : List (K × K)} :
    Conforms c b (ws ++ ws') ↔ Conforms c b ws ∧ Conforms c (drawn c b ws) ws' := by
  induction ws generalizing b with
  | nil => simp [Conforms, drawn]
  | cons w ws ih => simp only [List.cons_append, Conforms, drawn, List.foldl_cons, ih, and_assoc]

theorem drawn_concat (w : K × K) : drawn c b (ws ++ [w]) = take c (drawn c b ws) w.1 w.2 := by simp [drawn]

theorem within_cons (w : K × K) : within start stop (w :: ws) =
    (if start ≤ w.1 ∧ w.1 ≤ stop then w.2 else 0) + within start stop ws := by
  rw [within, within, List.filter_cons]
  by_cases h : start ≤ w.1 ∧ w.1 ≤ stop
  · rw [if_pos (decide_eq_true h), if_pos h, total_cons]
  · rw [if_neg (by simpa using h), if_neg h, zero_add]

/-- If one is taken out each time, a window sees as many as there are times in it. -/
theorem within_ones (ts : List K) : within start stop (ts.map (fun t => (t, 1))) =
    (ts.countP (fun t => start ≤ t ∧ t ≤ stop) : K) := by
  induction ts with
  | nil => simp [within]
  | cons t ts ih =>
      rw [List.map_cons, within_cons, ih, List.countP_cons]
      by_cases h : start ≤ t ∧ t ≤ stop
      · simp [h, add_comm]
      · simp [h]

theorem within_of_start_le (h : ∀ w ∈ ws, start ≤ w.1) :
    within start stop ws = total (ws.filter (fun w => w.1 ≤ stop)) := by
  refine congrArg total (List.filter_congr (fun w hw => ?_))
  simp [h w hw]

/-- The level of a bucket goes back to a time at which it was full. -/
def FullAt (c : Config K) (b : Bucket K) (start : K) (ws : List (K × K)) : Prop :=
  start ≤ b.since ∧ (∀ w ∈ ws, start ≤ w.1 ∧ w.1 ≤ b.since) ∧
    b.level = c.capacity + (b.since - start) * c.rate - total ws

/-- A later withdrawal goes back to the same time, or to its own. -/
theorem FullAt.take (amount : K) {now : K} (h : FullAt c b start ws) (hnow : b.since ≤ now) :
    FullAt c (take c b now amount) start (ws ++ [(now, amount)]) ∨
      FullAt c (TokenBucket.take c b now amount) now [(now, amount)] := by
  obtain ⟨hstart, hbefore, hlevel⟩ := h
  rcases min_choice c.capacity (b.level + (now - b.since) * c.rate) with hmin | hmin
  · right
    refine ⟨le_rfl, by simp [TokenBucket.take], ?_⟩
    simp [TokenBucket.take, levelAt, hmin]
  · left
    have hlevelAt : levelAt c b now = b.level + (now - b.since) * c.rate := hmin
    refine ⟨hstart.trans hnow, fun w hw => ?_, ?_⟩
    · rcases List.mem_append.mp hw with hw | hw
      · exact ⟨(hbefore w hw).1, (hbefore w hw).2.trans hnow⟩
      · rw [List.mem_singleton] at hw
        subst hw
        exact ⟨hstart.trans hnow, le_rfl⟩
    · simp only [TokenBucket.take, hlevelAt, hlevel, total_append, total_cons, total_nil]
      ring

end

variable {K : Type} [Field K] [LinearOrder K] [IsStrictOrderedRing K]
variable {c : Config K} {b : Bucket K} {ws : List (K × K)} {now t start stop : K}

theorem total_nonneg (h : ∀ w ∈ ws, 0 ≤ w.2) : 0 ≤ total ws := by
  refine List.sum_nonneg (fun x hx => ?_)
  obtain ⟨w, hw, rfl⟩ := List.mem_map.mp hx
  exact h w hw

theorem level_le_levelAt (hrate : 0 ≤ c.rate) (hlevel : b.level ≤ c.capacity) (h : b.since ≤ now) :
    b.level ≤ levelAt c b now :=
  le_min hlevel (le_add_of_nonneg_right (mul_nonneg (sub_nonneg.mpr h) hrate))

/-- To have looked at a bucket makes no difference to what it holds later. -/
theorem levelAt_levelAt (hrate : 0 ≤ c.rate) (h : now ≤ t) :
    levelAt c ⟨levelAt c b now, now⟩ t = levelAt c b t := by
  have hpart : 0 ≤ (t - now) * c.rate := mul_nonneg (sub_nonneg.mpr h) hrate
  have hsum : b.level + (now - b.since) * c.rate + (t - now) * c.rate = b.level + (t - b.since) * c.rate := by ring
  simp only [levelAt]
  rw [← min_add_add_right, hsum, ← min_assoc, min_eq_left (le_add_of_nonneg_right hpart)]

/-- Nothing is taken out that was not in the bucket, or has not come in since. -/
theorem Conforms.total_le (hrate : 0 ≤ c.rate) (h : Conforms c b ws) (hlevel : 0 ≤ b.level) (hstop : b.since ≤ stop) :
    total (ws.filter (fun w => w.1 ≤ stop)) ≤ b.level + (stop - b.since) * c.rate := by
  induction ws generalizing b with
  | nil => exact add_nonneg hlevel (mul_nonneg (sub_nonneg.mpr hstop) hrate)
  | cons w ws ih =>
      obtain ⟨hsince, hnonneg, hfound, hrest⟩ := h
      rw [List.filter_cons]
      split
      next hw =>
        have hw : w.1 ≤ stop := of_decide_eq_true hw
        have hlater := ih hrest (sub_nonneg.mpr hfound) hw
        have hin : levelAt c b w.1 ≤ b.level + (w.1 - b.since) * c.rate := min_le_right _ _
        simp only [take] at hlater
        rw [total_cons]
        linarith
      next hw =>
        have hlate : ws.filter (fun v => v.1 ≤ stop) = [] := by
          rw [List.filter_eq_nil_iff]
          intro v hv hle
          have hafter : w.1 ≤ v.1 := (hrest.since_le v hv).1
          exact hw (decide_eq_true (hafter.trans (of_decide_eq_true hle)))
        rw [hlate]
        exact add_nonneg hlevel (mul_nonneg (sub_nonneg.mpr hstop) hrate)

/-- No window sees more than the bucket holds and what comes in meanwhile. -/
theorem Conforms.within_le (hrate : 0 ≤ c.rate) (hcapacity : 0 ≤ c.capacity) (h : Conforms c b ws)
    (hwindow : start ≤ stop) : within start stop ws ≤ c.capacity + (stop - start) * c.rate := by
  have hroom : 0 ≤ c.capacity + (stop - start) * c.rate :=
    add_nonneg hcapacity (mul_nonneg (sub_nonneg.mpr hwindow) hrate)
  induction ws generalizing b with
  | nil => exact hroom
  | cons w ws ih =>
      obtain ⟨hsince, hnonneg, hfound, hrest⟩ := h
      by_cases hstart : start ≤ w.1
      · have hafter : ∀ v ∈ ws, start ≤ v.1 := fun v hv => hstart.trans (hrest.since_le v hv).1
        by_cases hstop : w.1 ≤ stop
        · have hlater := hrest.total_le hrate (sub_nonneg.mpr hfound) hstop
          have hin : levelAt c b w.1 ≤ c.capacity := levelAt_le c b w.1
          have hearly : 0 ≤ (w.1 - start) * c.rate := mul_nonneg (sub_nonneg.mpr hstart) hrate
          simp only [take] at hlater
          rw [within_cons, if_pos ⟨hstart, hstop⟩, within_of_start_le hafter]
          linarith
        · rw [within_cons, if_neg (fun hw => hstop hw.2), zero_add]
          exact ih hrest
      · rw [within_cons, if_neg (fun hw => hstart hw.1), zero_add]
        exact ih hrest

theorem total_le_of_sublist {ws' : List (K × K)} (h : ws.Sublist ws') (hnonneg : ∀ w ∈ ws', 0 ≤ w.2) :
    total ws ≤ total ws' := by
  refine (h.map Prod.snd).sum_le_sum (fun x hx => ?_)
  obtain ⟨w, hw, rfl⟩ := List.mem_map.mp hx
  exact hnonneg w hw

/-- What has been taken out since a time at which the bucket was full, and is taken out now, is in one window. -/
theorem FullAt.amount_le {seen past later : List (K × K)} {amount : K} (h : FullAt c b start seen)
    (hseen : seen.Sublist past) (hnow : b.since ≤ now) (hnonneg : ∀ w ∈ past ++ (now, amount) :: later, 0 ≤ w.2) :
    total seen + amount ≤ within start now (past ++ (now, amount) :: later) := by
  have hsublist : (seen ++ [(now, amount)]).Sublist
      ((past ++ (now, amount) :: later).filter (fun w => start ≤ w.1 ∧ w.1 ≤ now)) := by
    have hall : (seen ++ [(now, amount)]).filter (fun w => start ≤ w.1 ∧ w.1 ≤ now) = seen ++ [(now, amount)] := by
      rw [List.filter_eq_self]
      intro w hw
      rcases List.mem_append.mp hw with hw | hw
      · exact decide_eq_true ⟨(h.2.1 w hw).1, (h.2.1 w hw).2.trans hnow⟩
      · rw [List.mem_singleton] at hw
        subst hw
        exact decide_eq_true ⟨h.1.trans hnow, le_rfl⟩
    rw [← hall]
    exact (hseen.append (List.singleton_sublist.mpr List.mem_cons_self)).filter _
  have hle := total_le_of_sublist hsublist (fun w hw => hnonneg w (List.mem_of_mem_filter hw))
  rw [total_append, total_cons, total_nil, add_zero] at hle
  exact hle

/-- Withdrawals of which no window sees too many find what they take. -/
theorem FullAt.conforms {seen past : List (K × K)} (h : FullAt c b start seen) (hseen : seen.Sublist past)
    (hsince : ∀ w ∈ ws, b.since ≤ w.1) (hsorted : ws.Pairwise (fun v w => v.1 ≤ w.1))
    (hnonneg : ∀ w ∈ past ++ ws, 0 ≤ w.2)
    (hwindow : ∀ start stop, start ≤ stop → within start stop (past ++ ws) ≤ c.capacity + (stop - start) * c.rate) :
    Conforms c b ws := by
  induction ws generalizing b start seen past with
  | nil => trivial
  | cons w ws ih =>
      obtain ⟨now, amount⟩ := w
      have hnow : b.since ≤ now := hsince (now, amount) List.mem_cons_self
      have hamount : 0 ≤ amount := hnonneg (now, amount) (by simp)
      have hafter : ∀ w ∈ ws, now ≤ w.1 := (List.pairwise_cons.mp hsorted).1
      have hpast : past ++ (now, amount) :: ws = (past ++ [(now, amount)]) ++ ws := by simp
      refine ⟨hnow, hamount, le_min ?_ ?_, ?_⟩
      · have hfresh : FullAt c ⟨c.capacity, now⟩ now [] := ⟨le_rfl, by simp, by simp⟩
        have hle := hfresh.amount_le (List.nil_sublist past) le_rfl hnonneg
        have hroom := hwindow now now le_rfl
        simp only [total_nil, zero_add, sub_self, zero_mul, add_zero] at hle hroom
        exact hle.trans hroom
      · have hle := h.amount_le hseen hnow hnonneg
        have hroom := hwindow start now (h.1.trans hnow)
        have hlevel := h.2.2
        linarith
      · rw [hpast] at hnonneg hwindow
        have hkept : [(now, amount)].Sublist (past ++ [(now, amount)]) := List.sublist_append_right _ _
        rcases h.take amount hnow with hfull | hfull
        · exact ih hfull (hseen.append (List.Sublist.refl _)) hafter (List.pairwise_cons.mp hsorted).2 hnonneg hwindow
        · exact ih hfull hkept hafter (List.pairwise_cons.mp hsorted).2 hnonneg hwindow

end Utos.Core.TokenBucket
