import Utos.Risk.PortfolioRun

namespace Utos.Risk.ClosedByFills

open Core Core.Exceptions Recovery.Portfolio Recovery.CashFlow Manager PortfolioRun
open Recovery.Portfolio.PortfolioManager (RegisterArgs)

/-- The fill takes all that its position holds. -/
def Empties (m : PortfolioManager) (f : Fill) : Prop :=
  ∃ position, m.positions.get f.instanceId = some position ∧ position.closed = false ∧
    PortfolioManager.isOpening position f.side.value = false ∧ f.quantity = position.quantity

/-- The position that a call brings to a quantity of zero. -/
def emptiedBy (m : PortfolioManager) : Call → List Position
  | .update f => match update m f with
    | .ok r => if r.1.quantity = 0 then [r.1] else []
    | .error _ => []
  | .register _ | .close _ => []

/-- The positions that the fills of a run bring to zero. -/
def emptied : PortfolioManager → List Call → List Position := collect emptiedBy

/-- What register_position asks of its arguments, the instance apart. -/
def Registrable (args : RegisterArgs) : Prop :=
  (args.side = "long" ∨ args.side = "short") ∧ 0 < args.entryPrice ∧ 0 < args.quantity

/-- The emptied positions are treated as close_position leaves them: none is counted as
open, each is listed among the closed ones, and unless its instance has another one that
holds something, a new one can be registered. -/
structure TreatedAsClosed (emptied : List Position) (m : PortfolioManager) : Prop where
  uncounted : getOpenPositionCount m = (m.getPositions.filter (fun position => position.quantity ≠ 0)).length
  listed : emptied.Subperm m.closedPositions
  replaceable : ∀ position ∈ emptied, ∀ args, Registrable args → args.instanceId = position.instanceId →
    (∃ r, m.registerPosition args = .ok r) ∨
      ∃ other, m.positions.get args.instanceId = some other ∧ other.quantity ≠ 0

variable {m m' : PortfolioManager} {position : Position} {i : String} {f : Fill}

/-- The positions that are kept as open ones, though they hold nothing. -/
def leftOver (m : PortfolioManager) : List Position := m.getPositions.filter (fun position => position.quantity = 0)

theorem leftOver_perm_of_get (h : m.positions.get i = some position) :
    (leftOver m).Perm ((if position.quantity = 0 then [position] else []) ++
      (m.others i).filter (fun position => position.quantity = 0)) := by
  have hperm := (PortfolioManager.perm_others h).filter (fun position => decide (position.quantity = 0))
  rw [List.filter_cons] at hperm
  by_cases hzero : position.quantity = 0
  · simpa [leftOver, hzero] using hperm
  · simpa [leftOver, hzero] using hperm

theorem leftOver_put (h : position.instanceId = i) :
    (leftOver (m.put i position h)).Perm ((if position.quantity = 0 then [position] else []) ++
      (m.others i).filter (fun position => position.quantity = 0)) := by
  have hperm := (PortfolioManager.put_perm (m := m) h).filter (fun position => decide (position.quantity = 0))
  rw [List.filter_cons] at hperm
  by_cases hzero : position.quantity = 0
  · simpa [leftOver, hzero] using hperm
  · simpa [leftOver, hzero] using hperm

/-- The closed positions that hold nothing. -/
def closedEmpty (m : PortfolioManager) : List Position :=
  m.closedPositions.filter (fun position => position.quantity = 0)

/-- An emptied position stays among the open ones or comes to the closed ones. -/
theorem conserved_step (hm : Marked m) (c : Call) :
    (closedEmpty m ++ leftOver m ++ emptiedBy m c).Perm (closedEmpty (step m c) ++ leftOver (step m c)) := by
  rcases step_cases m c with ⟨⟨e, he⟩, hstep⟩ | ⟨position, m', hperform, hstep⟩
  · have hnone : emptiedBy m c = [] := by
      cases c with
      | update f => rw [emptiedBy, show update m f = .error e from he]
      | register args => rfl
      | close i => rfl
    rw [hstep, hnone, List.append_nil]
  rw [hstep]
  cases c with
  | register args =>
      obtain ⟨hfree, -, -, hq, rfl, rfl⟩ := PortfolioManager.registerPosition_ok hperform
      have hput := leftOver_put (m := m) (show args.position.instanceId = args.instanceId from rfl)
      rw [if_neg (show args.position.quantity ≠ 0 from hq.ne'), PortfolioManager.others_of_get_none hfree] at hput
      rw [emptiedBy, List.append_nil]
      exact hput.symm.append_left _
  | update f =>
      have hresult : update m f = .ok (position, m') := hperform
      obtain ⟨found, hkey, hget, hopen, rfl, -⟩ := update_ok hresult
      have hbefore := leftOver_perm_of_get hget
      rw [if_neg (hm.quantity_ne_zero hget hopen), List.nil_append] at hbefore
      simp only [emptiedBy, hresult]
      rw [List.append_assoc]
      refine List.Perm.append_left _ ((hbefore.append_right _).trans ?_)
      exact List.perm_append_comm.trans (leftOver_put hkey).symm
  | close i =>
      obtain ⟨found, hget, rfl, rfl⟩ := PortfolioManager.closePosition_ok hperform
      have hbefore := leftOver_perm_of_get hget
      rw [emptiedBy, List.append_nil]
      refine (hbefore.append_left _).trans ?_
      rw [← List.append_assoc]
      refine List.Perm.append_right _ ?_
      by_cases hzero : found.quantity = 0
      · have hsame : { found with closed := true } = found := by
          rw [← (hm _ _ hget).1.mpr hzero]
        rw [hsame]
        simp [closedEmpty, PortfolioManager.drop, List.filter_append, hzero]
      · simp [closedEmpty, PortfolioManager.drop, List.filter_append, hzero]

theorem conserved (calls : List Call) :
    (emptied .empty calls).Perm (closedEmpty (run calls) ++ leftOver (run calls)) := by
  induction calls using List.reverseRecOn with
  | nil => exact List.Perm.refl _
  | append_singleton calls c ih =>
      rw [emptied, collect_concat, run_concat]
      exact (ih.append_right _).trans (conserved_step (marked_run calls) c)

theorem leftOver_eq_nil_iff : leftOver m = [] ↔ ∀ i position, m.positions.get i = some position → position.quantity ≠ 0 := by
  rw [leftOver, List.filter_eq_nil_iff]
  simp only [decide_eq_true_eq]
  constructor
  · exact fun h i position hget => h position (List.mem_map_of_mem (f := Prod.snd) (Dict.mem_of_get hget))
  · exact fun h position hmem => h _ _ (m.mem_getPositions.mp hmem)

theorem treated_iff_leftOver (calls : List Call) :
    TreatedAsClosed (emptied .empty calls) (run calls) ↔ leftOver (run calls) = [] := by
  have hperm := conserved calls
  constructor
  · intro h
    apply List.eq_nil_iff_forall_not_mem.mpr
    intro position hmem
    have hzero : position.quantity = 0 := by simpa using (List.mem_filter.mp hmem).2
    have hclosed : (closedEmpty (run calls)).count position = (run calls).closedPositions.count position :=
      List.count_filter (by simpa using hzero)
    have hle := h.listed.count_le position
    rw [hperm.count_eq, List.count_append, hclosed] at hle
    have hpos := List.count_pos_iff.mpr hmem
    omega
  · intro h
    rw [h, List.append_nil] at hperm
    rw [leftOver_eq_nil_iff] at h
    refine ⟨?_, ⟨_, hperm.symm, List.filter_sublist⟩, fun position _ args hargs _ => ?_⟩
    · have hall : (run calls).getPositions.filter (fun position => position.quantity ≠ 0) = (run calls).getPositions := by
        apply List.filter_eq_self.mpr
        intro position hmem
        simpa using h _ _ ((run calls).mem_getPositions.mp hmem)
      rw [hall, getOpenPositionCount, PortfolioManager.getPositions, List.length_map]
    · cases hget : (run calls).positions.get args.instanceId with
      | none =>
          obtain ⟨hside, hprice, hquantity⟩ := hargs
          exact .inl ⟨_, PortfolioManager.registerPosition_free hget hside hprice hquantity⟩
      | some other => exact .inr ⟨other, rfl, h _ _ hget⟩

/-- The instance has a position that holds nothing. -/
def HoldsNothing (m : PortfolioManager) (i : String) : Prop :=
  ∃ position, m.positions.get i = some position ∧ position.quantity = 0

theorem empties_of_update (h : update m f = .ok (position, m')) : Empties m f ↔ position.quantity = 0 := by
  obtain ⟨found, hkey, hget, hopen, rfl, hchanged⟩ := update_ok h
  constructor
  · rintro ⟨other, hother, -, hclosing, hall⟩
    cases hget.symm.trans hother
    rcases hchanged with ⟨hopening, -, -⟩ | ⟨-, -, rfl⟩
    · rw [hopening] at hclosing
      cases hclosing
    · simp [PortfolioManager.decreased, hall]
  · intro hzero
    rcases hchanged with ⟨-, hne, rfl⟩ | ⟨hclosing, -, rfl⟩
    · exact absurd hzero hne
    · exact ⟨found, hget, hopen, hclosing, (sub_eq_zero.mp hzero).symm⟩

theorem update_ok_of_empties (h : Empties m f) : ∃ r, update m f = .ok r := by
  obtain ⟨position, hget, hopen, hclosing, hall⟩ := h
  unfold update PortfolioManager.updatePosition
  split
  next hnone => cases hget.symm.trans hnone
  next found hfound =>
    cases hget.symm.trans hfound
    rw [if_neg (by simp [hopen]), if_neg (by simp [hclosing]), if_neg (not_lt.mpr hall.le)]
    exact ⟨_, rfl⟩

/-- How an instance comes to hold nothing, and how that ends. -/
theorem holdsNothing_step (hm : Marked m) (c : Call) (i : String) : HoldsNothing (step m c) i ↔
    (∃ f, c = .update f ∧ Empties m f ∧ f.instanceId = i) ∨ HoldsNothing m i ∧ c ≠ .close i := by
  rcases step_cases m c with ⟨⟨e, he⟩, hstep⟩ | ⟨position, m', hperform, hstep⟩
  · rw [hstep]
    cases c with
    | register args => simp
    | update f =>
        have hnot : ¬ Empties m f := fun h => by
          obtain ⟨r, hr⟩ := update_ok_of_empties h
          cases he.symm.trans hr
        simp [hnot]
    | close j =>
        have hfree := PortfolioManager.closePosition_error he
        have hne : HoldsNothing m i → Call.close j ≠ .close i := by
          rintro ⟨position, hget, -⟩ hj
          cases hj
          cases hfree.symm.trans hget
        simpa using hne
  rw [hstep]
  cases c with
  | register args =>
      obtain ⟨hfree, -, -, hq, rfl, rfl⟩ := PortfolioManager.registerPosition_ok hperform
      simp only [HoldsNothing, PortfolioManager.put_registered_get, reduceCtorEq, false_and, exists_false, false_or,
        ne_eq, not_false_eq_true, and_true]
      by_cases hi : i = args.instanceId
      · subst hi
        simp [hfree, RegisterArgs.position, hq.ne']
      · simp [hi]
  | update f =>
      have hresult : update m f = .ok (position, m') := hperform
      rw [show (∃ g, Call.update f = .update g ∧ Empties m g ∧ g.instanceId = i) ↔
        Empties m f ∧ f.instanceId = i by simp, empties_of_update hresult]
      obtain ⟨found, hkey, hget, hopen, rfl, -⟩ := update_ok hresult
      simp only [HoldsNothing, PortfolioManager.put_get, ne_eq, reduceCtorEq, not_false_eq_true, and_true]
      by_cases hi : f.instanceId = i
      · subst hi
        simp [hget, hm.quantity_ne_zero hget hopen]
      · simp [hi, Ne.symm hi]
  | close j =>
      obtain ⟨found, hget, rfl, rfl⟩ := PortfolioManager.closePosition_ok hperform
      simp only [HoldsNothing, PortfolioManager.drop_get, reduceCtorEq, false_and, exists_false, false_or, ne_eq,
        Call.close.injEq]
      by_cases hi : i = j
      · simp [hi]
      · simp [hi, Ne.symm hi]

/-- A fill of the run has emptied the position of the instance, and close_position has not been called since. -/
def Outstanding (calls : List Call) (i : String) : Prop :=
  ∃ before f after, calls = before ++ .update f :: after ∧ Empties (run before) f ∧ f.instanceId = i ∧ .close i ∉ after

theorem outstanding_concat (calls : List Call) (c : Call) (i : String) : Outstanding (calls ++ [c]) i ↔
    (∃ f, c = .update f ∧ Empties (run calls) f ∧ f.instanceId = i) ∨ Outstanding calls i ∧ c ≠ .close i := by
  constructor
  · rintro ⟨before, f, after, hcalls, hempties, hi, hnone⟩
    rcases after.eq_nil_or_concat with rfl | ⟨init, last, rfl⟩
    · obtain ⟨rfl, hlast⟩ := List.append_inj' hcalls rfl
      cases hlast
      exact .inl ⟨f, rfl, hempties, hi⟩
    · rw [List.concat_eq_append, ← List.cons_append, ← List.append_assoc] at hcalls
      obtain ⟨rfl, hlast⟩ := List.append_inj' hcalls rfl
      cases hlast
      rw [List.concat_eq_append, List.mem_append, List.mem_singleton, not_or] at hnone
      exact .inr ⟨⟨before, f, init, rfl, hempties, hi, hnone.1⟩, Ne.symm hnone.2⟩
  · rintro (⟨f, rfl, hempties, hi⟩ | ⟨⟨before, f, after, rfl, hempties, hi, hnone⟩, hne⟩)
    · exact ⟨calls, f, [], rfl, hempties, hi, List.not_mem_nil⟩
    · refine ⟨before, f, after ++ [c], by simp, hempties, hi, ?_⟩
      rw [List.mem_append, List.mem_singleton, not_or]
      exact ⟨hnone, Ne.symm hne⟩

theorem holdsNothing_iff (calls : List Call) (i : String) : HoldsNothing (run calls) i ↔ Outstanding calls i := by
  induction calls using List.reverseRecOn with
  | nil =>
      refine iff_of_false ?_ ?_
      · rintro ⟨position, hget, -⟩
        cases hget
      · rintro ⟨before, f, after, hcalls, -⟩
        exact absurd hcalls (by simp)
  | append_singleton calls c ih => rw [run_concat, holdsNothing_step (marked_run calls), ih, outstanding_concat]

/-- The positions that fills have emptied are treated as closed exactly when
close_position has been called after each of these fills too. -/
theorem treatedAsClosed_iff (calls : List Call) :
    TreatedAsClosed (emptied .empty calls) (run calls) ↔
      ∀ before f after, calls = before ++ .update f :: after → Empties (run before) f →
        .close f.instanceId ∈ after := by
  rw [treated_iff_leftOver, leftOver_eq_nil_iff]
  constructor
  · intro h before f after hcalls hempties
    by_contra hnone
    obtain ⟨position, hget, hzero⟩ :=
      (holdsNothing_iff calls f.instanceId).mpr ⟨before, f, after, hcalls, hempties, rfl, hnone⟩
    exact h _ _ hget hzero
  · intro h i position hget hzero
    obtain ⟨before, f, after, hcalls, hempties, rfl, hnone⟩ := (holdsNothing_iff calls i).mp ⟨position, hget, hzero⟩
    exact hnone (h before f after hcalls hempties)

/-- It is still counted as open, it is not listed as closed, and its instance cannot register another one. -/
theorem boughtSold_not_treated :
    ¬ TreatedAsClosed (emptied .empty boughtSold) (run boughtSold) ∧ getOpenPositionCount (run boughtSold) = 1 ∧
      (run boughtSold).closedPositions = [] ∧
      ((run boughtSold).registerPosition longBitcoin).isOk = false := by
  have hcount : getOpenPositionCount (run boughtSold) = 1 := by decide +kernel
  refine ⟨fun h => ?_, hcount, by decide +kernel, by decide +kernel⟩
  have hheld : ((run boughtSold).getPositions.filter (fun position => position.quantity ≠ 0)).length = 0 := by
    decide +kernel
  exact absurd (hcount.symm.trans (h.uncounted.trans hheld)) (by decide)

end Utos.Risk.ClosedByFills
