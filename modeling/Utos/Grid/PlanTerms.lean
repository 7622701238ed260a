import Utos.Grid.LockTerms

namespace Utos.Grid.PlanTerms

open Coroutine Program Core.DomainTypes Core.Exceptions Execution.Models Execution.Service State
open CircuitBreaker Planner Calculator Engine Invariant Terms LockTerms
open ProfitLock.State (ProfitLockState ProfitLockStatus)

variable {K : Set LevelKey} {α : Type} {o : Quota} {s : GridEngine}

/-- What an operation on one level leaves alone. -/
structure LevelStep (i : String) (n : Nat) (s s' : GridEngine) : Prop where
  rest : s' = { s with grids := s'.grids }
  levels : ∀ j m, ¬(j = i ∧ m = n) → s'.grids.getLevel j m = s.grids.getLevel j m

theorem LevelStep.refl (i : String) (n : Nat) (s : GridEngine) : LevelStep i n s s := ⟨rfl, fun _ _ _ => rfl⟩

theorem LevelStep.trans {i : String} {n : Nat} {s s' s'' : GridEngine} (h : LevelStep i n s s')
    (h' : LevelStep i n s' s'') : LevelStep i n s s'' :=
  ⟨by rw [h'.rest, h.rest], fun j m hjm => (h'.levels j m hjm).trans (h.levels j m hjm)⟩

theorem LevelStep.assign (i : String) (n : Nat) (s : GridEngine) (f : GridLevel → GridLevel)
    (hf : ∀ lv, (f lv).level = lv.level) :
    LevelStep i n s { s with grids := s.grids.assignLevel i n f } :=
  ⟨rfl, fun j m hjm => by rw [State.Store.getLevel_assignLevel _ _ _ _ hf, if_neg hjm]⟩

theorem under_placeGridOrder {i : String} {a : GridAction} (hs : Sound K s)
    (ha : ∀ state, o.Allows (placement state i a)) :
    Under (terms K) (placeGridOrder i a)
      (fun r o' s' => Sound K s' ∧ (o' = o ∨ ∃ state, o' = o.spend (placement state i a)) ∧
        LevelStep i a.level s s' ∧
        ∀ orderId, r = .ok orderId → ∀ lv, s'.grids.getLevel i a.level = some lv → lv.status = .opened) o s := by
  rw [placeGridOrder, bind_eq, under_bind, under_read, thenUnder_ok]
  split
  next => exact ⟨hs, .inl rfl, .refl i a.level s, fun _ h => by cases h⟩
  next state hg =>
    rw [bind_eq, under_bind]
    refine under_placeOrder (ha state) ?_
    rintro (e | result)
    · exact ⟨hs, .inr ⟨state, rfl⟩, .refl i a.level s, fun _ h => by cases h⟩
    · rw [thenUnder_ok, bind_eq, under_bind]
      refine under_updateLevel hs (setOrderId_level _ _) ?_
        (fun e => ⟨hs, .inr ⟨state, rfl⟩, .refl i a.level s, fun _ h => by cases h⟩)
      intro h1
      have hstep := LevelStep.assign i a.level s _ (setOrderId_level a.side result.orderId)
      rw [thenUnder_ok, bind_eq, under_bind]
      refine under_transitionLevel h1 ?_
        (fun e => ⟨h1, .inr ⟨state, rfl⟩, hstep, fun _ h => by cases h⟩)
      intro lv s2 hlv hm hs2 h2
      refine ⟨h2, .inr ⟨state, rfl⟩, hstep.trans (hs2 ▸ .assign i a.level _ _ (fun _ => rfl)), ?_⟩
      intro _ _ lv' hlv'
      rw [hs2] at hlv'
      simp only [State.Store.getLevel_assignLevel _ _ _ (setStatus .opened) (fun _ => rfl), and_self, if_true,
        Option.map_eq_some_iff] at hlv'
      obtain ⟨_, _, rfl⟩ := hlv'
      rfl

/-- What holds while a plan made in state s0 is being carried out, with the
actions xs of it still to come. -/
structure Carrying (K : Set LevelKey) (i : String) (b : Bool) (o0 : Quota) (s0 : GridEngine)
    (plan xs : List GridAction) (o : Quota) (s : GridEngine) : Prop where
  sound : Sound K s
  rest : s = { s0 with grids := s.grids }
  replaces : ∀ k, o.replaces k = none
  locks : ∀ k, o.sells (.lock k) = o0.sells (.lock k)
  admits : ∀ a ∈ xs, o.Admits i b a
  nodup : (xs.map GridAction.level).Nodup
  filled : ∀ n lv, s.grids.getLevel i n = some lv → lv.status = .filled →
    s0.grids.getLevel i n = some lv ∧ ∀ a ∈ plan, a.action = .placeSell → a.level = n → a ∈ xs

theorem under_executePlan {i : String} {b : Bool} {plan : List GridAction} (hs : Sound K s)
    (hn : ∀ k, o.replaces k = none) (ha : ∀ a ∈ plan, o.Admits i b a)
    (hnd : (plan.map GridAction.level).Nodup) :
    Under (terms K) (executePlan i b plan)
      (fun r o' s' => r = .ok () → Carrying K i b o s plan [] o' s') o s := by
  refine under_forEach (Carrying K i b o s plan) _ ?_ (fun o' s' h _ => h) plan
    ⟨hs, rfl, hn, fun _ => rfl, ha, hnd, fun n lv h _ => ⟨h, fun a ha _ _ => ha⟩⟩
  intro a xs o1 s1 h
  have hadm := h.admits a (by simp)
  have hnotin : ∀ a' ∈ xs, a'.level ≠ a.level := by
    have hnd := h.nodup
    simp only [List.map_cons, List.nodup_cons, List.mem_map, not_exists, not_and] at hnd
    exact fun a' ha' => hnd.1 a' ha'
  -- carrying out the action leaves its level in status OPEN
  have hplace : o1.Admits i true a → Under (terms K) (do let _ ← placeGridOrder i a)
      (iterPost (Carrying K i b o s plan xs) (fun r o' s' => r = .ok () → Carrying K i b o s plan [] o' s'))
      o1 s1 := by
    intro hadm
    rw [bind_eq, under_bind]
    refine under_mono (under_placeGridOrder h.sound (fun state => hadm.allows h.replaces state)) ?_
    rintro (e | orderId) o2 s2 ⟨hs2, ho2, hstep, hopen⟩
    · exact fun hr => by cases hr
    · have hrest := Quota.rest_placement ho2
      refine ⟨hs2, by rw [hstep.rest, h.rest], fun k => by rw [hrest.replaces]; exact h.replaces k,
        fun k => (hrest.sells _ (by simp)).trans (h.locks k),
        fun a' ha' => (h.admits a' (by simp [ha'])).rest hrest (hnotin a' ha'),
        (List.nodup_cons.mp h.nodup).2, ?_⟩
      intro n lv hlv hf
      by_cases hna : n = a.level
      · subst hna
        have := hopen orderId rfl lv hlv
        simp [hf] at this
      · rw [hstep.levels i n (by simp [hna])] at hlv
        obtain ⟨h0, hin⟩ := h.filled n lv hlv hf
        refine ⟨h0, fun a' ha' hact hl => ?_⟩
        rcases List.mem_cons.mp (hin a' ha' hact hl) with rfl | hx
        · exact absurd hl.symm hna
        · exact hx
  rcases hadm with ⟨hact, hside, hbuy⟩ | ⟨hact, hside, hq⟩
  · simp only [hact]
    split
    next hb => exact hplace (.inl ⟨hact, hside, fun _ => hbuy hb⟩)
    next =>
      refine ⟨h.sound, h.rest, h.replaces, h.locks, fun a' ha' => h.admits a' (by simp [ha']),
        (List.nodup_cons.mp h.nodup).2, fun n lv hlv hf => ?_⟩
      obtain ⟨h0, hin⟩ := h.filled n lv hlv hf
      refine ⟨h0, fun a' ha' hact' hl => ?_⟩
      rcases List.mem_cons.mp (hin a' ha' hact' hl) with rfl | hx
      · rw [hact] at hact'; cases hact'
      · exact hx
  · simp only [hact]
    exact hplace (.inr ⟨hact, hside, hq⟩)

/-- What holds while a price is being forwarded to the locks of the levels ns still to come. -/
structure Forwarding (K : Set LevelKey) (i : String) (p : ℚ) (s0 : GridEngine) (ns : List Nat) (o : Quota)
    (s : GridEngine) : Prop where
  sound : Sound K s
  grids : s.grids = s0.grids
  replaces : ∀ k, o.replaces k = none
  nodup : ns.Nodup
  sells : ∀ n ∈ ns, ∀ lv, s0.grids.getLevel i n = some lv → lv.status = .filled →
    lockSells s.locks ⟨i, n⟩ p ≤ o.sells (.lock ⟨i, n⟩)

theorem under_forwardToLock {i : String} {p : ℚ} {n : Nat} {ns : List Nat} {s0 : GridEngine}
    (h : Forwarding K i p s0 (n :: ns) o s) :
    Under (terms K) (forwardToLock i p n)
      (iterPost (Forwarding K i p s0 ns) (fun _ _ _ => True)) o s := by
  have hskip : Forwarding K i p s0 ns o s :=
    ⟨h.sound, h.grids, h.replaces, (List.nodup_cons.mp h.nodup).2, fun m hm => h.sells m (by simp [hm])⟩
  rw [forwardToLock, bind_eq, under_bind, under_read, thenUnder_ok]
  split
  next => exact hskip
  next lv hlv =>
    split
    next hf =>
      have hq := h.sells n (by simp) lv (h.grids ▸ hlv) hf
      rw [tryCatch_eq, under_tryCatch]
      refine under_mono (under_lockPriceUpdate h.sound (h.replaces _) hq) ?_
      rintro r o' s' ⟨hs', hstep⟩
      have hdone : Forwarding K i p s0 ns o' s' := by
        refine ⟨hs', by rw [hstep.rest]; exact h.grids, fun k => by rw [hstep.replaces]; exact h.replaces k,
          (List.nodup_cons.mp h.nodup).2, fun m hm lv' hlv' hf' => ?_⟩
        have hne : (⟨i, m⟩ : LevelKey) ≠ ⟨i, n⟩ := by
          rintro ⟨⟩
          exact (List.nodup_cons.mp h.nodup).1 hm
        have hlock : lockSells s'.locks ⟨i, m⟩ p = lockSells s.locks ⟨i, m⟩ p := by
          simp only [lockSells, hstep.locks _ hne]
        rw [hlock, hstep.sells _ (by simpa using hne)]
        exact h.sells m (by simp [hm]) lv' hlv' hf'
      cases r with
      | ok a => exact hdone
      | error e => exact hdone
    next => exact hskip

theorem fine_forwardToLocks {i : String} {p : ℚ} (hs : Sound K s) (hn : ∀ k, o.replaces k = none)
    (hq : s.hasProfitLock = true → (s.trailingConfig i).isSome = true →
      ∀ n lv, s.grids.getLevel i n = some lv → lv.status = .filled →
        lockSells s.locks ⟨i, n⟩ p ≤ o.sells (.lock ⟨i, n⟩)) :
    Fine K o s (forwardToLocks i p) := by
  rw [Fine, forwardToLocks, bind_eq, under_bind, under_read, thenUnder_ok]
  split
  next h =>
    exact under_forEach (fun ns => Forwarding K i p s ns) _
      (fun n ns o' s' h => under_forwardToLock h)
      (fun _ _ _ => trivial) _
      ⟨hs, rfl, hn, numbered_listLevels hs.numbered i, fun n _ => hq h.1 h.2 n⟩
  next => trivial

theorem planned_admits {i : String} {p m : ℚ} {b active : Bool} {grids : State.Store} (hnum : Numbered grids)
    (hbuy : b = true → o.mayBuy = true)
    (hsell : ∀ n lv, grids.getLevel i n = some lv → lv.status = .filled → lv.sellPrice ≤ p →
      lv.quantity ≤ o.sells (.level ⟨i, n⟩)) :
    ∀ a ∈ plan (grids.listLevels i) p active m, o.Admits i b a := by
  intro a ha
  obtain ⟨lv, hlv, hp⟩ := mem_plan ha
  rcases planLevel_cases hp with ⟨rfl, -⟩ | ⟨rfl, hf, hle⟩
  · exact .inl ⟨rfl, rfl, hbuy⟩
  · exact .inr ⟨rfl, rfl, hsell lv.level lv (getLevel_of_mem_listLevels hnum hlv) hf hle⟩

/-- The tail of on_price_update: a level that the planner does not sell is the
only kind whose lock sees the price in status FILLED. -/
theorem fine_carryOut {i : String} {p m : ℚ} {b active : Bool} (hs : Sound K s)
    (hn : ∀ k, o.replaces k = none) (hbuy : b = true → o.mayBuy = true)
    (hsell : ∀ n lv, s.grids.getLevel i n = some lv → lv.status = .filled → lv.sellPrice ≤ p →
      lv.quantity ≤ o.sells (.level ⟨i, n⟩))
    (hlock : s.hasProfitLock = true → (s.trailingConfig i).isSome = true →
      ∀ n lv, s.grids.getLevel i n = some lv → lv.status = .filled → ¬ lv.sellPrice ≤ p →
        lockSells s.locks ⟨i, n⟩ p ≤ o.sells (.lock ⟨i, n⟩)) :
    Fine K o s (.bind (executePlan i b (plan (s.grids.listLevels i) p active m)) (fun _ => forwardToLocks i p)) := by
  have hnd := (plan_levels_sublist (s.grids.listLevels i) p m active).nodup (numbered_listLevels hs.numbered i)
  rw [Fine, under_bind]
  refine under_mono (under_executePlan hs hn (planned_admits hs.numbered hbuy hsell) hnd) ?_
  rintro (e | a) o' s' h
  · trivial
  · have h := h rfl
    refine fine_forwardToLocks h.sound h.replaces (fun hpl ht n lv hlv hf => ?_)
    obtain ⟨h0, hin⟩ := h.filled n lv hlv hf
    obtain ⟨hmem, hlevel⟩ := mem_listLevels_of_getLevel h0
    have hle : ¬ lv.sellPrice ≤ p := fun hle => by
      simpa using hin _ (placeSellOf_mem_plan hmem hf hle) rfl hlevel
    rw [h.rest] at hpl ht ⊢
    rw [h.locks]
    exact hlock hpl ht n lv h0 hf hle

/-- What the head of on_price_update leaves alone. -/
structure SameLevels (i : String) (s s' : GridEngine) : Prop where
  locks : s'.locks = s.locks
  hasProfitLock : s'.hasProfitLock = s.hasProfitLock
  trailingConfig : s'.trailingConfig = s.trailingConfig
  levels : ∀ n lv', s'.grids.getLevel i n = some lv' → ∃ lv, s.grids.getLevel i n = some lv ∧
    lv'.status = lv.status ∧ lv'.sellPrice = lv.sellPrice ∧ lv'.quantity = lv.quantity

theorem SameLevels.of_getLevel {i : String} {s' : GridEngine} (hl : s'.locks = s.locks)
    (hp : s'.hasProfitLock = s.hasProfitLock) (ht : s'.trailingConfig = s.trailingConfig)
    (h : ∀ n, s'.grids.getLevel i n = s.grids.getLevel i n) : SameLevels i s s' :=
  ⟨hl, hp, ht, fun n lv hlv => ⟨lv, (h n) ▸ hlv, rfl, rfl, rfl⟩⟩

theorem SameLevels.trans {i : String} {s s' s'' : GridEngine} (h : SameLevels i s s')
    (h' : SameLevels i s' s'') : SameLevels i s s'' := by
  refine ⟨h'.locks.trans h.locks, h'.hasProfitLock.trans h.hasProfitLock,
    h'.trailingConfig.trans h.trailingConfig, fun n lv'' hlv'' => ?_⟩
  obtain ⟨lv', hlv', h1, h2, h3⟩ := h'.levels n lv'' hlv''
  obtain ⟨lv, hlv, h4, h5, h6⟩ := h.levels n lv' hlv'
  exact ⟨lv, hlv, h1.trans h4, h2.trans h5, h3.trans h6⟩

theorem SameLevels.assignGrid (s : GridEngine) (i : String) (f : GridState → GridState)
    (hf : ∀ g, (f g).levels = g.levels) : SameLevels i s { s with grids := s.grids.assignGrid i f } :=
  .of_getLevel rfl rfl rfl (fun n => State.Store.getLevel_assignGrid _ _ _ hf i n)

theorem SameLevels.setOrderId {i : String} {s : GridEngine} (n : Nat) (side : OrderSide) (orderId : OrderId) :
    SameLevels i s { s with grids := s.grids.assignLevel i n (setOrderId side orderId) } := by
  refine ⟨rfl, rfl, rfl, fun m lv' hlv' => ?_⟩
  simp only [State.Store.getLevel_assignLevel _ _ _ _ (setOrderId_level side orderId), true_and] at hlv'
  split at hlv'
  next hm =>
    obtain ⟨lv, hlv, rfl⟩ := Option.map_eq_some_iff.mp hlv'
    exact ⟨lv, hm ▸ hlv, by cases side <;> simp [Engine.setOrderId]⟩
  next => exact ⟨lv', hlv', rfl, rfl, rfl⟩

theorem under_cancelPendingBuy {i : String} {acct : Option UUID} {n : Nat} (hs : Sound K s)
    (hn : ∀ k, o.replaces k = none) (hc : o.mayCancel = true) :
    Under (terms K) (cancelPendingBuy i acct n) (fun r o' s' => r = .ok () ∧ o' = o ∧ Sound K s' ∧ SameLevels i s s')
      o s := by
  have hskip : SameLevels i s s := .of_getLevel rfl rfl rfl (fun _ => rfl)
  rw [cancelPendingBuy, bind_eq, under_bind, under_read, thenUnder_ok]
  split
  next => exact ⟨rfl, rfl, hs, hskip⟩
  next lv hlv =>
    split
    next =>
      rw [tryCatch_eq, under_tryCatch, bind_eq, under_bind]
      refine under_cancelOrder hc ?_
      rw [Quota.spend_cancel hn]
      rintro (e | result)
      · exact ⟨rfl, rfl, hs, hskip⟩
      · have h := hs.withGrids (hs.numbered.assignLevel i n (setOrderId .buy none) (setOrderId_level _ _))
        exact ⟨h, trivial, rfl, rfl, h, .setOrderId n .buy none⟩
    next => exact ⟨rfl, rfl, hs, hskip⟩

theorem under_cancelAllPendingBuys {i : String} (hs : Sound K s) (hn : ∀ k, o.replaces k = none)
    (hc : o.mayCancel = true) :
    Under (terms K) (cancelAllPendingBuys i) (fun _ o' s' => o' = o ∧ Sound K s' ∧ SameLevels i s s') o s := by
  have hskip : SameLevels i s s := .of_getLevel rfl rfl rfl (fun _ => rfl)
  rw [cancelAllPendingBuys, bind_eq, under_bind, under_read, thenUnder_ok]
  split
  next => exact ⟨rfl, hs, hskip⟩
  next state hg =>
    refine under_forEach (fun _ o' s' => o' = o ∧ Sound K s' ∧ SameLevels i s s') _ ?_ (fun _ _ h => h) _
      ⟨rfl, hs, hskip⟩
    rintro n ns o' s' ⟨rfl, hs', hsame⟩
    refine under_mono (under_cancelPendingBuy hs' hn hc) ?_
    rintro r o'' s'' ⟨rfl, rfl, hs'', hsame'⟩
    exact ⟨rfl, hs'', hsame.trans hsame'⟩

theorem under_checkBreaker {today : Date} {i : String} {p : ℚ} (hs : Sound K s)
    (hn : ∀ k, o.replaces k = none) (hc : o.mayCancel = true) :
    Under (terms K) (checkBreaker today i p) (fun _ o' s' => o' = o ∧ Sound K s' ∧ SameLevels i s s') o s := by
  have hbreaker : ∀ b, SameLevels i s { s with breakers := b } := fun _ => .of_getLevel rfl rfl rfl (fun _ => rfl)
  rw [checkBreaker, bind_eq, under_bind, under_read, thenUnder_ok]
  split
  next => exact ⟨rfl, hs, .of_getLevel rfl rfl rfl (fun _ => rfl)⟩
  next breaker hb =>
    split
    next =>
      rw [bind_eq, under_bind, assignBreaker, under_modify]
      refine ⟨hs.withBreakers _, trivial, ?_⟩
      rw [thenUnder_ok, bind_eq, under_bind]
      refine under_mono (under_cancelAllPendingBuys (hs.withBreakers _) hn hc) ?_
      rintro (e | a) o' s' ⟨rfl, hs', hsame⟩
      · exact ⟨rfl, hs', (hbreaker _).trans hsame⟩
      · exact ⟨rfl, hs', (hbreaker _).trans hsame⟩
    next =>
      rw [bind_eq, under_bind, assignBreaker, under_modify]
      exact ⟨hs.withBreakers _, trivial, rfl, hs.withBreakers _, hbreaker _⟩

theorem under_passGate {evaluate : Evaluate} {i : String} {p : ℚ} (hs : Sound K s) :
    Under (terms K) (passGate evaluate i p)
      (fun r o' s' => (∃ b, r = .ok b) ∧ o' = o ∧ Sound K s' ∧ ∃ b, s' = { s with breakers := b }) o s := by
  rw [passGate, bind_eq, under_bind, under_read, thenUnder_ok]
  split
  next => exact ⟨⟨_, rfl⟩, rfl, hs, s.breakers, rfl⟩
  next b hb =>
    split
    next =>
      rw [bind_eq, under_bind, assignBreaker, under_modify]
      exact ⟨hs.withBreakers _, trivial, ⟨_, rfl⟩, rfl, hs.withBreakers _, _, rfl⟩
    next => exact ⟨⟨_, rfl⟩, rfl, hs, s.breakers, rfl⟩

theorem fine_fromPlan {evaluate : Evaluate} {i : String} {p m : ℚ} {justTriggered active : Bool}
    (hs : Sound K s) (hn : ∀ k, o.replaces k = none) (hbuy : justTriggered = false → o.mayBuy = true)
    (hsell : ∀ n lv, s.grids.getLevel i n = some lv → lv.status = .filled → lv.sellPrice ≤ p →
      lv.quantity ≤ o.sells (.level ⟨i, n⟩))
    (hlock : s.hasProfitLock = true → (s.trailingConfig i).isSome = true →
      ∀ n lv, s.grids.getLevel i n = some lv → lv.status = .filled → ¬ lv.sellPrice ≤ p →
        lockSells s.locks ⟨i, n⟩ p ≤ o.sells (.lock ⟨i, n⟩)) :
    Fine K o s (.bind (passGate evaluate i p) (fun gate =>
      .bind (executePlan i (!justTriggered && gate) (plan (s.grids.listLevels i) p active m))
        (fun _ => forwardToLocks i p))) := by
  rw [Fine, under_bind]
  refine under_mono (under_passGate hs) ?_
  rintro _ o' s' ⟨⟨gate, rfl⟩, rfl, hs', b, rfl⟩
  exact fine_carryOut hs' hn (fun h => hbuy (by simp at h; exact h.1)) hsell hlock

theorem fine_onPriceUpdate {evaluate : Evaluate} {today : Date} {i : String} {p : ℚ} (hs : Sound K s)
    (hn : ∀ k, o.replaces k = none) (hc : o.mayCancel = true) (hbuy : o.mayBuy = true)
    (hsell : ∀ n lv, s.grids.getLevel i n = some lv → lv.status = .filled → lv.sellPrice ≤ p →
      lv.quantity ≤ o.sells (.level ⟨i, n⟩))
    (hlock : s.hasProfitLock = true → (s.trailingConfig i).isSome = true →
      ∀ n lv, s.grids.getLevel i n = some lv → lv.status = .filled → ¬ lv.sellPrice ≤ p →
        lockSells s.locks ⟨i, n⟩ p ≤ o.sells (.lock ⟨i, n⟩)) :
    Fine K o s (onPriceUpdate evaluate today i p) := by
  rw [Fine, onPriceUpdate, bind_eq, under_bind, under_read, thenUnder_ok]
  split
  next => trivial
  next state hg =>
    split
    next => trivial
    next =>
      rw [bind_eq, under_bind, setCurrentPrice, modifyGrids, under_modify]
      have h1 := hs.withGrids (hs.numbered.assignGrid i (fun g => { g with currentPrice := some p })
        (fun _ => rfl))
      refine ⟨h1, trivial, ?_⟩
      rw [thenUnder_ok, bind_eq, under_bind]
      refine under_mono (under_checkBreaker h1 hn hc) ?_
      rintro (e | justTriggered) o' s2 ⟨rfl, hs2, hsame2⟩
      · trivial
      · have hsame := (SameLevels.assignGrid s i (fun g => { g with currentPrice := some p })
          (fun _ => rfl)).trans hsame2
        rw [thenUnder_ok, bind_eq, under_bind, under_read, thenUnder_ok]
        refine fine_fromPlan hs2 hn (fun _ => hbuy) ?_ ?_
        · intro n lv' hlv' hf hle
          obtain ⟨lv, hlv, h1, h2, h3⟩ := hsame.levels n lv' hlv'
          rw [h3]
          exact hsell n lv hlv (h1 ▸ hf) (h2 ▸ hle)
        · intro hpl ht n lv' hlv' hf hle
          obtain ⟨lv, hlv, h1, h2, h3⟩ := hsame.levels n lv' hlv'
          rw [hsame.locks]
          exact hlock (hsame.hasProfitLock ▸ hpl) (hsame.trailingConfig ▸ ht) n lv hlv (h1 ▸ hf) (h2 ▸ hle)

end Utos.Grid.PlanTerms
