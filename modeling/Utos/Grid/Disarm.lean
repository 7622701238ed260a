import Utos.Grid.CallTerms

namespace Utos.Grid.Disarm

open Coroutine Program Core.DomainTypes Core.Exceptions Execution.Service Execution.Exchange State CircuitBreaker
open Engine Trading Invariant Terms CallTerms Reach

variable {evaluate : Evaluate} {K : Set LevelKey}

/-- Nothing but the locks of the engine, kept as they are. -/
def sameLocks (locks : Locks) : Protocol GridEngine (ExecReq Owner) (ExecAns Owner) Unit where
  inv s := s.locks = locks
  guar _ _ _ := True
  rely _ s s' := s' = s
  asks _ _ _ := True
  spend _ _ := ()

theorem under_attemptGrids_sameLocks {locks : Locks} {s : GridEngine} (hs : s.locks = locks)
    (f : State.Store → Except Exn (Unit × State.Store)) {R : Except Exn Unit → Unit → GridEngine → Prop}
    (hR : ∀ r s', s'.locks = locks → R r () s') : Under (sameLocks locks) (attemptGrids f) R () s := by
  rw [under_attemptGrids]
  split
  · exact ⟨hs, trivial, hR _ _ hs⟩
  · exact hR _ _ hs

theorem under_completeCycle_sameLocks {s : GridEngine} {locks : Locks} (hs : s.locks = locks) (i : String)
    (n : Nat) (profit : ℚ) :
    Under (sameLocks locks) (completeCycle i n profit) (fun _ _ _ => True) () s := by
  rw [completeCycle, bind_eq, under_bind, modifyGrids, under_modify]
  refine ⟨hs, trivial, ?_⟩
  rw [thenUnder_ok, bind_eq, under_bind, under_read, thenUnder_ok]
  split
  next => trivial
  next =>
    split
    next =>
      refine under_attemptGrids_sameLocks ?_ _ (fun _ _ _ => trivial)
      exact hs
    next => trivial

variable (evaluate) in
theorem onSellFilled_locks (s : Floor) (i : String) (n : Nat) (fillPrice quantity : ℚ) (oracle : Oracle) :
    (s.runCall evaluate (.onSellFilled i n fillPrice quantity) oracle).2.engine.locks = s.engine.locks := by
  have hp : Under (sameLocks s.engine.locks) (onSellFilled i n fillPrice quantity) (fun _ _ _ => True) ()
      s.engine := by
    rw [onSellFilled, bind_eq, under_bind, under_read, thenUnder_ok]
    split
    next => trivial
    next lv hlv =>
      rw [bind_eq, under_bind]
      refine under_attemptGrids_sameLocks rfl _ ?_
      rintro (e | a) s1 hs1
      · trivial
      · rw [thenUnder_ok, bind_eq, under_bind, modifyGrids, under_modify]
        refine ⟨hs1, trivial, ?_⟩
        rw [thenUnder_ok, bind_eq, under_bind, under_read, thenUnder_ok]
        split
        next =>
          refine under_completeCycle_sameLocks ?_ _ _ _
          exact hs1
        next =>
          refine under_completeCycle_sameLocks ?_ _ _ _
          exact hs1
  exact (wp_of_under (h := handler) (fun _ _ => True) (fun _ _ => rfl) (fun _ _ _ => trivial)
    (fun _ _ _ _ _ _ _ => trivial) _ hp rfl
    ⟨s.desk, oracle⟩ trivial).elim (fun _ h => h.1)

/-- The lock of the level is off, and nothing that happens before the next buy
fill of the level makes the profit lock engine ask for an order on its behalf. -/
def Disarmed (evaluate : Evaluate) (s : Floor) (k : LevelKey) : Prop :=
  Off s.engine.locks k ∧ ∀ events : List Event, (∀ e ∈ events, ¬ BuyFill k e) →
    (s.runEvents evaluate events).desk.asked.count (.lock k) = s.desk.asked.count (.lock k)

/-- A sell fill leaves the lock of its level as it finds it, so the level ends
up disarmed exactly if its lock was off already. -/
theorem onSellFilled_disarms_iff {s : Floor} (hs : s.Reachable evaluate) (i : String) (n : Nat)
    (fillPrice quantity : ℚ) (oracle : Oracle) :
    Disarmed evaluate (s.runCall evaluate (.onSellFilled i n fillPrice quantity) oracle).2 ⟨i, n⟩ ↔
      Off s.engine.locks ⟨i, n⟩ := by
  have hlocks := onSellFilled_locks evaluate s i n fillPrice quantity oracle
  refine ⟨fun h => hlocks ▸ h.1, fun hoff => ⟨hlocks ▸ hoff, fun events hevents => ?_⟩⟩
  have hsound := reachable_sound hs
  have hK : Sound {⟨i, n⟩} s.engine :=
    ⟨hsound.numbered, hsound.locksOk, fun k hk => (Set.mem_singleton_iff.mp hk) ▸ hoff⟩
  have hcall := (runCall_keeps evaluate (.onSellFilled i n fillPrice quantity) hK
    (fun k hk => by simp [enables] at hk) oracle).1
  exact (runEvents_keeps events hcall (fun e he k hk => (Set.mem_singleton_iff.mp hk) ▸ hevents e he)).2 _
    (Set.mem_singleton _)

/-- Trailing profit is configured, the level at 100 buys, is sold by hand and
its sell fills. -/
def soldByHand : Floor :=
  (Floor.start true).runEvents (fun _ _ _ => true)
    (.call (.configureTrailingProfit "grid" { triggerPercentage := 1, trailPercentage := 1 }) willing :: activated ++
      [.fill 0 (11 / 5),
       .call (.onBuyFilled "grid" 0 100 (11 / 5)) willing,
       .call (.forceSell "grid" (some 0) none none) willing,
       .fill 2 (11 / 5)])

def sellDelivered : Floor := (soldByHand.runCall (fun _ _ _ => true) (.onSellFilled "grid" 0 115 (11 / 5)) willing).2

theorem onSellFilled_disarms_iff_soldByHand :
    Disarmed (fun _ _ _ => true) sellDelivered ⟨"grid", 0⟩ ↔ Off soldByHand.engine.locks ⟨"grid", 0⟩ :=
  onSellFilled_disarms_iff ⟨true, _, rfl⟩ "grid" 0 115 (11 / 5) willing

/-- The sell fill leaves an armed lock behind, which asks for an order as the
price goes up and comes back. -/
theorem onSellFilled_leaves_lock_armed :
    soldByHand.Reachable (fun _ _ _ => true) ∧
      (soldByHand.runCall (fun _ _ _ => true) (.onSellFilled "grid" 0 115 (11 / 5)) willing).1 = .ok () ∧
      ¬ Disarmed (fun _ _ _ => true) sellDelivered ⟨"grid", 0⟩ := by
  refine ⟨⟨true, _, rfl⟩, by decide +kernel, ?_⟩
  rintro ⟨-, h⟩
  have hcount := h [.call (.lock (.onPriceUpdate ⟨"grid", 0⟩ 120)) willing,
    .call (.lock (.onPriceUpdate ⟨"grid", 0⟩ 110)) willing] (by
      rintro e he ⟨fillPrice, quantity, oracle, rfl⟩
      simp at he)
  revert hcount
  decide +kernel

end Utos.Grid.Disarm
