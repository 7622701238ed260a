import Utos.Coroutine.Pool
import Utos.Grid.Room
import Utos.Grid.CallTerms

namespace Utos.Grid.Oversell

open Coroutine Program Core.DomainTypes Core.Exceptions Execution.Models Execution.Service Execution.Exchange
open CircuitBreaker Engine Trading Invariant Terms CallTerms Holdings Room

/-- The engines, called by one caller at a time, and the exchange, which fills
orders at any moment. While a call runs, what it may still ask for is kept,
along with the choices of the exchange. -/
structure Session where
  pool : Pool GridEngine (Desk Owner) (ExecReq Owner) (ExecAns Owner) Exn Unit
  running : Option (Quota × Oracle) := none

inductive Move
  | call (c : Call) (oracle : Oracle)
  | answer
  | resume
  | fill (ref : Nat) (quantity : ℚ)

namespace Session

def opening (hasProfitLock : Bool) : Session := ⟨⟨{ hasProfitLock := hasProfitLock }, {}, fun _ => none⟩, none⟩

/-- The task in hand, and what it may still ask for. -/
def pending (s : Session) : Option (ExecReq Owner × Quota × Oracle) :=
  match s.running, s.pool.tasks 0 with
  | some (o, oracle), some (.asked q _) => some (q, o, oracle)
  | _, _ => none

/-- A call that has come to its end is running no more. -/
def settled (s : Session) : Session :=
  match s.pool.tasks 0 with
  | some (.done _) => { s with running := none }
  | _ => s

variable (evaluate : Evaluate)

def move (s : Session) : Move → Session
  | .call c oracle => match s.running with
      | none => settled ⟨s.pool.start 0 (perform evaluate c), some (quota s.pool.store c, oracle)⟩
      | some _ => s
  | .answer => match s.pending with
      | none => s
      | some (q, o, oracle) => ⟨s.pool.act (deskHandler oracle) 0, some (o.spend q, oracle)⟩
  | .resume => settled { s with pool := s.pool.resume 0 }
  | .fill ref quantity => { s with pool := { s.pool with world := s.pool.world.fill ref quantity } }

def moves (s : Session) (ms : List Move) : Session := ms.foldl (move evaluate) s

/-- When a fill goes well: the level of a buy that fills has no more live sells
than that, and the levels still have room for what the running call is going to offer. -/
def FillFits (d : Desk Owner) (remaining : Option (Quota × Oracle)) (ref : Nat) (quantity : ℚ) : Prop :=
  Absorbs d ref quantity ∧ ∀ o oracle, remaining = some (o, oracle) → Fits o ⟨d.fill ref quantity, oracle⟩

/-- The condition on the moves: a call starts only if every level that it is going
to sell for has room for that. -/
def Meets (s : Session) : Move → Prop
  | .call c oracle => HasRoom (quota s.pool.store c) ⟨s.pool.world, oracle⟩
  | .answer => ∀ acct orderId o oracle ref quantity, s.pending = some (.cancelOrder acct orderId, o, oracle) →
      s.pool.world.index (acct, orderId) = some ref → (oracle.cancel ref).effect = .filled quantity →
        FillFits s.pool.world (some (o.spend (.cancelOrder acct orderId), oracle)) ref quantity
  | .resume => True
  | .fill ref quantity => FillFits s.pool.world s.running ref quantity

def AllMeet (s : Session) : List Move → Prop
  | [] => True
  | m :: ms => s.Meets m ∧ AllMeet (s.move evaluate m) ms

end Session

variable {evaluate : Evaluate} {s : Session}

/-- A single task, which owns what is left of its quota. -/
def owner (running : Option (Quota × Oracle)) : Nat → Option Quota :=
  Function.update (fun _ => none) 0 (running.map Prod.fst)

/-- There is never a second task. -/
def Alone (_ _ : Quota) : Prop := False

theorem fair_alone : (terms ∅).Fair Alone where
  symm _ _ h := h.elim
  spend _ _ _ h := h.elim
  refl _ _ := rfl
  trans _ s s' s'' h h' := by
    rw [terms_rely] at h h' ⊢
    exact h'.trans h
  guar _ _ _ _ h := h.elim
  asks o s s' q h h' := by
    rw [terms_rely] at h'
    exact h' ▸ h

theorem owner_zero (running : Option (Quota × Oracle)) : owner running 0 = running.map Prod.fst :=
  Function.update_self ..

theorem owner_eq_some {running : Option (Quota × Oracle)} {i : Nat} {o : Quota} (h : owner running i = some o) :
    i = 0 := by
  by_contra hi
  rw [owner, Function.update_of_ne hi] at h
  cases h

theorem owner_update (running : Option (Quota × Oracle)) (o : Quota) (oracle : Oracle) :
    Function.update (owner running) 0 (some o) = owner (some (o, oracle)) := by
  simp [owner]

/-- What holds after every move of a run that meets the condition. -/
structure Good (s : Session) : Prop where
  sound : s.pool.Sound (terms ∅) Alone (owner s.running)
  safe : Safe s.pool.world
  within : ∀ o oracle, s.running = some (o, oracle) → Within o ⟨s.pool.world, oracle⟩

theorem Good.settled (h : Good s) : Good s.settled := by
  unfold Session.settled
  split
  next r ht =>
    have hsound := h.sound.forget ht
    refine ⟨?_, h.safe, fun o oracle ho => by cases ho⟩
    have hown : Function.update (owner s.running) 0 none = owner none := by simp [owner]
    rwa [hown] at hsound
  next => exact h

theorem good_opening (b : Bool) : Good (Session.opening b) := by
  refine ⟨?_, ⟨fun o ho => by simp [Session.opening] at ho, fun k => ?_⟩, fun o oracle ho => by cases ho⟩
  · have hown : owner (Session.opening b).running = fun _ => none := by simp [owner, Session.opening]
    rw [hown]
    exact Pool.sound_idle _ _ (Reach.sound_start b)
  · simp [outstanding, held, liveSells, tally, Session.opening]

theorem quota_nonneg (s : GridEngine) (call : Call) (owner : Owner) : 0 ≤ (quota s call).sells owner :=
  le_max_right _ _

theorem Good.call (h : Good s) {call : Call} {oracle : Oracle}
    (hm : HasRoom (quota s.pool.store call) ⟨s.pool.world, oracle⟩) :
    Good ⟨s.pool.start 0 (perform evaluate call), some (quota s.pool.store call, oracle)⟩ := by
  have hfine : Fine ∅ (quota s.pool.store call) s.pool.store (perform evaluate call) :=
    fine_perform h.sound.inv (fun k _ hk => by simp at hk)
  obtain ⟨hsound, -⟩ := h.sound.start (i := 0) fair_alone (fun j o' hj hown => absurd (owner_eq_some hown) hj) hfine
  rw [owner_update _ _ oracle] at hsound
  refine ⟨hsound, h.safe, fun o oracle' ho => ?_⟩
  cases ho
  exact ⟨h.safe, quota_nonneg _ _, hm⟩

theorem Good.answer (h : Good s) {q : ExecReq Owner} {o : Quota} {oracle : Oracle}
    (hp : s.pending = some (q, o, oracle)) (hm : s.Meets .answer) :
    Good ⟨s.pool.act (deskHandler oracle) 0, some (o.spend q, oracle)⟩ := by
  have hrun : s.running = some (o, oracle) ∧ ∃ k, s.pool.tasks 0 = some (.asked q k) := by
    unfold Session.pending at hp
    split at hp
    next o' oracle' q' k ho ht =>
      simp only [Option.some.injEq, Prod.mk.injEq] at hp
      obtain ⟨rfl, rfl, rfl⟩ := hp
      exact ⟨ho, k, ht⟩
    next => cases hp
  obtain ⟨ho, k, ht⟩ := hrun
  have hown : owner s.running 0 = some o := by rw [owner_zero, ho]; rfl
  have hw := h.within o oracle ho
  have hallows := (h.sound.task ht hown).1.1
  have hstep : Within (o.spend q) (handler ⟨s.pool.world, oracle⟩ q).2 := by
    cases q with
    | placeOrder owner request => exact hw.placeOrder hallows
    | cancelOrder acct orderId =>
        refine hw.cancelOrder (fun r quantity hr he => ?_)
        obtain ⟨habs, hfits⟩ := hm acct orderId o oracle r quantity hp hr he
        exact ⟨habs, hfits _ _ rfl⟩
  have hworld : (s.pool.act (deskHandler oracle) 0).world = (handler ⟨s.pool.world, oracle⟩ q).2.desk := by
    simp only [Pool.act, ht, deskHandler]
  have hsound := h.sound.act (h := deskHandler oracle) fair_alone ht hown
  rw [owner_update _ _ oracle] at hsound
  have horacle : (handler ⟨s.pool.world, oracle⟩ q).2 = ⟨(s.pool.act (deskHandler oracle) 0).world, oracle⟩ := by
    rw [hworld]
    cases q with
    | placeOrder owner request => simp only [handler]; split <;> rfl
    | cancelOrder acct orderId => rw [handler_cancelOrder]
  rw [horacle] at hstep
  refine ⟨hsound, hstep.safe, fun o' oracle' ho' => ?_⟩
  cases ho'
  exact hstep

theorem Good.resume (h : Good s) : Good { s with pool := s.pool.resume 0 } := by
  have hpool : (s.pool.resume 0).Sound (terms ∅) Alone (owner s.running) := by
    cases ho : owner s.running 0 with
    | some o => exact (h.sound.resume fair_alone ho (fun _ _ _ _ => trivial)).1
    | none => exact (h.sound.resume_none ho).symm ▸ h.sound
  refine ⟨hpool, ?_, fun o oracle ho => ?_⟩
  · rw [Pool.resume_world]
    exact h.safe
  · rw [Pool.resume_world]
    exact h.within o oracle ho

theorem Good.fill (h : Good s) {r : Nat} {quantity : ℚ} (hm : s.Meets (.fill r quantity)) :
    Good { s with pool := { s.pool with world := s.pool.world.fill r quantity } } := by
  refine ⟨⟨h.sound.inv, h.sound.tasks, h.sound.apart⟩, h.safe.fill hm.1, fun o oracle ho => ?_⟩
  have hw := h.within o oracle ho
  exact ⟨h.safe.fill hm.1, hw.nonneg, ⟨hm.2 o oracle ho, hw.room.single, hw.room.fresh⟩⟩

theorem Good.move (h : Good s) {m : Move} (hm : s.Meets m) : Good (s.move evaluate m) := by
  cases m with
  | call c oracle =>
      simp only [Session.move]
      split
      next => exact (h.call hm).settled
      next => exact h
  | answer =>
      simp only [Session.move]
      split
      next => exact h
      next q o oracle hp => exact h.answer hp hm
  | resume => exact h.resume.settled
  | fill r quantity => exact h.fill hm

/-- In every run in which the condition is met at every move, no level is ever
oversold: whatever the calls, the answers of the exchange and the moments at which it fills orders. -/
theorem noOversell_of_allMeet (hasProfitLock : Bool) (ms : List Move)
    (h : (Session.opening hasProfitLock).AllMeet evaluate ms) :
    NoOversell ((Session.opening hasProfitLock).moves evaluate ms).pool.world := by
  have hrun : ∀ (ms : List Move) (s : Session), Good s → s.AllMeet evaluate ms → Good (s.moves evaluate ms) := by
    intro ms
    induction ms with
    | nil => exact fun s hs _ => hs
    | cons m ms ih => exact fun s hs hall => ih _ (hs.move hall.1) hall.2
  exact (hrun ms _ (good_opening hasProfitLock) h).safe.noOversell

namespace Session

def cancelling (s : Session) : Bool :=
  match s.pending with
  | some (.cancelOrder _ _, _) => true
  | _ => false

theorem meets_answer_of_not_cancelling (h : s.cancelling = false) : s.Meets .answer := by
  intro acct orderId o oracle r quantity hp
  simp [cancelling, hp] at h

theorem meets_fill_of_idle {r : Nat} {quantity : ℚ} (hrunning : s.running.isNone = true)
    (habs : Absorbs s.pool.world r quantity) : s.Meets (.fill r quantity) := by
  refine ⟨habs, fun o oracle ho => ?_⟩
  rw [ho] at hrunning
  cases hrunning

/-- The choices of a willing exchange leave only the room on the levels to be shown. -/
theorem meets_call_of_fits {c : Call} (hfits : Fits (quota s.pool.store c) ⟨s.pool.world, willing⟩)
    (hreplaces : ∀ k, (quota s.pool.store c).replaces k = none) : s.Meets (.call c willing) :=
  ⟨hfits, fun _ _ => le_of_eq rfl, fun request orderId k _ => by rw [hreplaces]; simp⟩

end Session

/-- Both buys are placed, the one at 100 fills, and its sell at 120 is placed. -/
def boughtOnce : List Move :=
  [.call (.initializeGrid "grid" twoLevels) willing, .call (.activateGrid "grid" 115) willing, .answer, .resume,
   .answer, .resume, .fill 0 (11 / 5), .call (.onBuyFilled "grid" 0 100 (11 / 5)) willing, .answer, .resume]

theorem noOversell_of_allMeet_boughtOnce :
    NoOversell ((Session.opening true).moves (fun _ _ _ => true) boughtOnce).pool.world := by
  have hquiet : ∀ (s : Session) (c : Call), (∀ owner, offers s.pool.store c owner = 0) →
      (∀ k, replaces s.pool.store c k = none) → s.Meets (.call c willing) := by
    intro s c hoffers hreplaces
    refine Session.meets_call_of_fits (fun k hk => ?_) hreplaces
    simp [total, quota, hoffers] at hk
  refine noOversell_of_allMeet true boughtOnce ⟨hquiet _ _ (fun _ => rfl) (fun _ => rfl),
    hquiet _ _ (fun _ => rfl) (fun _ => rfl), Session.meets_answer_of_not_cancelling (by decide +kernel), trivial,
    Session.meets_answer_of_not_cancelling (by decide +kernel), trivial,
    Session.meets_fill_of_idle (by decide +kernel) (by decide +kernel),
    Session.meets_call_of_fits (fun k hk => ?_) (fun _ => rfl),
    Session.meets_answer_of_not_cancelling (by decide +kernel), trivial, trivial⟩
  have hk : k = ⟨"grid", 0⟩ := by
    by_contra hne
    simp [total, quota, offers, hne] at hk
  subst hk
  decide +kernel

/-- With trailing profit configured, the level at 100 buys and is sold by hand at
120; it stays in status FILLED, and when the price reaches 120 it is sold again. -/
def soldTwice : List Move :=
  [.call (.configureTrailingProfit "grid" { triggerPercentage := 1, trailPercentage := 1 }) willing,
   .call (.initializeGrid "grid" twoLevels) willing, .call (.activateGrid "grid" 115) willing, .answer, .resume,
   .answer, .resume, .fill 0 (11 / 5), .call (.onBuyFilled "grid" 0 100 (11 / 5)) willing,
   .call (.forceSell "grid" (some 0) (some 120) none) willing, .answer, .resume,
   .call (.onPriceUpdate 1 "grid" 120) willing, .answer]

theorem soldTwice_oversells :
    ¬ NoOversell ((Session.opening true).moves (fun _ _ _ => true) soldTwice).pool.world := by
  intro h
  have hlevel := h ⟨"grid", 0⟩
  revert hlevel
  decide +kernel

end Utos.Grid.Oversell
