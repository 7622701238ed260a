import Utos.Services.StrategyModeStore

namespace Utos.Services.StrategyModeStore

open Coroutine Program Core.DomainTypes Core.Exceptions

abbrev Work := Option (Task Store Request Answer Exn Value)

/-- What a load that has not ended is bound to put in the cache. -/
def stores : Work → Option (List ModeDict)
  | some (.answered .select (.ok rows) _) => some (loadFromDb rows)
  | some (.answered .select (.error _) _) => some defaultStrategyModes
  | some (.asked (.close true) _) => some defaultStrategyModes
  | some (.answered (.close true) _ _) => some defaultStrategyModes
  | some (.answered (.close false) (.error _) _) => some defaultStrategyModes
  | _ => none

/-- A load that has filled the cache ends its session. -/
def Closing : Work → Prop
  | some (.asked (.close false) _) => True
  | some (.answered (.close false) _ _) => True
  | _ => False

/-- An update that goes on will drop the cache. -/
def Invalidates : Work → Prop
  | some (.answered (.refresh _ _) (.ok _) _) => True
  | _ => False

/-- A load that has taken the lock. -/
def Holds : Work → Prop
  | some (.answered .acquire _ _) => True
  | some (.asked .select _) => True
  | some (.answered .select _ _) => True
  | some (.asked (.close _) _) => True
  | some (.answered (.close _) _ _) => True
  | _ => False

variable {conclude : Option (List ModeDict) → Except Exn Value} {was : Work} {s s' : Store}
variable {t : Task Store Request Answer Exn Value} {q : Request} {k : Answer q → Op Value}

/-- What a stretch of a task leaves in the cache, or is bound to put there later, was there before
or is what the task was bound to put there. If the lock is taken, the task has it or left it alone. -/
structure Stretch (was : Work) (s : Store) (next : Task Store Request Answer Exn Value × Store) : Prop where
  cached : ∀ modes, next.2.cache = some modes → s.cache = some modes ∨ stores was = some modes
  stored : ∀ modes, stores (some next.1) = some modes → stores was = some modes
  held : next.2.locked = true → Holds (some next.1) ∨ s.locked = true ∧ ¬ Holds was

theorem Stretch.of_same (hcache : s'.cache = s.cache) (hstores : stores (some t) = none)
    (hheld : s'.locked = true → Holds (some t) ∨ s.locked = true ∧ ¬ Holds was) : Stretch was s (t, s') := by
  refine ⟨fun modes hmodes => .inl (hcache ▸ hmodes), fun modes hmodes => ?_, hheld⟩
  rw [hstores] at hmodes
  cases hmodes

/-- A call that reads the modes, and concludes from what it reads. -/
def reading (conclude : Option (List ModeDict) → Except Exn Value) (p : Op (Option (List ModeDict))) : Op Value :=
  .bind p (fun modes => .lift (conclude modes))

/-- How the calls that read the modes go on after their requests. -/
inductive Reading (conclude : Option (List ModeDict) → Except Exn Value) : (q : Request) → (Answer q → Op Value) → Prop
  | acquire : Reading conclude .acquire (fun _ => reading conclude underLock)
  | select : Reading conclude .select (fun answer => reading conclude (selected answer))
  | close (failed : Bool) : Reading conclude (.close failed) (fun answer => reading conclude (closed failed answer))

inductive Updating : (q : Request) → (Answer q → Op Value) → Prop
  | selectMode (session : Nat) (mode : String) (fields : Fields) : Updating (.selectMode session (upper mode))
      (fun answer => .bind (found session mode fields answer) (fun mode => .ret (.updated mode)))
  | flush (session : Nat) (mode : String) (fields : Fields) : Updating (.flush session (upper mode) fields)
      (fun answer => .bind (flushed session mode answer) (fun mode => .ret (.updated mode)))
  | refresh (session : Nat) (mode : String) : Updating (.refresh session (upper mode))
      (fun answer => .bind (refreshed answer) (fun mode => .ret (.updated mode)))

/-- A task goes on as calls of its kind do. -/
def Shaped (goesOn : (q : Request) → (Answer q → Op Value) → Prop) : Work → Prop
  | some (.asked q k) => goesOn q k
  | some (.answered q _ k) => goesOn q k
  | _ => True

/-- What a call that reads the modes leaves when it gives up control. -/
structure Reads (conclude : Option (List ModeDict) → Except Exn Value) (was : Work) (s : Store)
    (next : Task Store Request Answer Exn Value × Store) : Prop where
  stretch : Stretch was s next
  shaped : Shaped (Reading conclude) (some next.1)
  keeps : s.cache ≠ none → next.2.cache ≠ none
  closing : Closing (some next.1) → next.2.cache ≠ none
  ended : ∀ r, next.1 = .done r → r = conclude next.2.cache ∧ (next.2.cache = none → Closing was)

theorem advance_lift (e : Except Exn Value) (s : Store) : (Program.lift e : Op Value).advance s = (.done e, s) := by
  cases e <;> rfl

theorem advance_leave (conclude : Option (List ModeDict) → Except Exn Value) (s : Store) :
    (reading conclude leave).advance s = (.done (conclude s.cache), { s with locked := false }) := by
  simp only [reading, leave, Program.bind, Program.advance, advance_lift]

theorem advance_underLock_some {modes : List ModeDict} (hcache : s.cache = some modes) :
    (reading conclude underLock).advance s = (.done (conclude s.cache), { s with locked := false }) := by
  simp only [reading, underLock, Program.bind, Program.advance, hcache]
  rw [← hcache]
  exact advance_leave conclude s

theorem advance_underLock_none (hcache : s.cache = none) :
    (reading conclude underLock).advance s = (.asked .select (fun answer => reading conclude (selected answer)), s) := by
  simp only [reading, underLock, Program.bind, Program.advance, hcache]

theorem advance_closed_failed (answer : Except Exn Unit) (s : Store) : (reading conclude (closed true answer)).advance s =
    (.done (conclude (some defaultStrategyModes)), { cache := some defaultStrategyModes, locked := false }) :=
  advance_leave conclude { s with cache := some defaultStrategyModes }

theorem advance_closed_error (exc : Exn) (s : Store) : (reading conclude (closed false (.error exc))).advance s =
    (.done (conclude (some defaultStrategyModes)), { cache := some defaultStrategyModes, locked := false }) :=
  advance_leave conclude { s with cache := some defaultStrategyModes }

theorem advance_closed_ok (s : Store) : (reading conclude (closed false (.ok ()))).advance s =
    (.done (conclude s.cache), { s with locked := false }) :=
  advance_leave conclude s

/-- Whatever becomes of the session, the call ends after it, and the lock is free. -/
theorem advance_closed (conclude : Option (List ModeDict) → Except Exn Value) (failed : Bool) (answer : Except Exn Unit)
    (s : Store) : ∃ cache,
      (reading conclude (closed failed answer)).advance s = (.done (conclude cache), { cache, locked := false }) := by
  cases failed with
  | true => exact ⟨_, advance_closed_failed answer s⟩
  | false =>
      cases answer with
      | error exc => exact ⟨_, advance_closed_error exc s⟩
      | ok => exact ⟨_, advance_closed_ok s⟩

/-- A call that ends with the cache as it is. -/
theorem Reads.of_cached {modes : List ModeDict} (hcache : s.cache = some modes) {locked : Bool}
    (hheld : locked = true → s.locked = true ∧ ¬ Holds was) :
    Reads conclude was s (.done (conclude s.cache), { s with locked }) := by
  refine ⟨.of_same rfl rfl (fun hlocked => .inr (hheld hlocked)), trivial, id, False.elim, fun r hr => ?_⟩
  cases hr
  refine ⟨rfl, fun hnone => ?_⟩
  rw [hcache] at hnone
  cases hnone

theorem reads_underLock (was : Work) (s : Store) : Reads conclude was s ((reading conclude underLock).advance s) := by
  cases hcache : s.cache with
  | some modes =>
      rw [advance_underLock_some hcache]
      exact .of_cached hcache (fun h => (by cases h))
  | none =>
      rw [advance_underLock_none hcache]
      exact ⟨.of_same rfl rfl (fun _ => .inl trivial), .select, id, False.elim, fun r hr => (by cases hr)⟩

theorem advance_loadStrategyModes_some {modes : List ModeDict} (hcache : s.cache = some modes) :
    (reading conclude loadStrategyModes).advance s = (.done (conclude s.cache), s) := by
  simp only [reading, loadStrategyModes, Program.bind, Program.advance, hcache, advance_lift]

theorem reads_loadStrategyModes (s : Store) : Reads conclude none s ((reading conclude loadStrategyModes).advance s) := by
  cases hcache : s.cache with
  | some modes =>
      rw [advance_loadStrategyModes_some hcache]
      exact .of_cached hcache (fun hlocked => ⟨hlocked, id⟩)
  | none =>
      by_cases hlocked : s.locked = true
      · have hadvance : (reading conclude loadStrategyModes).advance s =
            (.asked .acquire (fun _ => reading conclude underLock), s) := by
          simp only [reading, loadStrategyModes, Program.bind, Program.advance, hcache, hlocked, if_true]
        rw [hadvance]
        exact ⟨.of_same rfl rfl (fun hlocked => .inr ⟨hlocked, id⟩), .acquire, id, False.elim, fun r hr => (by cases hr)⟩
      · have hadvance : (reading conclude loadStrategyModes).advance s =
            (reading conclude underLock).advance { s with locked := true } := by
          simp only [reading, loadStrategyModes, Program.bind, Program.advance, hcache, hlocked]
          rfl
        have hnone : ({ s with locked := true } : Store).cache = none := hcache
        rw [hadvance, advance_underLock_none hnone]
        exact ⟨.of_same rfl rfl (fun _ => .inl trivial), .select, id, False.elim, fun r hr => (by cases hr)⟩

/-- The defaults are put in the cache when a load has failed. -/
theorem reads_default (hwas : stores was = some defaultStrategyModes) (s : Store) : Reads conclude was s
    (.done (conclude (some defaultStrategyModes)), { cache := some defaultStrategyModes, locked := false }) := by
  refine ⟨⟨fun modes hmodes => .inr (hwas.trans hmodes), fun modes hmodes => (by cases hmodes), fun h => (by cases h)⟩,
    trivial, fun _ h => (by cases h), False.elim, fun r hr => ?_⟩
  cases hr
  exact ⟨rfl, fun h => (by cases h)⟩

theorem Reading.reads (hreading : Reading conclude q k) (answer : Answer q) (s : Store) :
    Reads conclude (some (.answered q answer k)) s ((k answer).advance s) := by
  cases hreading with
  | acquire => exact reads_underLock _ s
  | select =>
      cases answer with
      | ok rows =>
          exact ⟨⟨fun modes hmodes => .inr hmodes, fun modes hmodes => (by cases hmodes), fun _ => .inl trivial⟩,
            .close false, fun _ h => (by cases h), fun _ h => (by cases h), fun r hr => (by cases hr)⟩
      | error exc =>
          exact ⟨⟨fun modes hmodes => .inl hmodes, fun modes hmodes => hmodes, fun _ => .inl trivial⟩, .close true, id,
            False.elim, fun r hr => (by cases hr)⟩
  | close failed =>
      cases failed with
      | true =>
          dsimp only
          rw [advance_closed_failed]
          exact reads_default rfl s
      | false =>
          cases answer with
          | error exc =>
              dsimp only
              rw [advance_closed_error]
              exact reads_default rfl s
          | ok =>
              dsimp only
              rw [advance_closed_ok]
              refine ⟨.of_same rfl rfl (fun h => (by cases h)), trivial, id, False.elim, fun r hr => ?_⟩
              cases hr
              exact ⟨rfl, fun _ => trivial⟩

structure Updates (was : Work) (s : Store) (next : Task Store Request Answer Exn Value × Store) : Prop where
  stretch : Stretch was s next
  shaped : Shaped Updating (some next.1)
  keeps : ¬ Invalidates was → next.2.cache = s.cache

theorem Updates.of_same (hwas : ¬ Holds was) (hstores : stores (some t) = none) (hshaped : Shaped Updating (some t)) :
    Updates was s (t, s) :=
  ⟨.of_same rfl hstores (fun hlocked => .inr ⟨hlocked, hwas⟩), hshaped, fun _ => rfl⟩

theorem Updating.updates (hupdating : Updating q k) (answer : Answer q) (s : Store) :
    Updates (some (.answered q answer k)) s ((k answer).advance s) := by
  cases hupdating with
  | selectMode session mode fields =>
      cases answer with
      | error exc => exact .of_same id rfl trivial
      | ok sm =>
          cases sm with
          | none => exact .of_same id rfl trivial
          | some sm => exact .of_same id rfl (.flush session mode _)
  | flush session mode fields =>
      cases answer with
      | error exc => exact .of_same id rfl trivial
      | ok => exact .of_same id rfl (.refresh session mode)
  | refresh session mode =>
      cases answer with
      | error exc => exact .of_same id rfl trivial
      | ok sm =>
          exact ⟨⟨fun modes hmodes => (by cases hmodes), fun modes hmodes => (by cases hmodes),
            fun hlocked => .inr ⟨hlocked, id⟩⟩, trivial, fun hkeeps => absurd trivial hkeeps⟩

theorem updates_updateStrategyModeWithSession (session : Nat) (mode : String) (fields : Fields) (s : Store) :
    Updates none s (((Call.updateStrategyModeWithSession mode fields).program session).advance s) :=
  .of_same id rfl (.selectMode session mode fields)

/-- What a read of a mode concludes from the modes. -/
def tpConclusion (m : String) (modes : Option (List ModeDict)) : Except Exn Value := (tpRangeMaxIn m modes).map .tpRangeMax

theorem program_getTpRangeMax (task : Nat) (m : String) :
    (Call.getTpRangeMax m).program task = reading (tpConclusion m) loadStrategyModes := by
  simp only [Call.program, getTpRangeMax, reading, bind_assoc]
  congr 1
  funext modes
  rw [tpConclusion]
  cases tpRangeMaxIn m modes <;> rfl

end Utos.Services.StrategyModeStore
