import Utos.Core.Exceptions
import Utos.Coroutine.Run

namespace Utos.Api.Database

open Core.Exceptions Coroutine Program

/-- An HTTPException, or what becomes a 500. -/
inductive Failure
  | http (status : Nat) (detail : String)
  | raised (e : Exn)

/-- What becomes of a request: it may fail, and a write that fails may have been carried out all the same. -/
structure Outage where
  exn : Option Exn := none
  applied : Bool := false

variable {S Q W α β : Type} {A : Q → Type}

def raising : Except Exn α → Except Failure α
  | .ok a => .ok a
  | .error e => .error (.raised e)

/-- scalar_one_or_none -/
def scalarOneOrNone : List α → Except Exn (Option α)
  | [] => .ok none
  | [a] => .ok (some a)
  | _ => .error (.other "MultipleResultsFound" "Multiple rows were found when one or none was required")

def queried (outage : Outage) (result : Except Exn α) : Except Exn α :=
  match outage.exn with
  | none => result
  | some e => .error e

def written (outage : Outage) (w : W) (done : Except Exn α × W) : Except Exn α × W :=
  match outage.exn with
  | none => done
  | some e => (.error e, if outage.applied then done.2 else w)

variable {outage : Outage} {w : W}

theorem ok_of_raising {x : Except Exn α} {a : α} (hok : raising x = .ok a) : x = .ok a := by
  cases x with
  | error e => cases hok
  | ok b => exact congrArg Except.ok (Except.ok.inj hok)

theorem ok_of_queried {result : Except Exn α} {a : α} (hok : queried outage result = .ok a) : result = .ok a := by
  unfold queried at hok
  split at hok
  · exact hok
  · cases hok

theorem ok_of_written {done : Except Exn α × W} {a : α} (hok : (written outage w done).1 = .ok a) :
    written outage w done = done := by
  unfold written at hok ⊢
  split
  next => rfl
  next e he =>
    rw [he] at hok
    cases hok

/-- Whether a write failed or not, it was carried out, or it was not. -/
theorem written_cases (outage : Outage) (w : W) (done : Except Exn α × W) :
    (written outage w done).2 = done.2 ∨ (written outage w done).2 = w := by
  unfold written
  split
  · exact .inl rfl
  · split
    · exact .inl rfl
    · exact .inr rfl

theorem scalarOneOrNone_ok {rows : List α} {found : Option α} (hok : scalarOneOrNone rows = .ok found) :
    rows = found.toList := by
  cases rows with
  | nil =>
      cases hok
      rfl
  | cons a rows => cases rows with
    | nil =>
        cases hok
        rfl
    | cons b rows => cases hok

theorem scalarOneOrNone_many : ∀ {rows : List α}, 2 ≤ rows.length → scalarOneOrNone rows =
    .error (.other "MultipleResultsFound" "Multiple rows were found when one or none was required")
  | [], htwo => absurd htwo (Nat.not_succ_le_zero 1)
  | [_], htwo => absurd htwo (Nat.not_succ_le_self 1)
  | _ :: _ :: _, _ => rfl

/-- A query that only one row answers. -/
theorem filter_of_mem {R : α → α → Prop} {rows : List α} (hrows : rows.Pairwise R) {p : α → Bool} {a : α} (ha : a ∈ rows)
    (hpa : p a = true) (hother : ∀ b, p b = true → ¬ R a b ∧ ¬ R b a) : rows.filter p = [a] := by
  induction rows with
  | nil => cases ha
  | cons b rows ih =>
      obtain ⟨hb, hrows⟩ := List.pairwise_cons.mp hrows
      rcases List.mem_cons.mp ha with rfl | ha
      · have hothers : rows.filter p = [] :=
          List.filter_eq_nil_iff.mpr (fun c hc hpc => (hother c hpc).1 (hb c hc))
        rw [List.filter_cons_of_pos hpa, hothers]
      · rw [List.filter_cons_of_neg (fun hpb => (hother b hpb).2 (hb a ha)), ih hrows ha]

/-- A request that is answered goes on with its answer. -/
theorem run_await {E : Type} {h : Handler W Q A} {q : Q} {as : A q → Except E α} {k : α → Program S Q A E β} {a : α} {s : S}
    (ha : as (h w q).1 = .ok a) :
    Program.run h (.bind (await q as) k) s w = Program.run h (k a) s (h w q).2 := by
  simp only [await, Program.bind, Program.run, ha, Program.lift]

end Utos.Api.Database
