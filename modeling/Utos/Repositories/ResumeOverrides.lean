import Mathlib.Logic.Function.Basic
import Utos.Coroutine.Trace
import Utos.Repositories.BreakerThreshold

namespace Utos.Repositories.ResumeOverrides

open Core Core.DomainTypes Coroutine Thresholds

/-- What a row has to say: the screening of the last upsert, and for each resume
field the last value given, or the default of the tier at the insertion. -/
structure Expected where
  screening : Screening
  resume : Resume
  deriving DecidableEq, Repr

structure Session where
  rows : Rows := ∅
  expected : Key → Option Expected := fun _ => none

variable (numeric : Numeric)

def expect (expected : Key → Option Expected) : Call → Key → Option Expected
  | .upsert _ exchange symbol rate screening args =>
      let key := keyOf numeric exchange symbol rate
      let before := ((expected key).map Expected.resume).getD ((resumeDefaultsForRate rate).stored numeric)
      Function.update expected key (some ⟨screening.stored numeric, args.over numeric before⟩)
  | .updateResumeConfig _ exchange symbol rate args =>
      let key := keyOf numeric exchange symbol rate
      Function.update expected key ((expected key).map (fun e => { e with resume := args.over numeric e.resume }))

def step (s : Session) (c : Call) : Session :=
  { rows := call numeric s.rows c, expected := expect numeric s.expected c }

def said (row : BreakerThreshold) : Expected := ⟨row.screening, row.resume⟩

def Survives (s : Session) : Prop := ∀ key, (s.rows.get key).map said = s.expected key

/-- Every resume argument that is None finds the default of the tier in the row, if there is a row. -/
def Meets (s : Session) : Call → Prop
  | .upsert _ exchange symbol rate _ args =>
      let defaults := (resumeDefaultsForRate rate).stored numeric
      ∀ row, s.rows.get (keyOf numeric exchange symbol rate) = some row →
        (args.resumeMode = none → row.resume.resumeMode = defaults.resumeMode) ∧
        (args.recoveryPct = none → row.resume.recoveryPct = defaults.recoveryPct) ∧
        (args.widenMultiplier = none → row.resume.widenMultiplier = defaults.widenMultiplier)
  | .updateResumeConfig .. => True

variable {numeric} {s : Session}

theorem over_stored (args : ResumeArgs) (resume : Resume) :
    args.over numeric (resume.stored numeric) = (args.orElse resume).stored numeric := by
  obtain ⟨mode, recovery, widen⟩ := args
  cases recovery <;> cases widen <;> rfl

/-- What is given hides what was there before, and nothing else does. -/
theorem over_eq_iff {args : ResumeArgs} {resume resume' : Resume} :
    args.over numeric resume = args.over numeric resume' ↔
      (args.resumeMode = none → resume.resumeMode = resume'.resumeMode) ∧
      (args.recoveryPct = none → resume.recoveryPct = resume'.recoveryPct) ∧
      (args.widenMultiplier = none → resume.widenMultiplier = resume'.widenMultiplier) := by
  obtain ⟨mode, recovery, widen⟩ := args
  cases mode <;> cases recovery <;> cases widen <;> simp [ResumeArgs.over]

/-- Where only one key is written on both sides, only that key has to be compared. -/
theorem survives_iff_of_write {rows : Rows} {expected : Key → Option Expected} {key : Key}
    {value : Option BreakerThreshold} (hs : Survives s)
    (hrows : ∀ k, rows.get k = if k = key then value else s.rows.get k)
    (hexpected : ∀ k, k ≠ key → expected k = s.expected k) :
    Survives ⟨rows, expected⟩ ↔ value.map said = expected key := by
  constructor
  · intro h
    have hkey : (rows.get key).map said = expected key := h key
    rwa [hrows, if_pos rfl] at hkey
  · intro hvalue k
    show (rows.get k).map said = expected k
    rw [hrows]
    by_cases hk : k = key
    · rw [if_pos hk, hk, hvalue]
    · rw [if_neg hk, hexpected k hk, hs k]

theorem survives_upsert {drawn : Drawn} {exchange symbol : String} {rate : ℚ} {screening : Screening}
    {args : ResumeArgs} (hs : Survives s) :
    Survives (step numeric s (.upsert drawn exchange symbol rate screening args)) ↔
      Meets numeric s (.upsert drawn exchange symbol rate screening args) := by
  obtain ⟨row, hscreening, hresume, hrows⟩ :=
    manualUpsert_get drawn (valuesOf numeric exchange symbol rate screening args) s.rows
  rw [← upsert_eq] at hrows
  refine (survives_iff_of_write hs hrows (fun k hk => Function.update_of_ne hk _ _)).trans ?_
  have hsaid : said row = ⟨screening.stored numeric,
      args.over numeric ((resumeDefaultsForRate rate).stored numeric)⟩ := by
    rw [over_stored, said, hscreening, hresume]
    rfl
  rw [Option.map_some, hsaid]
  simp only [valuesOf, expect, Function.update_self, Option.some.injEq, Expected.mk.injEq, true_and, Meets,
    ← hs (keyOf numeric exchange symbol rate)]
  cases s.rows.get (keyOf numeric exchange symbol rate) with
  | none => simp
  | some before =>
      simp only [Option.map_some, Option.getD_some, said, Option.some.injEq, forall_eq']
      rw [eq_comm]
      exact over_eq_iff

theorem survives_updateResumeConfig {now : Nat} {exchange symbol : String} {rate : ℚ} {args : ResumeArgs}
    (hs : Survives s) : Survives (step numeric s (.updateResumeConfig now exchange symbol rate args)) := by
  refine (survives_iff_of_write hs updateResumeConfig_get (fun k hk => Function.update_of_ne hk _ _)).mpr ?_
  simp only [expect, Function.update_self, ← hs (keyOf numeric exchange symbol rate), Option.map_map]
  rfl

/-- The overrides survive in every state of a run exactly when every upsert that
leaves a resume field out finds the default of the tier in an existing row. -/
theorem overridesSurvive_iff (numeric : Numeric) (calls : List Call) :
    AllMeet (step numeric) (fun s c => Survives (step numeric s c)) {} calls ↔
      AllMeet (step numeric) (Meets numeric) {} calls := by
  refine allMeet_keeps_iff (fun s c hs => ?_) (fun _ => rfl)
  cases c with
  | upsert drawn exchange symbol rate screening args => exact survives_upsert hs
  | updateResumeConfig now exchange symbol rate args => exact iff_of_true (survives_updateResumeConfig hs) trivial

def btc : ScreeningResult :=
  { exchange := "binance", symbol := "BTCUSDT", rate := 9 / 10, screening := { thresholdPct := 4 } }

def drawn : Drawn := { id := 1, now := 0, native := true }

/-- BTCUSDT is screened, an admin overrides the resume mode, and it is screened again. -/
def overridden : List Call :=
  rescreenAll drawn [btc] ++
    .updateResumeConfig 1 "binance" "BTCUSDT" (9 / 10) { resumeMode := some "trailing_buy" } ::
      rescreenAll drawn [btc]

theorem override_lost : ¬ ∀ (numeric : Numeric) (calls : List Call),
    AllMeet (step numeric) (fun s c => Survives (step numeric s c)) {} calls := by
  intro h
  have hlast := (h (fun _ x => x) overridden).2.2.1 ⟨"binance", "BTCUSDT", 9 / 10⟩
  revert hlast
  decide +kernel

end Utos.Repositories.ResumeOverrides
