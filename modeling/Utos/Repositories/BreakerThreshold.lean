import Mathlib.Data.Rat.Defs
import Utos.Core.Dict
import Utos.Core.DomainTypes

namespace Utos.Repositories.Thresholds

open Core Core.DomainTypes

/-- The numeric columns of breaker_thresholds. -/
inductive Column
  | minContinuationRate
  | thresholdPct
  | minFutureDropPct
  | recoveryPct
  | widenMultiplier
  deriving DecidableEq, Repr

structure Resume where
  resumeMode : String
  recoveryPct : ℚ
  widenMultiplier : ℚ
  deriving DecidableEq, Repr

/-- The resume arguments of a call, each of which may be None. -/
structure ResumeArgs where
  resumeMode : Option String := none
  recoveryPct : Option ℚ := none
  widenMultiplier : Option ℚ := none
  deriving DecidableEq, Repr

structure Screening where
  thresholdPct : ℚ
  continuationWindow : Nat := 5
  minFutureDropPct : ℚ := 9
  lookbackDays : Nat := 365
  candleCount : Nat := 0
  usedFallback : Bool := false
  note : Option String := none
  deriving DecidableEq, Repr

structure Key where
  exchange : String
  symbol : String
  rate : ℚ
  deriving DecidableEq, Repr

structure BreakerThreshold where
  id : UUID
  screening : Screening
  resume : Resume
  screenedAt : Nat
  updatedAt : Nat
  deriving DecidableEq, Repr

abbrev Rows := Dict Key BreakerThreshold

def tierResumeDefaults : List (ℚ × Resume) :=
  [(7 / 10, ⟨"trailing_buy", 5, 2⟩), (8 / 10, ⟨"ta_confirm", 5, 2⟩), (9 / 10, ⟨"widen_step", 5, 2⟩)]

def resumeDefaultsForRate (rate : ℚ) : Resume := (tierResumeDefaults.lookup rate).getD ⟨"ta_confirm", 5, 2⟩

/-- The arguments given, with another resume behaviour for those that are None. -/
def ResumeArgs.orElse (args : ResumeArgs) (resume : Resume) : Resume :=
  { resumeMode := args.resumeMode.getD resume.resumeMode
    recoveryPct := args.recoveryPct.getD resume.recoveryPct
    widenMultiplier := args.widenMultiplier.getD resume.widenMultiplier }

/-- What a numeric column keeps of float(value). -/
abbrev Numeric := Column → ℚ → ℚ

variable (numeric : Numeric)

def keyOf (exchange symbol : String) (rate : ℚ) : Key :=
  { exchange := lower exchange, symbol := upper symbol, rate := numeric .minContinuationRate rate }

def Resume.stored (resume : Resume) : Resume :=
  { resume with recoveryPct := numeric .recoveryPct resume.recoveryPct
                widenMultiplier := numeric .widenMultiplier resume.widenMultiplier }

def Screening.stored (screening : Screening) : Screening :=
  { screening with thresholdPct := numeric .thresholdPct screening.thresholdPct
                   minFutureDropPct := numeric .minFutureDropPct screening.minFutureDropPct }

/-- The id and the time that a call draws, and whether the dialect knows the native statement. -/
structure Drawn where
  id : UUID
  now : Nat
  native : Bool
  deriving DecidableEq, Repr

/-- The values of one upsert, as it writes them on both paths. -/
structure Values where
  key : Key
  screening : Screening
  resume : Resume

def valuesOf (exchange symbol : String) (rate : ℚ) (screening : Screening) (args : ResumeArgs) : Values :=
  { key := keyOf numeric exchange symbol rate
    screening := screening.stored numeric
    resume := (args.orElse (resumeDefaultsForRate rate)).stored numeric }

def inserted (drawn : Drawn) (values : Values) : BreakerThreshold :=
  { id := drawn.id, screening := values.screening, resume := values.resume
    screenedAt := drawn.now, updatedAt := drawn.now }

/-- INSERT ... ON CONFLICT DO UPDATE -/
def nativeUpsert (drawn : Drawn) (values : Values) (rows : Rows) : Rows :=
  match rows.get values.key with
  | none => rows.set values.key (inserted drawn values)
  | some row => rows.set values.key { row with
      screening := values.screening, resume := values.resume, screenedAt := drawn.now, updatedAt := drawn.now }

def manualUpsert (drawn : Drawn) (values : Values) (rows : Rows) : Rows :=
  match rows.get values.key with
  | some existing => rows.set values.key
      { existing with
        screening := values.screening, resume := values.resume, screenedAt := drawn.now, updatedAt := drawn.now }
  | none => rows.set values.key (inserted drawn values)

def upsert (drawn : Drawn) (exchange symbol : String) (rate : ℚ) (screening : Screening) (args : ResumeArgs)
    (rows : Rows) : Rows :=
  let values := valuesOf numeric exchange symbol rate screening args
  if drawn.native then nativeUpsert drawn values rows else manualUpsert drawn values rows

/-- The resume fields with what is given, as the columns keep it. -/
def ResumeArgs.over (args : ResumeArgs) (resume : Resume) : Resume :=
  { resumeMode := args.resumeMode.getD resume.resumeMode
    recoveryPct := (args.recoveryPct.map (numeric .recoveryPct)).getD resume.recoveryPct
    widenMultiplier := (args.widenMultiplier.map (numeric .widenMultiplier)).getD resume.widenMultiplier }

/-- The updated row, if there is one, and the table. -/
def updateResumeConfig (now : Nat) (exchange symbol : String) (rate : ℚ) (args : ResumeArgs) (rows : Rows) :
    Option BreakerThreshold × Rows :=
  let key := keyOf numeric exchange symbol rate
  match rows.get key with
  | none => (none, rows)
  | some row =>
      let row := { row with resume := args.over numeric row.resume, updatedAt := now }
      (some row, rows.set key row)

/-- One result of the screener. -/
structure ScreeningResult where
  exchange : String
  symbol : String
  rate : ℚ
  screening : Screening

inductive Call
  | upsert (drawn : Drawn) (exchange symbol : String) (rate : ℚ) (screening : Screening) (args : ResumeArgs)
  | updateResumeConfig (now : Nat) (exchange symbol : String) (rate : ℚ) (args : ResumeArgs)

/-- The upserts of rescreen_all: no resume argument is passed. -/
def rescreenAll (drawn : Drawn) (results : List ScreeningResult) : List Call :=
  results.map (fun result => .upsert drawn result.exchange result.symbol result.rate result.screening {})

def call (rows : Rows) : Call → Rows
  | .upsert drawn exchange symbol rate screening args => upsert numeric drawn exchange symbol rate screening args rows
  | .updateResumeConfig now exchange symbol rate args => (updateResumeConfig numeric now exchange symbol rate args rows).2

variable {numeric} {rows : Rows} {drawn : Drawn} {values : Values}

/-- Both paths of upsert write the same row. -/
theorem nativeUpsert_eq : nativeUpsert drawn values rows = manualUpsert drawn values rows := by
  unfold nativeUpsert manualUpsert
  cases rows.get values.key <;> rfl

/-- What upsert leaves in a row, which may have been there before. -/
theorem manualUpsert_get (drawn : Drawn) (values : Values) (rows : Rows) :
    ∃ row, row.screening = values.screening ∧ row.resume = values.resume ∧ ∀ key,
      (manualUpsert drawn values rows).get key = if key = values.key then some row else rows.get key := by
  unfold manualUpsert
  cases rows.get values.key with
  | none => exact ⟨inserted drawn values, rfl, rfl, Dict.get_set _ _ _⟩
  | some row => exact ⟨_, rfl, rfl, Dict.get_set _ _ _⟩

theorem upsert_eq {exchange symbol : String} {rate : ℚ} {screening : Screening} {args : ResumeArgs} :
    upsert numeric drawn exchange symbol rate screening args rows =
      manualUpsert drawn (valuesOf numeric exchange symbol rate screening args) rows := by
  unfold upsert
  split
  · exact nativeUpsert_eq
  · rfl

theorem updateResumeConfig_get {now : Nat} {exchange symbol : String} {rate : ℚ} {args : ResumeArgs} (k : Key) :
    (updateResumeConfig numeric now exchange symbol rate args rows).2.get k =
      if k = keyOf numeric exchange symbol rate then
        (rows.get (keyOf numeric exchange symbol rate)).map (fun row =>
          { row with resume := args.over numeric row.resume, updatedAt := now })
      else rows.get k := by
  simp only [updateResumeConfig]
  cases hrow : rows.get (keyOf numeric exchange symbol rate) with
  | none =>
      by_cases hk : k = keyOf numeric exchange symbol rate
      · rw [if_pos hk, hk, Option.map_none]
        exact hrow
      · rw [if_neg hk]
  | some row => exact Dict.get_set _ _ _ _

end Utos.Repositories.Thresholds
