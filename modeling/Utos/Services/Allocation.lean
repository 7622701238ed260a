import Mathlib.Algebra.Order.Field.Rat
import Mathlib.Tactic.Linarith
import Mathlib.Tactic.Ring
import Mathlib.Tactic.FieldSimp
import Utos.Core.DomainTypes
import Utos.Core.Exceptions

namespace Utos.Services.MMCalculator

open Core.DomainTypes Core.Exceptions

def minBuyAmount : ℚ := 15

/-- What calculate reads of a preset. -/
structure Preset where
  steps : Int
  minCapital : ℚ
  allowedCoinGroups : List String
  deriving DecidableEq, Repr

def builtinPresets : List (String × Preset) :=
  [("mm30", { steps := 30, minCapital := 1350, allowedCoinGroups := ["Top 3", "Top 5"] }),
   ("mm50", { steps := 50, minCapital := 7500, allowedCoinGroups := [] }),
   ("mm70", { steps := 70, minCapital := 21000, allowedCoinGroups := [] })]

structure MMCalculationResult where
  buyAmount : ℚ
  maxCoins : Int
  steps : Int
  capital : ℚ
  presetType : String
  minVolumeFilter : ℚ
  deriving DecidableEq, Repr

/-- The arguments of calculate. -/
structure Query where
  presetType : String
  capital : ℚ
  coinGroupName : Option String := none
  coinGroupMaxCoins : Option Int := none
  customSteps : Option Int := none
  numCoins : Option Int := none
  deriving DecidableEq, Repr

/-- str(xs) -/
def listText (xs : List String) : String := "[" ++ ", ".intercalate (xs.map (fun s => s!"'{s}'")) ++ "]"

/-- x.quantize(Decimal("0.01"), rounding=ROUND_DOWN) -/
def quantizeDown (x : ℚ) : ℚ := (if x < 0 then (x * 100).ceil else (x * 100).floor) / 100

/-- The number of coins that the user has picked, if any. -/
def Query.picked (q : Query) : Option Int := q.numCoins.filter (fun n => 1 ≤ n)

def Query.effectiveCoins (q : Query) (coinGroupMaxCoins : Int) : Int := q.picked.getD coinGroupMaxCoins

/-- The steps and the least capital of the preset. -/
def Query.preset (q : Query) : Except Exn (Int × ℚ) :=
  let presetType := lower q.presetType
  if presetType = "custom" then
    match q.customSteps with
    | none => .error (.validationError "Custom preset requires custom_steps >= 1")
    | some steps =>
        if steps < 1 then .error (.validationError "Custom preset requires custom_steps >= 1")
        else if 200 < steps then .error (.validationError "Custom preset steps cannot exceed 200")
        else .ok (steps, 100)
  else match builtinPresets.lookup presetType with
    | none => .error (.validationError
        s!"Invalid preset type: {presetType}. Must be one of {listText (builtinPresets.map Prod.fst)} or 'custom'")
    | some preset =>
        let name := q.coinGroupName.getD ""
        if name ≠ "" ∧ preset.allowedCoinGroups ≠ [] ∧ name ∉ preset.allowedCoinGroups then
          .error (.validationError
            s!"Preset {presetType} is only compatible with {listText preset.allowedCoinGroups}, got '{name}'")
        else .ok (preset.steps, preset.minCapital)

/-- The least capital, which a number of coins below the group's brings down. -/
def Query.minCapital (q : Query) (coinGroupMaxCoins steps : Int) (presetMinCapital : ℚ) : ℚ :=
  if q.picked.any (fun n => n < coinGroupMaxCoins) then
    minBuyAmount * steps * q.effectiveCoins coinGroupMaxCoins
  else presetMinCapital

def calculate (q : Query) : Except Exn MMCalculationResult := do
  let presetType := lower q.presetType
  let missing : Exn := .validationError
    ("coin_group_max_coins is required and must be >= 1 — " ++
      "each coin receives `steps` DCA layers, so the coin group size " ++
      "determines the per-layer buy amount.")
  match q.coinGroupMaxCoins with
  | none => .error missing
  | some coinGroupMaxCoins =>
      if coinGroupMaxCoins < 1 then .error missing
      else do
        let effectiveCoins := q.effectiveCoins coinGroupMaxCoins
        let (steps, presetMinCapital) ← q.preset
        let minCapital := q.minCapital coinGroupMaxCoins steps presetMinCapital
        if q.capital < minCapital then
          .error (.validationError
            (s!"Capital {q.capital} is below minimum {minCapital} for preset {presetType} " ++
              s!"({steps} steps × {effectiveCoins} coins × ${minBuyAmount}/layer)"))
        else
          let buyAmount := quantizeDown (q.capital / (steps * effectiveCoins))
          if buyAmount < minBuyAmount then
            let required := minBuyAmount * steps * effectiveCoins
            .error (.validationError
              (s!"Per-layer buy amount {buyAmount} is below minimum {minBuyAmount}. " ++
                s!"With {steps} steps × {effectiveCoins} coins, capital must be at least " ++
                s!"${required} for preset {presetType}."))
          else
            return { buyAmount, maxCoins := effectiveCoins, steps, capital := q.capital, presetType
                     minVolumeFilter := buyAmount * 10 }

end Utos.Services.MMCalculator

namespace Utos.Services.MMCalculator

open Core.DomainTypes Core.Exceptions

variable {q : Query} {r : MMCalculationResult} {steps groupMax : Int} {minCapital x : ℚ}

theorem quantizeDown_le (hx : 0 ≤ x) : quantizeDown x ≤ x := by
  have hfloor : ((x * 100).floor : ℚ) ≤ x * 100 := Rat.floor_le _
  rw [quantizeDown, if_neg (not_lt.mpr hx)]
  linarith

theorem lt_quantizeDown (hx : 0 ≤ x) : x < quantizeDown x + 1 / 100 := by
  have hfloor : x * 100 < ((x * 100).floor + 1 : Int) := Rat.lt_floor_add_one _
  push_cast at hfloor
  rw [quantizeDown, if_neg (not_lt.mpr hx)]
  linarith

theorem quantizeDown_nonpos (hx : x < 0) : quantizeDown x ≤ 0 := by
  have hceil : (x * 100).ceil ≤ 0 := by
    rw [Rat.ceil_le_iff]
    push_cast
    linarith
  have hcast : ((x * 100).ceil : ℚ) ≤ 0 := by exact_mod_cast hceil
  rw [quantizeDown, if_pos hx]
  linarith

/-- What is left after rounding a share down is less than a cent for each of
the parts. -/
theorem quantizeDown_shares {capital parts : ℚ} (hparts : 0 < parts)
    (hshare : 0 < quantizeDown (capital / parts)) :
    quantizeDown (capital / parts) * parts ≤ capital ∧
      capital < (quantizeDown (capital / parts) + 1 / 100) * parts := by
  have hx : 0 ≤ capital / parts := by
    by_contra hneg
    have := quantizeDown_nonpos (not_le.mp hneg)
    linarith
  exact ⟨(le_div_iff₀ hparts).mp (quantizeDown_le hx), (div_lt_iff₀ hparts).mp (lt_quantizeDown hx)⟩

theorem builtinPresets_steps : ∀ p ∈ builtinPresets, 1 ≤ p.2.steps := by decide

theorem builtinPresets_lookup {key : String} {preset : Preset} (h : builtinPresets.lookup key = some preset) :
    1 ≤ preset.steps := by
  obtain ⟨before, after, hpresets, -⟩ := List.lookup_eq_some_iff.mp h
  exact builtinPresets_steps (key, preset) (by simp [hpresets])

theorem preset_steps (h : q.preset = .ok (steps, minCapital)) : 1 ≤ steps := by
  rw [Query.preset] at h
  split at h
  · split at h
    · cases h
    · split at h
      · cases h
      · split at h
        · cases h
        · rename_i hlow _
          obtain ⟨rfl, -⟩ := Prod.mk.inj (Except.ok.inj h)
          exact not_lt.mp hlow
  · split at h
    · cases h
    · rename_i preset hlookup
      dsimp only at h
      split at h
      · cases h
      · obtain ⟨rfl, -⟩ := Prod.mk.inj (Except.ok.inj h)
        exact builtinPresets_lookup hlookup

theorem one_le_effectiveCoins (hgroup : 1 ≤ groupMax) : 1 ≤ q.effectiveCoins groupMax := by
  rw [Query.effectiveCoins]
  cases hpicked : q.picked with
  | none => exact hgroup
  | some n => simpa using (Option.filter_eq_some_iff.mp hpicked).2

theorem effectiveCoins_le (hgroup : 1 ≤ groupMax) :
    q.effectiveCoins groupMax ≤ groupMax ↔ ∀ n ∈ q.numCoins, n ≤ groupMax := by
  rw [Query.effectiveCoins, Query.picked]
  cases q.numCoins with
  | none => simp
  | some n =>
      by_cases hn : 1 ≤ n
      · simp [Option.filter, hn]
      · simp [Option.filter, hn]
        omega

theorem calculate_ok (h : calculate q = .ok r) : ∃ groupMax steps minCapital,
    q.coinGroupMaxCoins = some groupMax ∧ 1 ≤ groupMax ∧ q.preset = .ok (steps, minCapital) ∧
      minBuyAmount ≤ r.buyAmount ∧ r.buyAmount = quantizeDown (q.capital / (steps * q.effectiveCoins groupMax)) ∧
      r.maxCoins = q.effectiveCoins groupMax ∧ r.steps = steps := by
  rw [calculate] at h
  dsimp only at h
  split at h
  · cases h
  · rename_i groupMax hgroup
    split at h
    · cases h
    · rename_i hone
      cases hpreset : q.preset with
      | error e => rw [hpreset] at h; cases h
      | ok preset =>
          obtain ⟨steps, minCapital⟩ := preset
          rw [hpreset] at h
          simp only [Bind.bind, Except.bind] at h
          split at h
          · cases h
          · split at h
            · cases h
            · rename_i hbuy
              cases h
              exact ⟨groupMax, steps, minCapital, hgroup, not_lt.mp hone, rfl, not_lt.mp hbuy, rfl, rfl, rfl⟩

/-- The buy amounts of every layer of every coin fit into the capital, and
a cent more for each of them would not. -/
structure Allocated (capital : ℚ) (r : MMCalculationResult) : Prop where
  least : 15 ≤ r.buyAmount
  fits : r.buyAmount * r.steps * r.maxCoins ≤ capital
  uses : capital < (r.buyAmount + 1 / 100) * r.steps * r.maxCoins
  coins : 1 ≤ r.maxCoins

theorem calculate_allocated (h : calculate q = .ok r) : Allocated q.capital r := by
  obtain ⟨groupMax, steps, minCapital, -, hgroup, hpreset, hleast, hbuy, hcoins, hsteps⟩ := calculate_ok h
  have hone : 1 ≤ q.effectiveCoins groupMax := one_le_effectiveCoins hgroup
  have hsteps' : (1 : ℚ) ≤ steps := by exact_mod_cast preset_steps hpreset
  have hone' : (1 : ℚ) ≤ q.effectiveCoins groupMax := by exact_mod_cast hone
  have hparts : (0 : ℚ) < steps * q.effectiveCoins groupMax := by positivity
  have hleast' : 15 ≤ r.buyAmount := hleast
  have hshare : 0 < quantizeDown (q.capital / (steps * q.effectiveCoins groupMax)) := by rw [← hbuy]; linarith
  obtain ⟨hfits, huses⟩ := quantizeDown_shares hparts hshare
  rw [← hbuy] at hfits huses
  rw [← hcoins, ← hsteps] at hfits huses
  exact ⟨hleast', by rwa [mul_assoc], by rwa [mul_assoc], by rwa [hcoins]⟩

/-- The allocation stays within the capital and within the coin group. -/
def WithinGroup (q : Query) (r : MMCalculationResult) : Prop :=
  Allocated q.capital r ∧ ∀ groupMax ∈ q.coinGroupMaxCoins, r.maxCoins ≤ groupMax

theorem calculate_withinGroup_iff (h : calculate q = .ok r) :
    WithinGroup q r ↔ ∀ groupMax ∈ q.coinGroupMaxCoins, ∀ n ∈ q.numCoins, n ≤ groupMax := by
  obtain ⟨groupMax, steps, minCapital, hmax, hgroup, -, -, -, hcoins, -⟩ := calculate_ok h
  have hle : r.maxCoins ≤ groupMax ↔ ∀ n ∈ q.numCoins, n ≤ groupMax := by
    rw [hcoins]
    exact effectiveCoins_le hgroup
  have hgroups : (∀ g ∈ q.coinGroupMaxCoins, r.maxCoins ≤ g) ↔ r.maxCoins ≤ groupMax := by simp [hmax]
  rw [WithinGroup, and_iff_right (calculate_allocated h), hgroups, hle]
  simp [hmax]

def topThree (capital : ℚ) (numCoins : Option Int) : Query where
  presetType := "MM30"
  capital := capital
  coinGroupName := some "Top 3"
  coinGroupMaxCoins := some 3
  numCoins := numCoins

theorem topThree_withinGroup : WithinGroup (topThree 1350 (some 2)) ⟨45 / 2, 2, 30, 1350, "mm30", 225⟩ :=
  (calculate_withinGroup_iff (by decide +kernel)).mpr (by decide)

/-- Twenty coins are allocated to out of a group of three. -/
theorem topThree_beyondGroup :
    calculate (topThree 9000 (some 20)) = .ok ⟨15, 20, 30, 9000, "mm30", 150⟩ ∧
      ¬ WithinGroup (topThree 9000 (some 20)) ⟨15, 20, 30, 9000, "mm30", 150⟩ :=
  ⟨by decide +kernel, fun h => absurd (h.2 3 rfl) (by decide)⟩

end Utos.Services.MMCalculator
