import Utos.Core.MovingAverage
import Utos.TA.Indicators

namespace Utos.TA.Ema

open Core Core.Exceptions Core.Sequence Core.MovingAverage Indicators

variable {values : List ℚ}

theorem divide_of_ne {x y : ℚ} (h : y ≠ 0) : divide x y = .ok (x / y) := if_neg h

/-- The loop of _calculate_ema goes through what is left of the values. -/
theorem emaTail_eq (multiplier last : ℚ) (seen rest : List ℚ) : ∃ later,
    emaTail (seen ++ rest) multiplier last (range seen.length (seen ++ rest).length) = .ok later ∧
      last :: later = rest.scanl (towards multiplier) last := by
  induction rest generalizing seen last with
  | nil =>
      rw [List.append_nil, range_self]
      exact ⟨[], rfl, rfl⟩
  | cons value rest ih =>
      have hlt : (seen.length : Int) < (seen ++ value :: rest).length := by
        rw [List.length_append, List.length_cons]
        omega
      have hitem : item (seen ++ value :: rest) seen.length = .ok value := by
        obtain ⟨found, hget, hitem⟩ := item_of_lt (Int.natCast_nonneg _) hlt
        rw [Int.toNat_natCast, List.getElem?_append_right le_rfl, Nat.sub_self, List.getElem?_cons_zero] at hget
        rw [hitem, ← Option.some.inj hget]
      obtain ⟨later, hlater, hscan⟩ := ih (towards multiplier last value) (seen ++ [value])
      rw [List.append_assoc, List.singleton_append, List.length_append, List.length_singleton, Nat.cast_add,
        Nat.cast_one] at hlater
      refine ⟨towards multiplier last value :: later, ?_, by rw [hscan, List.scanl_cons]⟩
      rw [range_cons hlt, emaTail, hitem]
      change (emaTail _ _ (towards multiplier last value) _ >>= _) = _
      rw [hlater]
      rfl

/-- Of enough values, what is calculated are the averages of their prefixes. -/
theorem calculateEma_eq {period : ℕ} (hpos : 0 < period) (h : period ≤ values.length) :
    calculateEma values (.int period) = .ok (emaSeries period values) := by
  have hne : (period : ℚ) ≠ 0 := Nat.cast_ne_zero.mpr hpos.ne'
  have hne' : (period : ℚ) + 1 ≠ 0 := Nat.cast_add_one_ne_zero period
  have henough : ¬ (values.length : ℚ) < period := not_lt.mpr (Nat.cast_le.mpr h)
  obtain ⟨later, hlater, hscan⟩ :=
    emaTail_eq (weight period) (mean period values) (values.take period) (values.drop period)
  rw [List.take_append_drop, List.length_take, min_eq_left h] at hlater
  simp only [calculateEma, number, index, bind, Except.bind, pure, Except.pure, if_neg henough, divide_of_ne hne,
    divide_of_ne hne', upTo_natCast, Int.cast_natCast]
  change (emaTail values (weight period) (mean period values) (range period values.length) >>= fun later =>
    .ok (mean period values :: later)) = _
  rw [hlater, ← scanl_eq_emaSeries, ← hscan]
  rfl

end Utos.TA.Ema

namespace Utos.TA.MacdAligned

open Core Core.Exceptions Core.Sequence Core.MovingAverage Indicators Ema

/-- What a function makes of the prefixes of a series from a length on. -/
def fromFirst (first : ℕ) (closes : List ℚ) (f : ℕ → ℚ) : List ℚ :=
  (List.range' first (closes.length - first + 1)).map f

/-- The fast average less the slow one, at equal times from the first slow average on. -/
def differences (fast slow : ℕ) (closes : List ℚ) : List ℚ :=
  fromFirst slow closes (fun n => ema fast (closes.take n) - ema slow (closes.take n))

/-- By how much the fast average moved over as many closes as the periods differ by. -/
def changes (fast slow : ℕ) (closes : List ℚ) : List ℚ :=
  fromFirst slow closes (fun n => ema fast (closes.take n) - ema fast (closes.take (n - (slow - fast))))

/-- What the code pairs: the fast average is that of an earlier time. -/
def paired (fast slow : ℕ) (closes : List ℚ) : List ℚ :=
  fromFirst slow closes (fun n => ema fast (closes.take (n - (slow - fast))) - ema slow (closes.take n))

/-- The MACD line is the difference of the averages at the latest close, and the signal
line the average of the differences up to it. -/
structure Aligned (closes : List ℚ) (fast slow signal : ℕ) (lines : ℚ × ℚ) : Prop where
  line : lines.1 = ema fast closes - ema slow closes
  signal : lines.2 = ema signal (differences fast slow closes)

variable {closes : List ℚ} {fast slow signal : ℕ}

theorem length_fromFirst (first : ℕ) (f : ℕ → ℚ) : (fromFirst first closes f).length = closes.length - first + 1 := by
  simp [fromFirst]

theorem getLast?_fromFirst {first : ℕ} (h : first ≤ closes.length) (f : ℕ → ℚ) :
    (fromFirst first closes f).getLast? = some (f closes.length) := by
  rw [fromFirst, List.getLast?_map, List.getLast?_range', if_neg (by omega), Option.map_some]
  congr 2
  omega

/-- The zip stops with the shorter series, that of the slow average. -/
theorem zipWith_emaSeries (hlt : fast < slow) (h : slow ≤ closes.length) :
    List.zipWith (fun f s => f - s) (emaSeries fast closes) (emaSeries slow closes) = paired fast slow closes := by
  refine List.ext_getElem ?_ (fun i hi hi' => ?_)
  · rw [List.length_zipWith, length_emaSeries, length_emaSeries, paired, length_fromFirst]
    omega
  · have hlag : slow + i - (slow - fast) = fast + i := by omega
    simp only [emaSeries, paired, fromFirst, List.getElem_zipWith, List.getElem_map, List.getElem_range', one_mul, hlag]

theorem calculateMacd_eq (hfast : 0 < fast) (hlt : fast < slow) (hsignal : 0 < signal)
    (h : slow + signal ≤ closes.length) :
    calculateMacd closes (.int fast) (.int slow) (.int signal) =
      .ok (ema fast (closes.take (closes.length - (slow - fast))) - ema slow closes,
        ema signal (paired fast slow closes)) := by
  have hslow : slow ≤ closes.length := by omega
  have hpaired : signal ≤ (paired fast slow closes).length := by
    rw [paired, length_fromFirst]
    omega
  have hline := item_last (getLast?_fromFirst hslow
    (fun n => ema fast (closes.take (n - (slow - fast))) - ema slow (closes.take n)))
  rw [List.take_length] at hline
  have hsignalLine := item_last (getLast?_emaSeries signal (paired fast slow closes))
  simp only [calculateMacd, calculateEma_eq hfast (hlt.le.trans hslow), calculateEma_eq (hfast.trans hlt) hslow,
    bind, Except.bind, zipWith_emaSeries hlt hslow, calculateEma_eq hsignal hpaired, hsignalLine]
  change (item (paired fast slow closes) (-1) >>= _) = _
  rw [paired, hline]
  rfl

theorem zipWith_fromFirst (f g : ℕ → ℚ) (first : ℕ) :
    List.zipWith (· + ·) (fromFirst first closes f) (fromFirst first closes g) =
      fromFirst first closes (fun n => f n + g n) := by
  simp only [fromFirst, List.zipWith_map, List.zipWith_self]

/-- The differences at equal times are the pairs of the code and the changes that these leave out. -/
theorem ema_differences (fast slow signal : ℕ) (closes : List ℚ) : ema signal (differences fast slow closes) =
    ema signal (paired fast slow closes) + ema signal (changes fast slow closes) := by
  rw [← ema_add signal (by rw [paired, changes, length_fromFirst, length_fromFirst]), paired, changes,
    zipWith_fromFirst, differences]
  congr 2
  funext n
  ring

/-- The lines are aligned exactly when the fast average at the latest close is what it was
as many closes earlier as the periods differ by, and its changes over as many closes average out. -/
theorem aligned_iff (hfast : 0 < fast) (hlt : fast < slow) (hsignal : 0 < signal)
    (h : slow + signal ≤ closes.length) :
    ∃ lines, calculateMacd closes (.int fast) (.int slow) (.int signal) = .ok lines ∧
      (Aligned closes fast slow signal lines ↔
        ema fast (closes.take (closes.length - (slow - fast))) = ema fast closes ∧
          ema signal (changes fast slow closes) = 0) := by
  refine ⟨_, calculateMacd_eq hfast hlt hsignal h, ?_⟩
  constructor
  · rintro ⟨hline, hsignalLine⟩
    rw [ema_differences] at hsignalLine
    exact ⟨sub_left_inj.mp hline, left_eq_add.mp hsignalLine⟩
  · rintro ⟨hline, hsignalLine⟩
    refine ⟨by rw [hline], ?_⟩
    rw [ema_differences, hsignalLine, add_zero]

theorem aligned_flat : ∃ lines, calculateMacd [100, 100, 100, 100] (.int 1) (.int 2) (.int 2) = .ok lines ∧
    (Aligned [100, 100, 100, 100] 1 2 2 lines ↔
      ema 1 ([100, 100, 100, 100].take 3) = ema 1 ([100, 100, 100, 100] : List ℚ) ∧
        ema 2 (changes 1 2 [100, 100, 100, 100]) = 0) :=
  aligned_iff Nat.one_pos Nat.one_lt_two Nat.two_pos (by decide)

/-- While the closes rise, the MACD line is below zero: the fast average is one close behind. -/
theorem rising_not_aligned : ¬ ∀ (closes : List ℚ) (fast slow signal : ℕ) (lines : ℚ × ℚ), 0 < fast → fast < slow →
    0 < signal → slow + signal ≤ closes.length →
      calculateMacd closes (.int fast) (.int slow) (.int signal) = .ok lines → Aligned closes fast slow signal lines := by
  intro h
  have haligned := h [1, 2, 3] 1 2 1 (-(1 / 2), -(1 / 2)) Nat.one_pos Nat.one_lt_two Nat.one_pos (by decide)
    (by decide +kernel)
  exact absurd haligned.line (by decide +kernel)

end Utos.TA.MacdAligned
