import Mathlib.Data.List.Basic
import Mathlib.Data.Char
import Mathlib.Data.UInt

namespace Utos.Core.Quote

/-- What percent-encoding leaves as it is. -/
def isSafe (c : Char) : Bool :=
  ('A' ≤ c ∧ c ≤ 'Z') ∨ ('a' ≤ c ∧ c ≤ 'z') ∨ ('0' ≤ c ∧ c ≤ '9') ∨ c = '_' ∨ c = '.' ∨ c = '-' ∨ c = '~'

/-- What percent-encoded text consists of. -/
def isQuoted (c : Char) : Bool := isSafe c || c = '%' || c = '+'

def hexDigit (d : Nat) : Char := (Nat.digitChar d).toUpper

def hexValue (c : Char) : Nat := if c.isDigit then c.toNat - '0'.toNat else c.toNat - 'A'.toNat + 10

def quoteByte (blank : List Char) (b : UInt8) : List Char :=
  let c := Char.ofNat b.toNat
  if isSafe c then [c]
  else if c = ' ' then blank
  else ['%', hexDigit (b.toNat / 16), hexDigit (b.toNat % 16)]

/-- The UTF-8 encoding of a text. -/
def bytes (s : String) : List UInt8 := s.toList.flatMap String.utf8EncodeChar

def quoteWith (blank : List Char) (s : String) : List Char := (bytes s).flatMap (quoteByte blank)

/-- urllib.parse.quote_plus -/
def quotePlus : String → List Char := quoteWith ['+']

/-- Percent-encoding with %20 for a blank. -/
def percentEncode : String → List Char := quoteWith ['%', '2', '0']

def unquote : List Char → List UInt8
  | [] => []
  | '%' :: a :: b :: cs => UInt8.ofNat (16 * hexValue a + hexValue b) :: unquote cs
  | '+' :: cs => 32 :: unquote cs
  | c :: cs => UInt8.ofNat c.toNat :: unquote cs

/-- A way to write texts into a query: it can be read back, writes neither & nor =, and leaves safe characters. -/
structure Quoting (q : String → List Char) : Prop where
  unquote : ∀ s, Quote.unquote (q s) = bytes s
  quoted : ∀ s, ∀ c ∈ q s, isQuoted c = true
  safe : ∀ s : String, (∀ c ∈ s.toList, isSafe c = true) → q s = s.toList

example : quotePlus "a b&é" = "a+b%26%C3%A9".toList := by decide +kernel

theorem bytes_injective {s s' : String} (h : bytes s = bytes s') : s = s' := by
  have hencode : s.toList.utf8Encode = s'.toList.utf8Encode := congrArg List.toByteArray h
  rwa [String.utf8Encode_toList, String.utf8Encode_toList, String.toByteArray_inj] at hencode

theorem unquote_cons_of_safe {c : Char} (h : isSafe c = true) (cs : List Char) :
    unquote (c :: cs) = UInt8.ofNat c.toNat :: unquote cs := by
  have hpercent : c ≠ '%' := fun hc => by rw [hc] at h; exact absurd h (by decide)
  have hplus : c ≠ '+' := fun hc => by rw [hc] at h; exact absurd h (by decide)
  rw [unquote]
  · exact fun a b cs hc _ => hpercent hc
  · exact hplus

theorem toNat_ofNat {n : Nat} (h : n < 256) : (Char.ofNat n).toNat = n := by
  have hvalid : n.isValidChar := Or.inl (by omega)
  rw [Char.ofNat, dif_pos hvalid]
  exact UInt32.toNat_ofNatLT

theorem unquote_quoteByte {blank : List Char} (hblank : ∀ cs, unquote (blank ++ cs) = 32 :: unquote cs) (b : UInt8)
    (cs : List Char) : unquote (quoteByte blank b ++ cs) = b :: unquote cs := by
  have hlt : b.toNat < 256 := b.toNat_lt
  have hofNat : (Char.ofNat b.toNat).toNat = b.toNat := toNat_ofNat hlt
  unfold quoteByte
  by_cases hsafe : isSafe (Char.ofNat b.toNat) = true
  · rw [if_pos hsafe, List.singleton_append, unquote_cons_of_safe hsafe, hofNat, UInt8.ofNat_toNat]
  · rw [if_neg hsafe]
    by_cases hspace : Char.ofNat b.toNat = ' '
    · rw [if_pos hspace, hblank]
      have hb : b.toNat = 32 := by rw [← hofNat, hspace]; rfl
      rw [show b = 32 from UInt8.toNat_inj.mp hb]
    · rw [if_neg hspace]
      have hhex : ∀ d < 16, hexValue (hexDigit d) = d := by decide
      simp only [List.cons_append, List.nil_append, unquote]
      rw [hhex _ (by omega), hhex _ (by omega), Nat.div_add_mod, UInt8.ofNat_toNat]

theorem mem_quoteByte {blank : List Char} (hblank : ∀ c ∈ blank, isQuoted c = true) {b : UInt8} {c : Char}
    (h : c ∈ quoteByte blank b) : isQuoted c = true := by
  have hlt : b.toNat < 256 := b.toNat_lt
  have hhex : ∀ d < 16, isQuoted (hexDigit d) = true := by decide
  unfold quoteByte at h
  by_cases hsafe : isSafe (Char.ofNat b.toNat) = true
  · rw [if_pos hsafe, List.mem_singleton] at h
    rw [h, isQuoted, hsafe]
    rfl
  · rw [if_neg hsafe] at h
    split at h
    next => exact hblank c h
    next =>
      simp only [List.mem_cons, List.not_mem_nil, or_false] at h
      rcases h with rfl | rfl | rfl
      · rfl
      · exact hhex _ (by omega)
      · exact hhex _ (by omega)

theorem lt_of_isQuoted {c : Char} (h : isQuoted c = true) : c.toNat < 128 := by
  have hle {d : Char} (hd : d.toNat < 128) (hcd : c ≤ d) : c.toNat < 128 := lt_of_le_of_lt hcd hd
  simp only [isQuoted, isSafe, Bool.or_eq_true, decide_eq_true_eq] at h
  rcases h with ((⟨-, h⟩ | ⟨-, h⟩ | ⟨-, h⟩ | rfl | rfl | rfl | rfl) | rfl) | rfl
  all_goals first | decide | exact hle (by decide) h

/-- An ASCII character is its own UTF-8 encoding. -/
theorem utf8EncodeChar_of_lt {c : Char} (h : c.toNat < 128) : String.utf8EncodeChar c = [UInt8.ofNat c.toNat] := by
  have hle : c.val.toNat ≤ 127 := Nat.le_of_lt_succ h
  simp only [String.utf8EncodeChar, hle, if_true]
  rfl

theorem bytes_of_quoted {s : String} (h : ∀ c ∈ s.toList, isQuoted c = true) :
    bytes s = s.toList.map (fun c => UInt8.ofNat c.toNat) := by
  unfold bytes
  generalize s.toList = cs at h
  induction cs with
  | nil => rfl
  | cons c cs ih =>
      rw [List.flatMap_cons, utf8EncodeChar_of_lt (lt_of_isQuoted (h c List.mem_cons_self)),
        ih (fun c hc => h c (List.mem_cons_of_mem _ hc))]
      rfl

theorem isQuoted_of_isSafe {c : Char} (h : isSafe c = true) : isQuoted c = true := by
  rw [isQuoted, h]
  rfl

theorem quoting_quoteWith {blank : List Char} (hread : ∀ cs, unquote (blank ++ cs) = 32 :: unquote cs)
    (hblank : ∀ c ∈ blank, isQuoted c = true) : Quoting (quoteWith blank) where
  unquote s := by
    unfold quoteWith
    induction bytes s with
    | nil => rfl
    | cons b bs ih => rw [List.flatMap_cons, unquote_quoteByte hread, ih]
  quoted s c hc := by
    obtain ⟨b, -, hb⟩ := List.mem_flatMap.mp hc
    exact mem_quoteByte hblank hb
  safe s hs := by
    rw [quoteWith, bytes_of_quoted (fun c hc => isQuoted_of_isSafe (hs c hc))]
    generalize s.toList = cs at hs
    induction cs with
    | nil => rfl
    | cons c cs ih =>
        have hc := hs c List.mem_cons_self
        have hbyte : (UInt8.ofNat c.toNat).toNat = c.toNat := by
          rw [UInt8.toNat_ofNat']
          exact Nat.mod_eq_of_lt (lt_trans (lt_of_isQuoted (isQuoted_of_isSafe hc)) (by decide))
        rw [List.map_cons, List.flatMap_cons, ih (fun c hc => hs c (List.mem_cons_of_mem _ hc)), quoteByte, hbyte,
          Char.ofNat_toNat, if_pos hc, List.singleton_append]

theorem quoting_quotePlus : Quoting quotePlus :=
  quoting_quoteWith (fun _ => rfl) (List.all_eq_true.mp rfl)

theorem quoting_percentEncode : Quoting percentEncode :=
  quoting_quoteWith (fun _ => rfl) (List.all_eq_true.mp rfl)

namespace Quoting

variable {q q' : String → List Char}

/-- Two ways to quote write no two texts alike. -/
theorem inj (hq : Quoting q) (hq' : Quoting q') {s s' : String} (h : q s = q' s') : s = s' :=
  bytes_injective (by rw [← hq.unquote s, h, hq'.unquote s'])

theorem amp_notMem (hq : Quoting q) (s : String) : '&' ∉ q s := fun h => absurd (hq.quoted s _ h) (by decide)

theorem eq_notMem (hq : Quoting q) (s : String) : '=' ∉ q s := fun h => absurd (hq.quoted s _ h) (by decide)

end Quoting

theorem length_unquote_le (cs : List Char) : (unquote cs).length ≤ cs.length := by
  induction cs using unquote.induct with
  | case1 => exact le_rfl
  | case2 a b cs ih =>
      simp only [unquote, List.length_cons]
      omega
  | case3 cs ih => simpa [unquote] using ih
  | case4 c cs hpercent hplus ih =>
      rw [unquote]
      · simpa using ih
      · exact hpercent
      · exact hplus

/-- What a character that is not part of an escape stands for. -/
def plainByte (c : Char) : UInt8 := if c = '+' then 32 else UInt8.ofNat c.toNat

theorem unquote_of_length (cs : List Char) (h : cs.length ≤ (unquote cs).length) : unquote cs = cs.map plainByte := by
  induction cs using unquote.induct with
  | case1 => rfl
  | case2 a b cs ih =>
      have hle := length_unquote_le cs
      simp only [unquote, List.length_cons] at h
      omega
  | case3 cs ih =>
      simp only [unquote, List.length_cons, Nat.add_le_add_iff_right] at h
      rw [unquote, List.map_cons, ih h]
      rfl
  | case4 c cs hpercent hplus ih =>
      rw [unquote] at h ⊢
      · rw [List.map_cons, ih (by simpa using h), plainByte, if_neg hplus]
      all_goals assumption

theorem eq_of_plainByte {c d : Char} (hc : isQuoted c = true) (hd : isQuoted d = true)
    (h : UInt8.ofNat c.toNat = plainByte d) : c = d := by
  have hnat : c.toNat = (plainByte d).toNat := by
    rw [← h, UInt8.toNat_ofNat']
    exact (Nat.mod_eq_of_lt (lt_trans (lt_of_isQuoted hc) (by decide))).symm
  by_cases hplus : d = '+'
  · rw [plainByte, if_pos hplus] at hnat
    have hblank : c = ' ' := Char.toNat_inj.mp hnat
    rw [hblank] at hc
    exact absurd hc (by decide)
  · rw [plainByte, if_neg hplus, UInt8.toNat_ofNat',
      Nat.mod_eq_of_lt (lt_trans (lt_of_isQuoted hd) (by decide))] at hnat
    exact Char.toNat_inj.mp hnat

theorem eq_of_map_plainByte {cs ds : List Char} (hcs : ∀ c ∈ cs, isQuoted c = true) (hds : ∀ d ∈ ds, isQuoted d = true)
    (h : cs.map (fun c => UInt8.ofNat c.toNat) = ds.map plainByte) : cs = ds := by
  induction cs generalizing ds with
  | nil => exact (List.map_eq_nil_iff.mp h.symm).symm
  | cons c cs ih =>
      obtain ⟨d, ds', rfl, hd, hrest⟩ := List.map_eq_cons_iff.mp h.symm
      rw [eq_of_plainByte (hcs c List.mem_cons_self) (hds d List.mem_cons_self) hd.symm,
        ih (fun c hc => hcs c (List.mem_cons_of_mem _ hc)) (fun d hd => hds d (List.mem_cons_of_mem _ hd)) hrest.symm]

/-- Only a text that is left alone is quoted without getting longer. -/
theorem Quoting.eq_of_length {q : String → List Char} (hq : Quoting q) {s : String}
    (hs : ∀ c ∈ s.toList, isQuoted c = true) (h : (q s).length ≤ s.toList.length) : q s = s.toList := by
  have hbytes := bytes_of_quoted hs
  have hlen : (q s).length ≤ (Quote.unquote (q s)).length := by
    rw [hq.unquote, hbytes, List.length_map]
    exact h
  have hread := unquote_of_length _ hlen
  rw [hq.unquote, hbytes] at hread
  exact (eq_of_map_plainByte hs (hq.quoted s) hread).symm

theorem Quoting.length_le {q : String → List Char} (hq : Quoting q) {s : String}
    (hs : ∀ c ∈ s.toList, isQuoted c = true) : s.toList.length ≤ (q s).length := by
  have hlen := length_unquote_le (q s)
  rwa [hq.unquote, bytes_of_quoted hs, List.length_map] at hlen

end Utos.Core.Quote
