import Mathlib.Tactic.Ring
import TradeStation.Python.Decimal

/-!
# Decimals in plain digits

`PlainDecimal text d`: the text is an optional sign, digits, and maybe a point with more digits, and
`d` is the decimal that Python reads from it, digit by digit. `fixedPoint_plain` says that
`format(d, "f")` is such a text for every finite decimal, and that it is read back as the same
number. A decimal with no positive exponent is read back as it was.
-/

namespace TradeStation.Python

namespace Decimal

/-- The sign of a decimal text. -/
def signText (neg : Bool) : PyStr := if neg then str "-" else []

/-- A text in plain digits, and the decimal it denotes. -/
inductive PlainDecimal : PyStr → Decimal → Prop
  | whole (neg : Bool) (digits : List Char) (hne : digits ≠ [])
    (hdigits : ∀ c ∈ digits, c.isDigit) :
    PlainDecimal (signText neg ++ digits.map Char.toNat) ⟨neg, Nat.ofDigitChars 10 digits 0, 0⟩
  | fraction (neg : Bool) (digits places : List Char) (hne : digits ≠ []) (hne' : places ≠ [])
    (hdigits : ∀ c ∈ digits ++ places, c.isDigit) :
    PlainDecimal (signText neg ++ digits.map Char.toNat ++ str "." ++ places.map Char.toNat)
      ⟨neg, Nat.ofDigitChars 10 (digits ++ places) 0, -places.length⟩

/-- Plain digits hold no letter, and so no exponent. -/
theorem PlainDecimal.not_exponent {text : PyStr} {d : Decimal} (h : PlainDecimal text d) :
    ∀ c ∈ text, c = 0x2d ∨ c = 0x2e ∨ (0x30 ≤ c ∧ c ≤ 0x39) := by
  have hsign : ∀ (neg : Bool), ∀ c ∈ signText neg, c = 0x2d := by decide
  have hdigit : ∀ (cs : List Char), (∀ c ∈ cs, c.isDigit) →
      ∀ c ∈ cs.map Char.toNat, 0x30 ≤ c ∧ c ≤ 0x39 := by
    intro cs hcs c hc
    obtain ⟨d, hd, rfl⟩ := List.mem_map.1 hc
    have hd' := hcs d hd
    simp only [Char.isDigit, Bool.and_eq_true, decide_eq_true_eq] at hd'
    exact ⟨hd'.1, hd'.2⟩
  intro c hc
  cases h with
  | whole neg digits hne hdigits =>
    rcases List.mem_append.1 hc with hc | hc
    · exact .inl (hsign neg c hc)
    · exact .inr (.inr (hdigit digits hdigits c hc))
  | fraction neg digits places hne hne' hdigits =>
    have hboth := List.forall_mem_append.1 hdigits
    simp only [List.mem_append] at hc
    rcases hc with ((hc | hc) | hc) | hc
    · exact .inl (hsign neg c hc)
    · exact .inr (.inr (hdigit digits hboth.1 c hc))
    · exact .inr (.inl (by simpa [str] using hc))
    · exact .inr (.inr (hdigit places hboth.2 c hc))

/-- The number that some digits denote, by their code points. -/
def digitsValue (digits : PyStr) : ℕ := digits.foldl (fun n c => 10 * n + (c - 0x30)) 0

/-- A decimal digit, by its code point. -/
def isDigitCode (c : ℕ) : Bool := 0x30 ≤ c && c ≤ 0x39

/-- `Decimal(text)` of a text in plain digits; `none` for the rest. -/
def ofPlain (text : PyStr) : Option Decimal :=
  let neg := text.head? = some 0x2d
  let body := if neg then text.tail else text
  let digits := body.takeWhile (· ≠ 0x2e)
  let places := (body.dropWhile (· ≠ 0x2e)).tail
  if digits ≠ [] ∧ digits.all isDigitCode ∧ places.all isDigitCode then
    some ⟨neg, digitsValue (digits ++ places), -places.length⟩
  else none

theorem digitsValue_map (digits : List Char) :
    digitsValue (digits.map Char.toNat) = Nat.ofDigitChars 10 digits 0 := by
  rw [digitsValue, List.foldl_map]
  rfl

theorem all_isDigitCode {digits : List Char} (h : ∀ c ∈ digits, c.isDigit) :
    (digits.map Char.toNat).all isDigitCode := by
  rw [List.all_map, List.all_eq_true]
  exact h

/-- No digit is a sign or a point. -/
theorem ne_of_isDigit {digits : List Char} (h : ∀ c ∈ digits, c.isDigit) :
    ∀ n ∈ digits.map Char.toNat, n ≠ 0x2d ∧ n ≠ 0x2e := by
  intro n hn
  have hcode := List.all_eq_true.1 (all_isDigitCode h) n hn
  simp only [isDigitCode, Bool.and_eq_true, decide_eq_true_eq] at hcode
  omega

/-- `ofPlain` behind the sign. -/
theorem ofPlain_signed (neg : Bool) {body : PyStr} (hbody : body.head? ≠ some 0x2d) :
    ofPlain (signText neg ++ body) =
      let digits := body.takeWhile (· ≠ 0x2e)
      let places := (body.dropWhile (· ≠ 0x2e)).tail
      if digits ≠ [] ∧ digits.all isDigitCode ∧ places.all isDigitCode then
        some ⟨neg, digitsValue (digits ++ places), -places.length⟩
      else none := by
  cases neg with
  | true => rfl
  | false => simp [ofPlain, signText, hbody]

/-- **Plain digits are read.** -/
theorem ofPlain_plain {text : PyStr} {d : Decimal} (h : PlainDecimal text d) :
    ofPlain text = some d := by
  have hhead : ∀ (digits : List Char) (rest : PyStr), digits ≠ [] → (∀ c ∈ digits, c.isDigit) →
      (digits.map Char.toNat ++ rest).head? ≠ some 0x2d := by
    intro digits rest hne hdigits
    obtain ⟨c, cs, rfl⟩ := List.exists_cons_of_ne_nil hne
    have hc := (ne_of_isDigit hdigits c.toNat (by simp)).1
    simpa using hc
  cases h with
  | whole neg digits hne hdigits =>
    have hpoint := fun n hn => (ne_of_isDigit hdigits n hn).2
    have htake : (digits.map Char.toNat).takeWhile (· ≠ 0x2e) = digits.map Char.toNat :=
      List.takeWhile_eq_self_iff.2 fun n hn => by simpa using hpoint n hn
    have hdrop : (digits.map Char.toNat).dropWhile (· ≠ 0x2e) = [] :=
      List.dropWhile_eq_nil_iff.2 fun n hn => by simpa using hpoint n hn
    have hstart := hhead digits [] hne hdigits
    rw [List.append_nil] at hstart
    rw [ofPlain_signed neg hstart]
    simp only [htake, hdrop]
    simp [hne, all_isDigitCode hdigits, digitsValue_map]
  | fraction neg digits places hne hne' hdigits =>
    obtain ⟨hwhole, hplaces⟩ := List.forall_mem_append.1 hdigits
    have hpoint := fun n hn => (ne_of_isDigit hwhole n hn).2
    have htake : (digits.map Char.toNat ++ 0x2e :: places.map Char.toNat).takeWhile (· ≠ 0x2e) =
        digits.map Char.toNat := by
      rw [List.takeWhile_append_of_pos fun n hn => by simpa using hpoint n hn]
      simp
    have hdrop : (digits.map Char.toNat ++ 0x2e :: places.map Char.toNat).dropWhile (· ≠ 0x2e) =
        0x2e :: places.map Char.toNat := by
      rw [List.dropWhile_append_of_pos fun n hn => by simpa using hpoint n hn]
      simp
    have hstart := hhead digits (0x2e :: places.map Char.toNat) hne hwhole
    have htext : signText neg ++ digits.map Char.toNat ++ str "." ++ places.map Char.toNat =
        signText neg ++ (digits.map Char.toNat ++ 0x2e :: places.map Char.toNat) := by
      simp [str]
    rw [htext, ofPlain_signed neg hstart]
    simp only [htake, hdrop, List.tail_cons]
    simp [hne, all_isDigitCode hwhole, all_isDigitCode hplaces, ← List.map_append,
      digitsValue_map]

/-! ## `format(d, "f")` -/

theorem str_toString (n : ℕ) : str (toString n) = (Nat.toDigits 10 n).map Char.toNat := by
  simp [str]

theorem isDigit_toDigits (n : ℕ) : ∀ c ∈ Nat.toDigits 10 n, c.isDigit := by
  intro c hc
  exact Nat.isDigit_of_mem_toDigits (by omega) (by omega) hc

theorem isDigit_zeros (n : ℕ) : ∀ c ∈ List.replicate n '0', c.isDigit := by
  intro c hc
  rw [List.eq_of_mem_replicate hc]
  rfl

theorem map_zeros (n : ℕ) : List.replicate n 0x30 = (List.replicate n '0').map Char.toNat := by
  rw [List.map_replicate]
  rfl

/-- The digits of a number, split at a point, are read back as the number. -/
theorem plain_fraction (d : Decimal) (digits places : List Char) (hne : digits ≠ [])
    (hdigits : ∀ c ∈ digits ++ places, c.isDigit) (hexp : d.exp < 0)
    (hplaces : places.length = (-d.exp).toNat)
    (hvalue : Nat.ofDigitChars 10 (digits ++ places) 0 = d.coeff) :
    PlainDecimal (signText d.neg ++ digits.map Char.toNat ++ str "." ++ places.map Char.toNat) d := by
  have hne' : places ≠ [] := by
    rintro rfl
    simp only [List.length_nil] at hplaces
    omega
  have hplain := PlainDecimal.fraction d.neg digits places hne hne' hdigits
  have hsame : (⟨d.neg, Nat.ofDigitChars 10 (digits ++ places) 0, -places.length⟩ : Decimal) = d := by
    have hback : -(places.length : ℤ) = d.exp := by omega
    rw [hvalue, hback]
  rwa [hsame] at hplain

/-- A negative exponent is written with a point. -/
theorem fixedPoint_fraction (d : Decimal) (hexp : d.exp < 0) : PlainDecimal d.fixedPoint d := by
  have hnot : ¬(d.coeff = 0 ∧ d.exp > 0) := by omega
  have hneg : ¬d.exp ≥ 0 := by omega
  have hlen : (str (toString d.coeff)).length = (Nat.toDigits 10 d.coeff).length := by
    rw [str_toString, List.length_map]
  have hvalue : Nat.ofDigitChars 10 (Nat.toDigits 10 d.coeff) 0 = d.coeff :=
    Nat.ofDigitChars_ten_toDigits
  have hsign : (if d.neg then str "-" else []) = signText d.neg := rfl
  rw [fixedPoint]
  simp only [if_neg hnot, if_neg hneg, hlen, hsign]
  rw [str_toString]
  generalize hds : Nat.toDigits 10 d.coeff = ds at *
  have hdigits : ∀ c ∈ ds, c.isDigit := by
    rw [← hds]
    exact isDigit_toDigits d.coeff
  by_cases hshort : ds.length ≤ (-d.exp).toNat
  · have hall : ∀ c ∈ ['0'] ++ (List.replicate ((-d.exp).toNat - ds.length) '0' ++ ds),
        c.isDigit := by
      intro c hc
      simp only [List.mem_append, List.mem_singleton] at hc
      rcases hc with rfl | hc | hc
      · rfl
      · exact isDigit_zeros _ c hc
      · exact hdigits c hc
    have hplain := plain_fraction d ['0'] (List.replicate ((-d.exp).toNat - ds.length) '0' ++ ds)
      (by simp) hall hexp (by rw [List.length_append, List.length_replicate]; omega)
      (by simp [Nat.ofDigitChars_cons, Nat.ofDigitChars_append, hvalue])
    rw [if_pos hshort, map_zeros]
    simpa [str] using hplain
  · have hsplit := List.take_append_drop (ds.length - (-d.exp).toNat) ds
    have hplain := plain_fraction d (ds.take (ds.length - (-d.exp).toNat))
      (ds.drop (ds.length - (-d.exp).toNat)) ?_ (by rwa [hsplit]) hexp ?_ (by rwa [hsplit])
    · rw [if_neg hshort]
      simpa [List.map_take, List.map_drop] using hplain
    · intro hnil
      have hlength := congrArg List.length hnil
      simp only [List.length_take, List.length_nil] at hlength
      omega
    · rw [List.length_drop]
      omega

/-- **`format(d, "f")` is plain digits**, and they are read back as the same number. -/
theorem fixedPoint_plain (d : Decimal) :
    ∃ d', PlainDecimal d.fixedPoint d' ∧ d'.toRat = d.toRat := by
  by_cases hexp : d.exp < 0
  · exact ⟨d, fixedPoint_fraction d hexp, rfl⟩
  · by_cases hzero : d.coeff = 0 ∧ d.exp > 0
    · refine ⟨⟨d.neg, Nat.ofDigitChars 10 ['0'] 0, 0⟩, ?_, ?_⟩
      · rw [fixedPoint]
        simp only [if_pos hzero]
        exact PlainDecimal.whole d.neg ['0'] (by simp) (isDigit_zeros 1)
      · simp [toRat, hzero.1, Nat.ofDigitChars_cons]
    · have hdigits : ∀ c ∈ Nat.toDigits 10 d.coeff ++ List.replicate d.exp.toNat '0',
          c.isDigit := by
        intro c hc
        exact (List.mem_append.1 hc).elim (isDigit_toDigits d.coeff c)
          (isDigit_zeros d.exp.toNat c)
      have hvalue : Nat.ofDigitChars 10
          (Nat.toDigits 10 d.coeff ++ List.replicate d.exp.toNat '0') 0 =
          10 ^ d.exp.toNat * d.coeff := by
        rw [Nat.ofDigitChars_append, Nat.ofDigitChars_ten_toDigits,
          Nat.ofDigitChars_replicate_zero]
      have hplain := PlainDecimal.whole d.neg
        (Nat.toDigits 10 d.coeff ++ List.replicate d.exp.toNat '0') (by simp) hdigits
      refine ⟨⟨d.neg, 10 ^ d.exp.toNat * d.coeff, 0⟩, ?_, ?_⟩
      · have hge : d.exp ≥ 0 := by omega
        have hsign : (if d.neg then str "-" else []) = signText d.neg := rfl
        rw [fixedPoint]
        simp only [if_neg hzero, if_pos hge, hsign]
        rw [str_toString, map_zeros, List.append_assoc, ← List.map_append, ← hvalue]
        exact hplain
      · have hpow : (10 : ℚ) ^ d.exp = 10 ^ d.exp.toNat := by
          rw [← zpow_natCast, Int.toNat_of_nonneg (by omega)]
        have hcast : ((10 ^ d.exp.toNat * d.coeff : ℕ) : ℚ) = d.coeff * 10 ^ d.exp.toNat := by
          push_cast
          ring
        rw [toRat, toRat, hpow, hcast, zpow_zero]
        split_ifs <;> ring

/-- The validators' question is one about the number. -/
theorem nonpos_iff (d : Decimal) : d.nonpos = true ↔ d.toRat ≤ 0 := by
  have hpow : (0 : ℚ) < 10 ^ d.exp := zpow_pos (by norm_num) _
  have hneg : -(d.coeff : ℚ) ≤ 0 := neg_nonpos.2 (Nat.cast_nonneg _)
  have hzero : (d.coeff : ℚ) ≤ 0 ↔ d.coeff = 0 := by
    rw [← Nat.cast_zero, Nat.cast_le, Nat.le_zero]
  unfold nonpos toRat
  cases d.neg with
  | true => simpa using mul_nonpos_of_nonpos_of_nonneg hneg hpow.le
  | false =>
    have hmul : (d.coeff : ℚ) * 10 ^ d.exp ≤ 0 ↔ (d.coeff : ℚ) ≤ 0 := by
      constructor
      · intro h
        by_contra hpos
        exact absurd h (not_le.2 (mul_pos (not_le.1 hpos) hpow))
      · intro h
        exact mul_nonpos_of_nonpos_of_nonneg h hpow.le
    simp only [Bool.false_or, beq_iff_eq, Bool.false_eq_true, if_false]
    rw [hmul, hzero]

end Decimal

end TradeStation.Python
