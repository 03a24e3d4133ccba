import Abacus.Decimal.Layout
import Abacus.Decimal.Numeral
import Mathlib.Algebra.Group.Nat.Defs

/-!
# The parts of a written number

A number is written as a sign, digits, perhaps a point with more digits, and perhaps an exponent
with a sign of its own.  `Figures` holds these parts and `Figures.text` puts them together.

* `Figures.decimal?_unsigned` : such a text is read as the decimal that its parts spell;
* `Decimal.positionalFigures`, `Decimal.exponentialFigures` : every layout of a decimal is such a
  text, whatever its digits.
-/

namespace Abacus

/-- The parts of a written number. -/
structure Figures where
  /-- There is a minus sign in front. -/
  negative : Bool := false
  /-- The digits before the point. -/
  whole : List Char
  /-- The digits after the point; none if there is no point. -/
  fraction : Option (List Char) := none
  /-- Whether the exponent is negative, and its digits; none if there is no exponent. -/
  power : Option (Bool × List Char) := none
  whole_ne_nil : whole ≠ []
  whole_digits : ∀ c ∈ whole, c.isDigit = true
  fraction_digits : ∀ ds ∈ fraction, ∀ c ∈ ds, c.isDigit = true := by simp
  power_ne_nil : ∀ p ∈ power, p.2 ≠ [] := by simp
  power_digits : ∀ p ∈ power, ∀ c ∈ p.2, c.isDigit = true := by simp

namespace Figures

/-- The sign of an exponent. -/
def signChar (negative : Bool) : Char :=
  if negative then '-' else '+'

/-- The point and the digits after it. -/
def fractionText : Option (List Char) → List Char
  | none => []
  | some ds => '.' :: ds

/-- The exponent with its letter and its sign. -/
def powerText : Option (Bool × List Char) → List Char
  | none => []
  | some (negative, ds) => 'e' :: signChar negative :: ds

/-- The text without the sign in front. -/
def unsigned (f : Figures) : List Char :=
  f.whole ++ (fractionText f.fraction ++ powerText f.power)

/-- The text of all parts. -/
def text (f : Figures) : List Char :=
  if f.negative then '-' :: f.unsigned else f.unsigned

/-- A number of one digit. -/
def digit (c : Char) (h : c.isDigit = true) : Figures where
  whole := [c]
  whole_ne_nil := by simp
  whole_digits := by simpa using h

@[simp] theorem text_digit (c : Char) (h : c.isDigit = true) : (digit c h).text = [c] := rfl

/-- The number without its exponent. -/
def mantissa (f : Figures) : Figures :=
  { f with
    power := none
    power_ne_nil := by simp
    power_digits := by simp }

/-! ### Characters -/

theorem ne_of_isDigit {c d : Char} (hc : c.isDigit = true) (hd : d.isDigit = false) : c ≠ d := by
  rintro rfl
  simp [hc] at hd

theorem exists_whole_eq_cons (f : Figures) :
    ∃ c cs, f.whole = c :: cs ∧ c.isDigit = true := by
  cases h : f.whole with
  | nil => exact absurd h f.whole_ne_nil
  | cons c cs => exact ⟨c, cs, rfl, f.whole_digits c (by simp [h])⟩

theorem exists_unsigned_eq_cons (f : Figures) :
    ∃ c cs, f.unsigned = c :: cs ∧ c.isDigit = true := by
  obtain ⟨c, cs, h, hc⟩ := f.exists_whole_eq_cons
  exact ⟨c, _, by rw [unsigned, h, List.cons_append], hc⟩

/-- A written number begins with a minus sign or a digit. -/
theorem exists_text_eq_cons (f : Figures) :
    ∃ c cs, f.text = c :: cs ∧ (c = '-' ∨ c.isDigit = true) := by
  obtain ⟨c, cs, h, hc⟩ := f.exists_unsigned_eq_cons
  unfold text
  split
  · exact ⟨'-', f.unsigned, rfl, .inl rfl⟩
  · exact ⟨c, cs, h, .inr hc⟩

/-! ### Reading -/

/-- Digits are taken off up to a character that is none. -/
theorem takeWhile_digits {ds rest : List Char} (hds : ∀ c ∈ ds, c.isDigit = true)
    (hrest : ∀ c ∈ rest.head?, c.isDigit = false) :
    (ds ++ rest).takeWhile Char.isDigit = ds ∧ (ds ++ rest).dropWhile Char.isDigit = rest := by
  have h : rest.takeWhile Char.isDigit = [] ∧ rest.dropWhile Char.isDigit = rest := by
    cases rest with
    | nil => simp
    | cons c cs => simp [hrest c (by simp)]
  rw [List.takeWhile_append_of_pos hds, List.dropWhile_append_of_pos hds, h.1, h.2]
  simp

theorem head?_powerText (p : Option (Bool × List Char)) :
    ∀ c ∈ (powerText p).head?, c = 'e' := by
  cases p <;> simp [powerText]

theorem head?_fractionText_append (o : Option (List Char)) {rest : List Char}
    (hrest : ∀ c ∈ rest.head?, c = 'e') :
    ∀ c ∈ (fractionText o ++ rest).head?, c.isDigit = false := by
  intro c hc
  cases o with
  | none =>
    rw [hrest c (by simpa [fractionText] using hc)]
    decide
  | some ds =>
    obtain rfl : '.' = c := by simpa [fractionText] using hc
    decide

theorem fraction_append {o : Option (List Char)} (ho : ∀ ds ∈ o, ∀ c ∈ ds, c.isDigit = true)
    {rest : List Char} (hrest : ∀ c ∈ rest.head?, c = 'e') :
    Numeral.fraction (fractionText o ++ rest) = (o.getD [], rest) := by
  have hdigit : ∀ c ∈ rest.head?, c.isDigit = false := by
    intro c hc
    rw [hrest c hc]
    decide
  cases o with
  | none =>
    cases rest with
    | nil => rfl
    | cons c cs =>
      obtain rfl : c = 'e' := hrest c rfl
      rfl
  | some ds =>
    obtain ⟨h₁, h₂⟩ := takeWhile_digits (ho ds rfl) hdigit
    simp [fractionText, Numeral.fraction, h₁, h₂]

/-- The value of an exponent. -/
def powerValue : Option (Bool × List Char) → Int
  | none => 0
  | some (negative, ds) => if negative then -(Numeral.value ds : Int) else Numeral.value ds

theorem integer?_signed {negative : Bool} {ds : List Char} (hne : ds ≠ [])
    (hds : ∀ c ∈ ds, c.isDigit = true) :
    Numeral.integer? (signChar negative :: ds) = some (powerValue (some (negative, ds))) := by
  have hall : ds.all Char.isDigit = true := List.all_eq_true.2 hds
  cases negative <;> simp [Numeral.integer?, Numeral.sign, signChar, powerValue, hne, hall]

theorem integer?_digits {ds : List Char} (hne : ds ≠ []) (hds : ∀ c ∈ ds, c.isDigit = true) :
    Numeral.integer? ds = some (powerValue (some (false, ds))) := by
  have hall : ds.all Char.isDigit = true := List.all_eq_true.2 hds
  have hsign : Numeral.sign ds = (false, ds) := by
    cases ds with
    | nil => rfl
    | cons c cs =>
      have hplus : c ≠ '+' := ne_of_isDigit (hds c (by simp)) (by decide)
      have hminus : c ≠ '-' := ne_of_isDigit (hds c (by simp)) (by decide)
      simp [Numeral.sign, hplus, hminus]
  simp [Numeral.integer?, hsign, powerValue, hne, hall]

theorem exponent?_powerText (f : Figures) :
    Numeral.exponent? (powerText f.power) = some (powerValue f.power) := by
  cases h : f.power with
  | none => rfl
  | some p =>
    obtain ⟨negative, ds⟩ := p
    simp only [powerText, Numeral.exponent?, true_or, ↓reduceIte]
    exact integer?_signed (f.power_ne_nil _ h) (f.power_digits _ h)

/-- What follows the digits decides whether there is a decimal. -/
theorem decimal?_append (f : Figures) {rest : List Char} (hrest : ∀ c ∈ rest.head?, c = 'e') :
    Numeral.decimal? (f.whole ++ (fractionText f.fraction ++ rest)) =
      (Numeral.exponent? rest).map fun e : Int =>
        (Numeral.value (f.whole ++ f.fraction.getD []), e - (f.fraction.getD []).length) := by
  obtain ⟨h₁, h₂⟩ := takeWhile_digits f.whole_digits (head?_fractionText_append f.fraction hrest)
  simp only [Numeral.decimal?, h₁, h₂, fraction_append f.fraction_digits hrest]
  simp [f.whole_ne_nil]

/-- The decimal that the parts spell. -/
def decimal (f : Figures) : Decimal where
  coefficient := Numeral.value (f.whole ++ f.fraction.getD [])
  exponent := powerValue f.power - (f.fraction.getD []).length

/-- **A written number is read as the decimal that its parts spell.** -/
theorem decimal?_unsigned (f : Figures) :
    Numeral.decimal? f.unsigned = some (f.decimal.coefficient, f.decimal.exponent) := by
  rw [unsigned, decimal?_append f (head?_powerText f.power), exponent?_powerText, Option.map_some]
  rfl

theorem sign_text_append (f : Figures) (rest : List Char) :
    Numeral.sign (f.text ++ rest) = (f.negative, f.unsigned ++ rest) := by
  obtain ⟨c, cs, h, hc⟩ := f.exists_unsigned_eq_cons
  have hplus : c ≠ '+' := ne_of_isDigit hc (by decide)
  have hminus : c ≠ '-' := ne_of_isDigit hc (by decide)
  cases hn : f.negative with
  | true => simp [text, hn, Numeral.sign]
  | false => simp [text, hn, h, Numeral.sign, hplus, hminus]

theorem sign_text (f : Figures) : Numeral.sign f.text = (f.negative, f.unsigned) := by
  simpa only [List.append_nil] using f.sign_text_append []

theorem isSome_read?_text (f : Figures) : (Numeral.read? f.text).isSome = true := by
  simp [Numeral.read?, sign_text, Numeral.magnitude?, decimal?_unsigned]

end Figures

/-! ### Layouts -/

namespace Decimal

open Figures

/-- The digits of a positive number do not begin with a zero. -/
theorem exists_toDigits_eq_cons {n : Nat} (h : 0 < n) :
    ∃ c cs, Nat.toDigits 10 n = c :: cs ∧ c ≠ '0' := by
  induction n using Nat.strongRecOn with
  | ind n ih =>
    by_cases hn : n < 10
    · refine ⟨Nat.digitChar n, [], Nat.toDigits_of_lt_base hn, ?_⟩
      rw [ne_eq, Nat.digitChar_eq_zero]
      omega
    · obtain ⟨c, cs, hcs, hc⟩ := ih (n / 10) (by omega) (by omega)
      refine ⟨c, cs ++ [Nat.digitChar (n % 10)], ?_, hc⟩
      rw [Nat.toDigits_of_base_le (by decide) (by omega), hcs, List.cons_append]

theorem digits_ne_nil (d : Decimal) : d.digits ≠ [] :=
  Nat.toDigits_ne_nil

theorem isDigit_of_mem_digits {d : Decimal} {c : Char} (h : c ∈ d.digits) : c.isDigit = true :=
  Nat.isDigit_of_mem_toDigits (by decide) (by decide) h

theorem isDigit_of_mem_zeros {n : Nat} {c : Char} (h : c ∈ List.replicate n '0') :
    c.isDigit = true := by
  rw [List.eq_of_mem_replicate h]; decide

theorem value_digits (d : Decimal) : Numeral.value d.digits = d.coefficient :=
  Nat.ofDigitChars_ten_toDigits

theorem value_append_zeros (ds : List Char) (n : Nat) :
    Numeral.value (ds ++ List.replicate n '0') = Numeral.value ds * 10 ^ n := by
  rw [Numeral.value, Nat.ofDigitChars_append, Nat.ofDigitChars_replicate_zero, Nat.mul_comm]
  rfl

theorem value_zeros_append (n : Nat) (ds : List Char) :
    Numeral.value (List.replicate n '0' ++ ds) = Numeral.value ds := by
  rw [Numeral.value, Nat.ofDigitChars_append, Nat.ofDigitChars_replicate_zero, Nat.mul_zero]
  rfl

/-- The same number with `k` zeros more at the end of its coefficient. -/
def scale (d : Decimal) (k : Nat) : Decimal :=
  ⟨d.coefficient * 10 ^ k, d.exponent - k⟩

theorem scale_zero (d : Decimal) : d.scale 0 = d := by
  simp [scale]

/-- The digits of a decimal before its point and after it, in positional form. -/
def positionalParts (d : Decimal) : List Char × Option (List Char) :=
  let places := (-d.exponent).toNat
  if places = 0 then (d.digits ++ List.replicate d.exponent.toNat '0', none)
  else if places < d.digits.length then
    (d.digits.take (d.digits.length - places), some (d.digits.drop (d.digits.length - places)))
  else (['0'], some (List.replicate (places - d.digits.length) '0' ++ d.digits))

theorem isDigit_of_mem_positionalParts (d : Decimal) :
    (∀ c ∈ d.positionalParts.1, c.isDigit = true) ∧
      ∀ ds ∈ d.positionalParts.2, ∀ c ∈ ds, c.isDigit = true := by
  have hdigits : ∀ c ∈ d.digits, c.isDigit = true := fun c hc => isDigit_of_mem_digits hc
  unfold positionalParts
  dsimp only
  split
  · refine ⟨fun c hc => ?_, by simp⟩
    exact (List.mem_append.1 hc).elim (hdigits c) isDigit_of_mem_zeros
  · split
    · refine ⟨fun c hc => hdigits c (List.mem_of_mem_take hc), ?_⟩
      rintro ds ⟨⟩ c hc
      exact hdigits c (List.mem_of_mem_drop hc)
    · refine ⟨List.forall_mem_singleton.2 (by decide), ?_⟩
      rintro ds ⟨⟩ c hc
      exact (List.mem_append.1 hc).elim isDigit_of_mem_zeros (hdigits c)

theorem positionalParts_ne_nil (d : Decimal) : d.positionalParts.1 ≠ [] := by
  unfold positionalParts
  dsimp only
  split
  · simp [d.digits_ne_nil]
  · split
    · simp only [ne_eq, List.take_eq_nil_iff, not_or]
      exact ⟨by omega, d.digits_ne_nil⟩
    · simp

/-- The parts of a decimal in positional form. -/
def positionalFigures (d : Decimal) (negative : Bool) : Figures where
  negative := negative
  whole := d.positionalParts.1
  fraction := d.positionalParts.2
  whole_ne_nil := d.positionalParts_ne_nil
  whole_digits := d.isDigit_of_mem_positionalParts.1
  fraction_digits := d.isDigit_of_mem_positionalParts.2

theorem unsigned_positionalFigures (d : Decimal) (negative : Bool) :
    (d.positionalFigures negative).unsigned = d.positional := by
  simp only [unsigned, positionalFigures, positionalParts, positional, powerText, List.append_nil]
  split
  · simp [fractionText]
  · split
    · simp [fractionText]
    · simp [fractionText]

theorem decimal_positionalFigures (d : Decimal) (negative : Bool) :
    ∃ k, (d.positionalFigures negative).decimal = d.scale k := by
  simp only [Figures.decimal, positionalFigures, positionalParts, powerValue]
  split
  · refine ⟨d.exponent.toNat, ?_⟩
    simp only [Option.getD_none, List.append_nil, value_append_zeros, value_digits, scale,
      mk.injEq, true_and, List.length_nil]
    omega
  · split
    · refine ⟨0, ?_⟩
      rw [scale_zero]
      simp only [Option.getD_some, List.take_append_drop, value_digits, List.length_drop]
      congr 1
      omega
    · have hvalue : Numeral.value (['0'] ++
          (List.replicate ((-d.exponent).toNat - d.digits.length) '0' ++ d.digits)) =
          d.coefficient := by
        rw [← value_digits, ← value_zeros_append _ d.digits]
        exact value_zeros_append 1 _
      refine ⟨0, ?_⟩
      rw [scale_zero]
      simp only [Option.getD_some, hvalue, List.length_append, List.length_replicate]
      congr 1
      omega

/-- The exponent of a decimal in exponential form. -/
def powerParts (d : Decimal) : Bool × List Char :=
  (decide (d.lead < 0), Nat.toDigits 10 d.lead.natAbs)

theorem powerText_powerParts (d : Decimal) :
    powerText (some d.powerParts) =
      'e' :: (if d.lead < 0 then ['-'] else ['+']) ++ Nat.toDigits 10 d.lead.natAbs := by
  by_cases h : d.lead < 0 <;> simp [powerParts, powerText, signChar, h]

theorem powerValue_powerParts (d : Decimal) : powerValue (some d.powerParts) = d.lead := by
  have hvalue : Numeral.value (Nat.toDigits 10 d.lead.natAbs) = d.lead.natAbs :=
    Nat.ofDigitChars_ten_toDigits
  by_cases h : d.lead < 0
  · simp only [powerParts, powerValue, h, decide_true, ↓reduceIte, hvalue]
    omega
  · simp only [powerParts, powerValue, h, decide_false, hvalue]
    exact Int.natAbs_of_nonneg (by omega)

/-- The parts of a decimal in exponential form. -/
def exponentialFigures (d : Decimal) (negative : Bool) : Figures where
  negative := negative
  whole := d.digits.take 1
  fraction := if d.digits.length = 1 then none else some (d.digits.drop 1)
  power := some d.powerParts
  whole_ne_nil := by simp [d.digits_ne_nil]
  whole_digits := fun _ hc => isDigit_of_mem_digits (List.mem_of_mem_take hc)
  fraction_digits := by
    intro ds hds c hc
    split at hds
    · cases hds
    · cases hds
      exact isDigit_of_mem_digits (List.mem_of_mem_drop hc)
  power_ne_nil := by
    rintro p ⟨⟩
    exact Nat.toDigits_ne_nil
  power_digits := by
    rintro p ⟨⟩ c hc
    exact Nat.isDigit_of_mem_toDigits (by decide) (by decide) hc

/-- The digits of a decimal with a point after the first one. -/
theorem mantissa_exponentialFigures (d : Decimal) (negative : Bool) (plus : List Char) :
    let f := d.exponentialFigures negative
    d.exponential plus = f.whole ++ (fractionText f.fraction ++
      'e' :: ((if d.lead < 0 then ['-'] else plus) ++ Nat.toDigits 10 d.lead.natAbs)) := by
  unfold exponential exponentialFigures
  dsimp only
  cases hd : d.digits with
  | nil => exact absurd hd d.digits_ne_nil
  | cons c cs => cases cs <;> simp [fractionText]

theorem unsigned_exponentialFigures (d : Decimal) (negative : Bool) :
    (d.exponentialFigures negative).unsigned = d.exponential ['+'] := by
  rw [d.mantissa_exponentialFigures negative]
  simp [unsigned, exponentialFigures, powerText_powerParts]

/-- The digits together are those of the decimal. -/
theorem whole_append_exponentialFigures (d : Decimal) (negative : Bool) :
    let f := d.exponentialFigures negative
    f.whole ++ f.fraction.getD [] = d.digits := by
  simp only [exponentialFigures]
  split
  · next hone => rw [Option.getD_none, List.append_nil, List.take_of_length_le (Nat.le_of_eq hone)]
  · rw [Option.getD_some, List.take_append_drop]

theorem decimal_exponentialFigures (d : Decimal) (negative : Bool) :
    (d.exponentialFigures negative).decimal = d := by
  have hpos : 0 < d.digits.length := List.length_pos_iff.2 d.digits_ne_nil
  have hlength : ((d.exponentialFigures negative).fraction.getD []).length =
      d.digits.length - 1 := by
    simp only [exponentialFigures]
    split
    · next hone => rw [hone, Option.getD_none, List.length_nil]
    · rw [Option.getD_some, List.length_drop]
  have hpower : powerValue (d.exponentialFigures negative).power = d.lead :=
    d.powerValue_powerParts
  simp only [Figures.decimal, whole_append_exponentialFigures, hlength, hpower, value_digits, lead]
  congr 1
  omega

end Decimal

end Abacus
