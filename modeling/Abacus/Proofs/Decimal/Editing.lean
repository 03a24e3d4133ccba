import Abacus.Proofs.Decimal.Figures

/-!
# Editing written numbers

What becomes of a written number when a character is put after it or taken off its end.

* `Figures.exists_text_eq_concat_digit`, `Figures.exists_text_eq_concat_point` : a digit may always
  follow, a point only as long as there is neither a point nor an exponent;
* `Figures.shortens_text` : taking off the last character leaves a written number, unless that was
  the only digit of the number or of its exponent;
* `Figures.read?_append_eq_none` : a letter of an exponent that no integer follows makes a number
  unreadable.
-/

namespace Abacus

namespace Figures

/-- Whether a character is one of the two signs. -/
def isSign (c : Char) : Bool :=
  c == '+' || c == '-'

theorem text_eq_mantissa_append (f : Figures) : f.text = f.mantissa.text ++ powerText f.power := by
  cases hn : f.negative <;> simp [text, unsigned, mantissa, hn, powerText]

theorem unsigned_mantissa_append (f : Figures) (rest : List Char) :
    f.mantissa.unsigned ++ rest = f.whole ++ (fractionText f.fraction ++ rest) := by
  simp [unsigned, mantissa, powerText]

/-! ### Letters -/

theorem isAlpha_of_isDigit {c : Char} (h : c.isDigit = true) : c.isAlpha = false := by
  rw [Char.isDigit_iff_toNat] at h
  simp only [Char.reduceToNat] at h
  change (decide ('A'.val ≤ c.val ∧ c.val ≤ 'Z'.val) ||
    decide ('a'.val ≤ c.val) && decide (c.val ≤ 'z'.val)) = false
  simp [UInt32.le_iff_toNat_le]
  omega

theorem isSign_of_isDigit {c : Char} (h : c.isDigit = true) : isSign c = false := by
  have hplus : c ≠ '+' := ne_of_isDigit h (by decide)
  have hminus : c ≠ '-' := ne_of_isDigit h (by decide)
  simp [isSign, hplus, hminus]

theorem toLower_of_isDigit {c : Char} (h : c.isDigit = true) : c.toLower = c := by
  rw [Char.isDigit_iff_toNat] at h
  simp only [Char.reduceToNat] at h
  refine dif_neg ?_
  simp [UInt32.le_iff_toNat_le]
  omega

/-! ### The parts that a text shows -/

/-- A character that is neither a digit nor a sign shows that there is a point or an exponent. -/
theorem exists_mem_text_iff (f : Figures) {p : Char → Prop}
    (hdigit : ∀ c, c.isDigit = true → ¬ p c) (hsign : ∀ c, isSign c = true → ¬ p c) :
    (∃ c ∈ f.text, p c) ↔ f.fraction.isSome = true ∧ p '.' ∨ f.power.isSome = true ∧ p 'e' := by
  -- the sign and the digits have no such character; the point and the letter stand for their parts
  have hunsigned : (∃ c ∈ f.text, p c) ↔ ∃ c ∈ f.unsigned, p c := by
    have hminus := hsign '-' (by decide)
    cases hn : f.negative <;> simp [text, hn, hminus]
  have hwhole : ¬ ∃ c ∈ f.whole, p c := by
    rintro ⟨c, hc, hp⟩
    exact hdigit c (f.whole_digits c hc) hp
  have hfraction : (∃ c ∈ fractionText f.fraction, p c) ↔ f.fraction.isSome = true ∧ p '.' := by
    cases h : f.fraction with
    | none => simp [fractionText]
    | some ds =>
      have hds : ¬ ∃ c ∈ ds, p c := by
        rintro ⟨c, hc, hp⟩
        exact hdigit c (f.fraction_digits ds h c hc) hp
      simp [fractionText, hds]
  have hpower : (∃ c ∈ powerText f.power, p c) ↔ f.power.isSome = true ∧ p 'e' := by
    cases h : f.power with
    | none => simp [powerText]
    | some q =>
      have hq : ¬ ∃ c ∈ q.2, p c := by
        rintro ⟨c, hc, hp⟩
        exact hdigit c (f.power_digits q h c hc) hp
      have hchar : ¬ p (signChar q.1) := by
        apply hsign
        cases q.1 <;> decide
      simp [powerText, hq, hchar]
  rw [hunsigned, ← hfraction, ← hpower]
  simp only [unsigned, List.mem_append, or_and_right, exists_or]
  simp only [hwhole, false_or]

theorem point_mem_text_iff (f : Figures) : '.' ∈ f.text ↔ f.fraction.isSome = true := by
  have h := f.exists_mem_text_iff (p := (· = '.')) (fun c hc => ne_of_isDigit hc (by decide))
    (by rintro c hc rfl; simp [isSign] at hc)
  simpa using h

theorem exists_letter_mem_text_iff (f : Figures) :
    (∃ c ∈ f.text, c.isAlpha = true) ↔ f.power.isSome = true := by
  have h := f.exists_mem_text_iff (p := fun c => c.isAlpha = true) ?_ ?_
  · simpa using h
  · intro c hc
    simp [isAlpha_of_isDigit hc]
  · intro c hc
    simp only [isSign, Bool.or_eq_true, beq_iff_eq] at hc
    rcases hc with rfl | rfl <;> decide

/-- A written number has no other characters than these. -/
theorem isDigit_or_mem_of_mem_text {f : Figures} {c : Char} (hc : c ∈ f.text) :
    c.isDigit = true ∨ c ∈ ['.', '-', '+', 'e'] := by
  have hnone : ¬ ∃ c ∈ f.text, ¬ (c.isDigit = true ∨ c ∈ ['.', '-', '+', 'e']) := by
    rw [f.exists_mem_text_iff]
    · simp
    · intro c hdigit
      simp [hdigit]
    · intro c hsign
      simp only [isSign, Bool.or_eq_true, beq_iff_eq] at hsign
      rcases hsign with rfl | rfl <;> simp
  exact Decidable.byContradiction fun hother => hnone ⟨c, hc, hother⟩

theorem text_mantissa (f : Figures) :
    f.mantissa.text =
      (if f.negative then ['-'] else []) ++ (f.whole ++ fractionText f.fraction) := by
  cases hn : f.negative <;> simp [text, unsigned, mantissa, hn, powerText]

theorem count_point_of_digits {ds : List Char} (h : ∀ c ∈ ds, c.isDigit = true) :
    ds.count '.' = 0 :=
  List.count_eq_zero.2 fun hc => ne_of_isDigit (h _ hc) (by decide) rfl

/-- A written number has at most one point. -/
theorem count_point_text_le (f : Figures) : f.text.count '.' ≤ 1 := by
  have hsign : (if f.negative then ['-'] else []).count '.' = 0 := by
    cases f.negative <;> rfl
  have hwhole := count_point_of_digits f.whole_digits
  have hfraction : (fractionText f.fraction).count '.' ≤ 1 := by
    cases h : f.fraction with
    | none => simp [fractionText]
    | some ds => simp [fractionText, count_point_of_digits (f.fraction_digits ds h)]
  have hpower : (powerText f.power).count '.' = 0 := by
    cases h : f.power with
    | none => rfl
    | some q =>
      have hq := count_point_of_digits (f.power_digits q h)
      cases hn : q.1 <;> simp [powerText, signChar, hn, hq]
  rw [text_eq_mantissa_append, text_mantissa]
  simp only [List.count_append]
  omega

/-- Without their exponent, numbers have no other digits than those of their parts. -/
theorem filter_isDigit_text_mantissa (f : Figures) :
    f.mantissa.text.filter Char.isDigit = f.whole ++ f.fraction.getD [] := by
  have hsign : (if f.negative then ['-'] else []).filter Char.isDigit = [] := by
    cases f.negative <;> rfl
  have hfraction : (fractionText f.fraction).filter Char.isDigit = f.fraction.getD [] := by
    cases h : f.fraction with
    | none => rfl
    | some ds =>
      rw [fractionText, List.filter_cons_of_neg (by decide)]
      exact List.filter_eq_self.2 (f.fraction_digits ds h)
  rw [text_mantissa, List.filter_append, List.filter_append, hsign, hfraction,
    List.filter_eq_self.2 f.whole_digits, List.nil_append]

theorem head?_text_eq_minus_iff (f : Figures) : f.text.head? = some '-' ↔ f.negative = true := by
  obtain ⟨c, cs, h, hc⟩ := f.exists_unsigned_eq_cons
  have hminus : c ≠ '-' := ne_of_isDigit hc (by decide)
  cases hn : f.negative <;> simp [text, hn, h, hminus]

/-! ### Putting a character after a number -/

theorem exists_text_eq_concat_digit (f : Figures) {c : Char} (hc : c.isDigit = true) :
    ∃ g : Figures, g.text = f.text ++ [c] := by
  have hconcat : ∀ ds : List Char, (∀ d ∈ ds, d.isDigit = true) →
      ∀ d ∈ ds ++ [c], d.isDigit = true := by
    intro ds hds d hd
    rcases List.mem_append.1 hd with hd | hd
    · exact hds d hd
    · rwa [List.mem_singleton.1 hd]
  cases hp : f.power with
  | some q =>
    refine ⟨{ f with
      power := some (q.1, q.2 ++ [c])
      power_ne_nil := by simp
      power_digits := ?_ }, ?_⟩
    · rintro r ⟨⟩
      exact hconcat q.2 (f.power_digits q hp)
    · cases hn : f.negative <;> simp [text, unsigned, powerText, hn, hp]
  | none =>
    cases hf : f.fraction with
    | some ds =>
      refine ⟨{ f with
        fraction := some (ds ++ [c])
        fraction_digits := ?_ }, ?_⟩
      · rintro r ⟨⟩
        exact hconcat ds (f.fraction_digits ds hf)
      · cases hn : f.negative <;> simp [text, unsigned, fractionText, powerText, hn, hp, hf]
    | none =>
      refine ⟨{ f with
        whole := f.whole ++ [c]
        whole_ne_nil := by simp
        whole_digits := hconcat f.whole f.whole_digits }, ?_⟩
      cases hn : f.negative <;> simp [text, unsigned, fractionText, powerText, hn, hp, hf]

theorem exists_text_eq_concat_point (f : Figures) (hf : f.fraction = none) (hp : f.power = none) :
    ∃ g : Figures, g.text = f.text ++ ['.'] := by
  refine ⟨{ f with
    fraction := some []
    fraction_digits := by simp }, ?_⟩
  cases hn : f.negative <;> simp [text, unsigned, fractionText, powerText, hn, hp, hf]

/-! ### Unreadable texts -/

/-- A text that begins with a digit is not one of the words that numerals may be. -/
theorem magnitude?_eq_none {c : Char} (hc : c.isDigit = true) {cs : List Char}
    (h : Numeral.decimal? (c :: cs) = none) : Numeral.magnitude? (c :: cs) = none := by
  have hword : ∀ word : List Char, (∀ d ∈ word.head?, d.isDigit = false) →
      (c :: cs).map Char.toLower ≠ word := by
    rintro word hw rfl
    have hd := hw c (by simp [toLower_of_isDigit hc])
    rw [hc] at hd
    cases hd
  have hinf := hword "inf".toList (by simp)
  have hinfinity := hword "infinity".toList (by simp)
  have hnan := hword "nan".toList (by simp)
  simp only [Numeral.magnitude?, h, hinf, hinfinity, hnan, or_self, ↓reduceIte]

/-- The letter of an exponent asks for an integer after it. -/
theorem read?_append_eq_none (f : Figures) {tail : List Char} (h : Numeral.integer? tail = none) :
    Numeral.read? (f.mantissa.text ++ 'e' :: tail) = none := by
  -- the digits are read up to the letter, so the exponent alone decides
  have hdecimal : Numeral.decimal? (f.mantissa.unsigned ++ 'e' :: tail) = none := by
    rw [unsigned_mantissa_append, decimal?_append f (by simp)]
    simp [Numeral.exponent?, h]
  obtain ⟨c, cs, hcons, hc⟩ := f.mantissa.exists_unsigned_eq_cons
  rw [Numeral.read?, sign_text_append]
  rw [hcons, List.cons_append] at hdecimal ⊢
  simp [magnitude?_eq_none hc hdecimal]

/-- A point after an exponent makes a number unreadable. -/
theorem read?_concat_point (f : Figures) (hp : f.power.isSome = true) :
    Numeral.read? (f.text ++ ['.']) = none := by
  obtain ⟨⟨negative, ds⟩, hq⟩ := Option.isSome_iff_exists.1 hp
  rw [text_eq_mantissa_append, hq, List.append_assoc]
  have htail : Numeral.integer? (signChar negative :: ds ++ ['.']) = none := by
    cases negative <;> simp [Numeral.integer?, Numeral.sign, signChar]
  exact f.read?_append_eq_none htail

/-! ### Taking off the last character -/

/-- A list of digits that is not empty, cut before the last one. -/
theorem exists_eq_concat_digit {ds : List Char} (hne : ds ≠ [])
    (hds : ∀ d ∈ ds, d.isDigit = true) :
    ∃ cs c, ds = cs ++ [c] ∧ c.isDigit = true ∧ ∀ d ∈ cs, d.isDigit = true := by
  refine ⟨ds.dropLast, ds.getLast hne, (List.dropLast_concat_getLast hne).symm, ?_, ?_⟩
  · exact hds _ (List.getLast_mem hne)
  · intro d hd
    exact hds d (List.dropLast_subset ds hd)

/-- Without its last character, which is neither a letter nor a sign, a text is empty, or unreadable
because it ends in a sign, or a written number. -/
def Shortens (text : List Char) : Prop :=
  ∃ cs c, text = cs ++ [c] ∧ c.isAlpha = false ∧ isSign c = false ∧
    (cs = [] ∨ (∃ bs b, cs = bs ++ [b] ∧ isSign b = true ∧ Numeral.read? cs = none) ∨
      ∃ g : Figures, cs = g.text)

theorem shortens_of_power {f : Figures} {q : Bool × List Char} (hp : f.power = some q) :
    Shortens f.text := by
  obtain ⟨ds, c, hq, hc, hds⟩ :=
    exists_eq_concat_digit (f.power_ne_nil q hp) (f.power_digits q hp)
  have htext : f.text = (f.mantissa.text ++ 'e' :: signChar q.1 :: ds) ++ [c] := by
    rw [text_eq_mantissa_append, hp]
    simp [powerText, hq]
  refine ⟨_, c, htext, isAlpha_of_isDigit hc, isSign_of_isDigit hc, .inr ?_⟩
  by_cases hnil : ds = []
  · -- the exponent has lost its only digit
    subst hnil
    refine .inl ⟨f.mantissa.text ++ ['e'], signChar q.1, by simp, ?_, ?_⟩
    · cases q.1 <;> decide
    · refine f.read?_append_eq_none ?_
      cases q.1 <;> decide
  · obtain ⟨g, hg, hpower⟩ :
        ∃ g : Figures, g.mantissa = f.mantissa ∧ g.power = some (q.1, ds) :=
      ⟨{ f with
        power := some (q.1, ds)
        power_ne_nil := by simpa using hnil
        power_digits := by simpa using hds }, rfl, rfl⟩
    refine .inr ⟨g, ?_⟩
    rw [text_eq_mantissa_append g, hg, hpower, powerText]

theorem shortens_of_fraction {f : Figures} (hp : f.power = none) {part : List Char}
    (hf : f.fraction = some part) : Shortens f.text := by
  by_cases hnil : part = []
  · -- the point goes
    subst hnil
    refine ⟨_, '.', ?_, by decide, by decide, .inr (.inr ⟨{ f with
      fraction := none
      fraction_digits := by simp }, rfl⟩)⟩
    cases hn : f.negative <;> simp [text, unsigned, fractionText, powerText, hn, hp, hf]
  · obtain ⟨ds, c, rfl, hc, hds⟩ := exists_eq_concat_digit hnil (f.fraction_digits part hf)
    refine ⟨_, c, ?_, isAlpha_of_isDigit hc, isSign_of_isDigit hc, .inr (.inr ⟨{ f with
      fraction := some ds
      fraction_digits := by simpa using hds }, rfl⟩)⟩
    cases hn : f.negative <;> simp [text, unsigned, fractionText, powerText, hn, hp, hf]

theorem shortens_of_whole {f : Figures} (hp : f.power = none) (hf : f.fraction = none) :
    Shortens f.text := by
  obtain ⟨ds, c, hw, hc, hds⟩ := exists_eq_concat_digit f.whole_ne_nil f.whole_digits
  have hletter := isAlpha_of_isDigit hc
  have hsign := isSign_of_isDigit hc
  by_cases hnil : ds = []
  · -- the number has lost its only digit
    subst hnil
    cases hn : f.negative with
    | true =>
      refine ⟨['-'], c, ?_, hletter, hsign, .inr (.inl ⟨[], '-', rfl, by decide, by decide⟩)⟩
      simp [text, unsigned, fractionText, powerText, hn, hp, hf, hw]
    | false =>
      refine ⟨[], c, ?_, hletter, hsign, .inl rfl⟩
      simp [text, unsigned, fractionText, powerText, hn, hp, hf, hw]
  · refine ⟨_, c, ?_, hletter, hsign, .inr (.inr ⟨{ f with
      whole := ds
      whole_ne_nil := hnil
      whole_digits := hds }, rfl⟩)⟩
    cases hn : f.negative <;> simp [text, unsigned, fractionText, powerText, hn, hp, hf, hw]

/-- **Without its last character a number is a number, or it is unreadable and ends in a sign.** -/
theorem shortens_text (f : Figures) : Shortens f.text := by
  cases hp : f.power with
  | some q => exact shortens_of_power hp
  | none =>
    cases hf : f.fraction with
    | some part => exact shortens_of_fraction hp hf
    | none => exact shortens_of_whole hp hf

end Figures

end Abacus
