import Abacus.Proofs.Expression.Plain
import Abacus.Proofs.Text.Blank

/-!
# Numbers as the engine reads them

A literal is a text that is read whole as a number (`Parser.IsLiteral`), which can be decided by
scanning it (`Parser.isLiteral_iff`).  It is one of the two words for numbers, or it begins with a
digit, a point or a sign (`Parser.IsLiteral.cases`).

What a number has behind its digits begins with a point, an exponent or the letter of a scale
(`Parser.mem_of_snd_scaled_scan`).  The sign in front of a number is no part of its scan: what
follows the sign is scanned as a number as well (`Parser.IsLiteral.number?_of_sign`).
-/

namespace Abacus

namespace Parser

/-- A text that is read whole as a number. -/
def IsLiteral (p : List Char) : Prop :=
  (∀ c ∈ p.head?, isSpace c = false) ∧ ∃ x, number? { rest := p } = .ok (some x, { rest := [] })

/-- What is left behind a scanned number and its scale. -/
theorem snd_scaled_token (s : Scan) (token : List Char) :
    (Scan.scaled { s with token }).2 = s.scaled.2 := by
  unfold Scan.scaled
  cases s.rest with
  | nil => rfl
  | cons c rest => dsimp only; split <;> rfl

theorem dropWhile_of_head {p : List Char} (h : ∀ c ∈ p.head?, isSpace c = false) :
    p.dropWhile isSpace = p := by
  cases p with
  | nil => rfl
  | cons c cs => exact List.dropWhile_cons_of_neg (by simp [h c rfl])

variable {p : List Char}

/-- A literal is scanned to its end, and what is scanned is a numeral. -/
theorem isLiteral_iff : IsLiteral p ↔ p.head?.any isSpace = false ∧
    (scan true true false true p).isNumber = true ∧
    (scan true true false true p).scaled.2 = [] ∧
    (Numeral.read? (scan true true false true p).scaled.1).isSome = true := by
  have hany : p.head?.any isSpace = false ↔ ∀ c ∈ p.head?, isSpace c = false := by
    cases p.head? <;> simp
  rw [hany]
  refine and_congr_right fun hhead => ?_
  unfold number?
  rw [dropWhile_of_head hhead]
  dsimp only
  by_cases hnumber : (scan true true false true p).isNumber = true
  · rw [if_pos hnumber]
    cases Numeral.read? (scan true true false true p).scaled.1 with
    | none => simp
    | some x => simp [hnumber]
  · simp [hnumber]

instance : Decidable (IsLiteral p) :=
  decidable_of_iff _ isLiteral_iff.symm

/-- The scan of a literal ends with the literal. -/
theorem IsLiteral.scan_eq (h : IsLiteral p) :
    (scan true true false true p).isNumber = true ∧
      (scan true true false true p).scaled.2 = [] := by
  obtain ⟨-, hnumber, hrest, -⟩ := isLiteral_iff.1 h
  exact ⟨hnumber, hrest⟩

/-- The letters for powers of ten. -/
theorem mem_of_scale? {c : Char} {e : String} (h : scale? c = some e) :
    c ∈ "kKMGTmuµnp".toList := by
  fun_cases scale? c with
  | case11 => simp_all [scale?]
  | _ => decide

theorem scaled_cases (s : Scan) : s.scaled = (s.token, s.rest) ∨
    ∃ c rest e, s.rest = c :: rest ∧ scale? c = some e ∧ s.allowsScale = true ∧
      s.scaled = (s.token ++ e.toList, rest) := by
  fun_cases Scan.scaled s with
  | case1 c rest hrest e hscale hallows => exact .inr ⟨c, rest, e, hrest, hscale, hallows, rfl⟩
  | case2 => exact .inl rfl
  | case3 hrest => exact .inl (by rw [hrest])

theorem isPlain_of_isDigit {c : Char} (h : c.isDigit = true) : isPlain c = true := by
  simp [isPlain, Text.inName, Char.isAlphanum, h]

theorem mem_token_scan (sign word seen scale : Bool) (cs : List Char) :
    ∀ c ∈ (scan sign word seen scale cs).token, isPlain c = true ∨ c = '-' ∨ c = '+' := by
  fun_induction scan sign word seen scale cs with
  | case1 | case3 => simp [isPlain, Text.inName]
  | case2 | case4 | case8 | case9 => simp
  | case5 _ _ _ _ c _ _ _ _ hc ih =>
    refine List.forall_mem_cons.2 ⟨.inl ?_, ih⟩
    obtain hdigit | rfl : c.isDigit = true ∨ c = '.' := by simpa using hc
    · exact isPlain_of_isDigit hdigit
    · rfl
  | case6 _ _ _ _ c _ _ _ _ _ hc ih =>
    exact List.forall_mem_cons.2 ⟨.inr (by simpa using (Bool.and_eq_true_iff.1 hc).2), ih⟩
  | case7 _ _ _ _ c _ _ _ _ _ _ hc ih =>
    refine List.forall_mem_cons.2 ⟨.inl ?_, ih⟩
    obtain rfl | rfl : c = 'e' ∨ c = 'E' := by simpa using (Bool.and_eq_true_iff.1 hc).2
    · rfl
    · rfl

/-- The characters of literals. -/
theorem IsLiteral.mem (h : IsLiteral p) : ∀ c ∈ p, isPlain c = true ∨ c ∈ "-+µ".toList := by
  obtain ⟨-, hrest⟩ := h.scan_eq
  have htoken := token_append_rest_scan true true false true p
  have hmem : ∀ c ∈ (scan true true false true p).token, isPlain c = true ∨ c ∈ "-+µ".toList :=
    fun c hc => (mem_token_scan true true false true p c hc).imp_right
      (by rintro (rfl | rfl) <;> decide)
  obtain hscaled | ⟨c, rest, e, hcons, hscale, -, hscaled⟩ :=
    scaled_cases (scan true true false true p)
  · rw [hscaled] at hrest
    dsimp only at hrest
    rw [← htoken, hrest, List.append_nil]
    exact hmem
  · rw [hscaled] at hrest
    dsimp only at hrest
    subst hrest
    have hletter : ∀ c ∈ "kKMGTmuµnp".toList, isPlain c = true ∨ c ∈ "-+µ".toList :=
      List.all_iff_forall_prop.1 (by decide)
    rw [← htoken, hcons]
    exact List.forall_mem_append.2
      ⟨hmem, List.forall_mem_singleton.2 (hletter c (mem_of_scale? hscale))⟩

/-! ### How a literal begins -/

/-- The first character of a number that is no word. -/
theorem head_of_isNumber_scan {sign : Bool} {c : Char} {cs : List Char}
    (hword : ¬ BeginsNumber (c :: cs))
    (h : (scan sign true false true (c :: cs)).isNumber = true) :
    (c.isDigit = true ∨ c = '.') ∨ (sign = true ∧ (c = '-' ∨ c = '+')) := by
  rw [scan_cons hword] at h
  dsimp only at h
  split_ifs at h with hdigit hsign hexponent
  · exact .inl (by simpa using hdigit)
  · exact .inr (by simpa using hsign)
  · simp at hexponent

/-- A number without a sign begins with a plain character. -/
theorem isPlain_of_isNumber_scan {w : List Char}
    (h : (scan false true false true w).isNumber = true) : ∀ c ∈ w.head?, isPlain c = true := by
  cases w with
  | nil => cases h
  | cons c cs =>
    rintro _ ⟨rfl⟩
    by_cases hword : BeginsNumber (c :: cs)
    · obtain ⟨rest, hrest⟩ | ⟨rest, hrest⟩ := hword
      all_goals
        cases hrest
        rfl
    · obtain (hdigit | rfl) | ⟨hsign, -⟩ := head_of_isNumber_scan hword h
      · exact isPlain_of_isDigit hdigit
      · rfl
      · cases hsign

/-- A scan knows a sign by its first character. -/
theorem scan_true_eq_scan_false (h : ∀ c ∈ p.head?, c ≠ '-' ∧ c ≠ '+') (word seen scale : Bool) :
    scan true word seen scale p = scan false word seen scale p := by
  cases p with
  | nil => rfl
  | cons c cs =>
    by_cases hword : BeginsNumber (c :: cs)
    · obtain ⟨rest, hrest⟩ | ⟨rest, hrest⟩ := hword
      all_goals
        rw [← hrest]
        rfl
    · rw [scan_cons hword, scan_cons hword]
      simp [h c rfl]

/-- Digits and points count as seen. -/
theorem scan_of_digit {c : Char} {cs : List Char} (hc : c.isDigit = true ∨ c = '.')
    (hword : ¬ BeginsNumber (c :: cs)) (sign word seen scale : Bool) :
    scan sign word seen scale (c :: cs) =
      { scan false false true scale cs with token := c :: (scan false false true scale cs).token } := by
  rw [scan_cons hword, if_pos (by simpa using hc)]

/-- A literal is one of the two words, or it begins with a sign, a digit or a point. -/
theorem IsLiteral.cases (h : IsLiteral p) :
    (p = "NaN".toList ∨ p = "inf".toList) ∨
      ∃ c cs, p = c :: cs ∧ ¬ BeginsNumber p ∧
        ((c.isDigit = true ∨ c = '.') ∨ c = '-' ∨ c = '+') := by
  obtain ⟨hnumber, hrest⟩ := h.scan_eq
  by_cases hword : BeginsNumber p
  · left
    obtain ⟨rest, rfl⟩ | ⟨rest, rfl⟩ := hword
    · cases rest with
      | nil => exact .inl rfl
      | cons c rest => cases hrest
    · cases rest with
      | nil => exact .inr rfl
      | cons c rest => cases hrest
  · cases p with
    | nil => cases hnumber
    | cons c cs =>
      refine .inr ⟨c, cs, rfl, hword, ?_⟩
      exact (head_of_isNumber_scan hword hnumber).imp_right And.right

/-! ### Behind the digits -/

theorem not_beginsNumber_of_digit {c : Char} (hc : c.isDigit = true ∨ c = '.') (cs : List Char) :
    ¬ BeginsNumber (c :: cs) := by
  rintro (⟨rest, h⟩ | ⟨rest, h⟩)
  all_goals
    cases h
    revert hc
    decide

/-- Digits are left out of account when one looks for the end of a number. -/
theorem snd_scaled_scan_dropWhile (scale : Bool) (cs : List Char) :
    (scan false false true scale (cs.dropWhile Char.isDigit)).scaled.2 =
      (scan false false true scale cs).scaled.2 := by
  induction cs with
  | nil => rfl
  | cons c cs ih =>
    cases hc : c.isDigit with
    | false => rw [List.dropWhile_cons_of_neg (by simp [hc])]
    | true =>
      rw [List.dropWhile_cons_of_pos hc, ih,
        scan_of_digit (.inl hc) (not_beginsNumber_of_digit (.inl hc) cs)]
      exact (snd_scaled_token _ _).symm

/-- Behind the digits of a number that goes on there is a point, an exponent or a scale. -/
theorem mem_of_snd_scaled_scan {scale : Bool} {cs : List Char}
    (h : (scan false false true scale cs).scaled.2 = []) :
    ∀ d ∈ (cs.dropWhile Char.isDigit).head?, d ∈ ".eEkKMGTmuµnp".toList := by
  rw [← snd_scaled_scan_dropWhile] at h
  have hstop := List.head?_dropWhile_not Char.isDigit cs
  cases hcut : cs.dropWhile Char.isDigit with
  | nil =>
    intro d hd
    cases hd
  | cons d rest =>
    rw [hcut] at h hstop
    rintro _ ⟨rfl⟩
    by_cases hword : BeginsNumber (d :: rest)
    · -- a word does not go on with a number
      obtain ⟨r, hr⟩ | ⟨r, hr⟩ := hword
      all_goals
        cases hr
        cases scale <;> cases h
    · rw [scan_cons hword] at h
      dsimp only at h
      split_ifs at h with hpoint hsign hexponent
      · obtain rfl : d = '.' := by simp_all
        decide
      · simp at hsign
      · obtain rfl | rfl : d = 'e' ∨ d = 'E' := by simpa using hexponent
        · decide
        · decide
      · cases hletter : scale? d with
        | some e =>
          have hmem : ∀ c ∈ "kKMGTmuµnp".toList, c ∈ ".eEkKMGTmuµnp".toList :=
            List.all_iff_forall_prop.1 (by decide)
          exact hmem d (mem_of_scale? hletter)
        | none => simp [Scan.scaled, hletter] at h

/-! ### Behind a sign -/

/-- Behind the sign of a literal there is a number, unless it is malformed without its sign. -/
theorem IsLiteral.number?_of_sign {c : Char} {w : List Char} (h : IsLiteral (c :: w))
    (hc : c = '-' ∨ c = '+') (es os : Nat) :
    (∃ y, number? ⟨w, es, os⟩ = .ok (some y, ⟨[], es, os⟩)) ∨
      ∃ err, number? ⟨w, es, os⟩ = .error err := by
  obtain ⟨hnumber, hrest⟩ := h.scan_eq
  have hword : ¬ BeginsNumber (c :: w) := by
    rintro (⟨rest, hcons⟩ | ⟨rest, hcons⟩)
    all_goals
      cases hcons
      revert hc
      decide
  have hscan : scan true true false true (c :: w) =
      { scan false true false true w with token := c :: (scan false true false true w).token } := by
    obtain rfl | rfl := hc <;> exact scan_cons hword ..
  rw [hscan] at hnumber hrest
  have hrest' : (scan false true false true w).scaled.2 = [] :=
    (snd_scaled_token _ _).symm.trans hrest
  have hplain : ∀ d ∈ w.head?, isPlain d = true := isPlain_of_isNumber_scan hnumber
  have hsign : ∀ d ∈ w.head?, d ≠ '-' ∧ d ≠ '+' := fun d hd =>
    ⟨ne_of_isPlain (hplain d hd) (by decide), ne_of_isPlain (hplain d hd) (by decide)⟩
  have hspaces := dropWhile_of_head fun d hd => isSpace_of_isPlain (hplain d hd)
  rw [← scan_true_eq_scan_false hsign] at hrest' hnumber
  unfold number?
  rw [hspaces]
  dsimp only
  rw [if_pos hnumber, hrest']
  cases Numeral.read? (scan true true false true w).scaled.1 with
  | some y => exact .inl ⟨y, rfl⟩
  | none => exact .inr ⟨_, rfl⟩

end Parser

end Abacus
