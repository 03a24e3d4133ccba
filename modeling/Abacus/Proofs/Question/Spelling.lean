import Abacus.Proofs.Expression.Literal
import Abacus.Question

/-!
# Spelling out root signs

A text without root signs is its own spelling (`Root.spellOut_of_notMem`).  Behind a root sign the
text is cut where an operand ends: the operand is digits with a point and digits, or digits, or a name
(`Root.operandLength_cases`), and it stands in brackets behind `sqrt`.  Root signs that follow one
another are spelled `sqrt` each, so `Root.spellCall` keeps the name of what is called as a parameter,
and one more root sign makes the name longer (`Root.spellCall_root`).
-/

namespace Abacus

namespace Root

open Abacus.Parser

/-! ### Spelling out -/

/-- `sqrt`, written `k + 1` times. -/
def sqrts (k : Nat) : List Char :=
  (List.replicate (k + 1) "sqrt".toList).flatten

/-- A text behind a root sign and some blanks, spelled out with a name in place of `sqrt`. -/
def spellCall (name blanks p : List Char) : List Char :=
  let n := operandLength p
  if n = 0 then name ++ (blanks ++ spellOut p)
  else name ++ '(' :: (p.take n ++ ')' :: spellOut (p.drop n))

theorem spellOut_cons {c : Char} (hc : c ≠ '√') (cs : List Char) :
    spellOut (c :: cs) = c :: spellOut cs := by
  rw [spellOut]
  exact hc

theorem spellOut_append {cs : List Char} (h : '√' ∉ cs) (ds : List Char) :
    spellOut (cs ++ ds) = cs ++ spellOut ds := by
  induction cs with
  | nil => rfl
  | cons c cs ih =>
    obtain ⟨hc, hcs⟩ : '√' ≠ c ∧ '√' ∉ cs := by simpa using h
    rw [List.cons_append, spellOut_cons (Ne.symm hc), ih hcs, List.cons_append]

theorem spellOut_of_notMem {cs : List Char} (h : '√' ∉ cs) : spellOut cs = cs := by
  have happend := spellOut_append h []
  rwa [spellOut, List.append_nil] at happend

theorem root_notMem_of_isBlank {blanks : List Char} (h : blanks.all Text.isBlank = true) :
    '√' ∉ blanks :=
  Text.notMem_of_isBlank (by decide) h

theorem spellOut_root {blanks p : List Char} (hblanks : blanks.all Text.isBlank = true)
    (hp : Text.HeadUnblank p) : spellOut ('√' :: (blanks ++ p)) = spellCall (sqrts 0) blanks p := by
  have hafter : (blanks ++ p).dropWhile Text.isBlank = p := by
    rw [List.dropWhile_append_of_pos (List.all_eq_true.1 hblanks)]
    cases p with
    | nil => rfl
    | cons c cs => exact List.dropWhile_cons_of_neg (by simp [hp c rfl])
  rw [spellOut]
  simp only [hafter, spellOut_append (root_notMem_of_isBlank hblanks)]
  rfl

theorem sqrts_append_sqrts (k : Nat) : sqrts k ++ sqrts 0 = sqrts (k + 1) := by
  unfold sqrts
  rw [List.replicate_succ' (n := k + 1), List.flatten_concat]
  rfl

theorem operandLength_root (p : List Char) : operandLength ('√' :: p) = 0 := rfl

theorem spellCall_root {blanks p : List Char} (hblanks : blanks.all Text.isBlank = true)
    (hp : Text.HeadUnblank p) (k : Nat) :
    spellCall (sqrts k) [] ('√' :: (blanks ++ p)) = spellCall (sqrts (k + 1)) blanks p := by
  rw [spellCall, if_pos (operandLength_root _), spellOut_root hblanks hp, List.nil_append]
  unfold spellCall
  dsimp only
  split_ifs
  · rw [← List.append_assoc, sqrts_append_sqrts]
  · rw [← List.append_assoc, sqrts_append_sqrts]

/-! ### The length of an operand -/

theorem take_drop_of_append {p first last : List Char} (h : first ++ last = p) :
    p.take first.length = first ∧ p.drop first.length = last := by
  subst h
  exact ⟨List.take_left' rfl, List.drop_left' rfl⟩

theorem drop_digits (p : List Char) :
    p.drop (p.takeWhile Char.isDigit).length = p.dropWhile Char.isDigit :=
  (take_drop_of_append List.takeWhile_append_dropWhile).2

theorem spanName_append_self (cs : List Char) :
    (Text.spanName cs).1 ++ (Text.spanName cs).2 = cs := by
  fun_cases Text.spanName cs with
  | case1 => rfl
  | case2 c rest hc => rw [List.cons_append, List.takeWhile_append_dropWhile]
  | case3 => rfl

/-- What the length of an operand cuts off: digits with a point and more digits, or digits, or else
a name. -/
theorem operandLength_cases (p : List Char) : ∃ first last, first ++ last = p ∧
    operandLength p = first.length ∧
    ((∃ r, p.dropWhile Char.isDigit = '.' :: r ∧ r.takeWhile Char.isDigit ≠ [] ∧
        first = p.takeWhile Char.isDigit ++ '.' :: r.takeWhile Char.isDigit ∧
        last = r.dropWhile Char.isDigit) ∨
      (p.takeWhile Char.isDigit ≠ [] ∧ first = p.takeWhile Char.isDigit ∧
        last = p.dropWhile Char.isDigit) ∨
      (p.takeWhile Char.isDigit = [] ∧ first = (Text.spanName p).1 ∧
        last = (Text.spanName p).2)) := by
  by_cases hpoint : ∃ r, p.dropWhile Char.isDigit = '.' :: r ∧ r.takeWhile Char.isDigit ≠ []
  · obtain ⟨r, hr, hne⟩ := hpoint
    refine ⟨p.takeWhile Char.isDigit ++ '.' :: r.takeWhile Char.isDigit, r.dropWhile Char.isDigit,
      ?_, ?_, .inl ⟨r, hr, hne, rfl, rfl⟩⟩
    · rw [List.append_assoc, List.cons_append, List.takeWhile_append_dropWhile, ← hr,
        List.takeWhile_append_dropWhile]
    · simp only [operandLength, drop_digits, hr, if_pos (List.length_pos_iff.2 hne),
        List.length_append, List.length_cons]
      omega
  · have hlength : operandLength p =
        if p.takeWhile Char.isDigit = [] then nameLength p
        else (p.takeWhile Char.isDigit).length := by
      simp only [operandLength, drop_digits]
      rw [if_neg]
      · simp only [List.length_pos_iff, ne_eq, ite_not]
      · split
        · next r hr =>
          have hnone : r.takeWhile Char.isDigit = [] := by simpa using mt (⟨r, hr, ·⟩) hpoint
          rw [hnone]
          exact Nat.lt_irrefl 0
        · exact Nat.lt_irrefl 0
    by_cases hdigits : p.takeWhile Char.isDigit = []
    · rw [if_pos hdigits] at hlength
      exact ⟨_, _, spanName_append_self p, hlength, .inr (.inr ⟨hdigits, rfl, rfl⟩)⟩
    · rw [if_neg hdigits] at hlength
      exact ⟨_, _, List.takeWhile_append_dropWhile, hlength, .inr (.inl ⟨hdigits, rfl, rfl⟩)⟩

theorem operandLength_le (p : List Char) : operandLength p ≤ p.length := by
  obtain ⟨first, last, rfl, hlength, -⟩ := operandLength_cases p
  rw [hlength, List.length_append]
  exact Nat.le_add_right ..

theorem forall_isDigit_takeWhile (cs : List Char) :
    ∀ c ∈ cs.takeWhile Char.isDigit, c.isDigit = true :=
  List.all_eq_true.1 List.all_takeWhile

/-- What is cut off is plain. -/
theorem plain_take_operandLength (p : List Char) : Plain (p.take (operandLength p)) := by
  have hdigits : ∀ cs : List Char, Plain (cs.takeWhile Char.isDigit) := fun cs c hc =>
    isPlain_of_isDigit (forall_isDigit_takeWhile cs c hc)
  obtain ⟨first, last, happend, hlength, hcases⟩ := operandLength_cases p
  rw [hlength, (take_drop_of_append happend).1]
  obtain ⟨r, -, -, rfl, -⟩ | ⟨-, rfl, -⟩ | ⟨-, rfl, -⟩ := hcases
  · exact List.forall_mem_append.2 ⟨hdigits p, List.forall_mem_cons.2 ⟨rfl, hdigits r⟩⟩
  · exact hdigits p
  · have hname : ∀ c ∈ (Text.spanName p).1, Text.inName c = true := by
      fun_cases Text.spanName p with
      | case1 | case3 => simp
      | case2 c rest hc =>
        exact List.forall_mem_cons.2
          ⟨Text.inName_of_beginsName hc, List.all_eq_true.1 List.all_takeWhile⟩
    intro c hc
    simp [isPlain, hname c hc]

/-- A name is cut off whole. -/
theorem operandLength_of_isName {name after : List Char} (hname : Text.isName name = true)
    (hafter : ∀ c ∈ after.head?, Text.inName c = false) :
    operandLength (name ++ after) = name.length := by
  cases name with
  | nil => cases hname
  | cons c cs =>
    obtain ⟨hc, hcs⟩ := Bool.and_eq_true_iff.1 hname
    have hdigit : ¬ c.isDigit = true := by simp [isDigit_of_beginsName hc]
    obtain ⟨first, last, -, hlength, hcases⟩ := operandLength_cases (c :: cs ++ after)
    rw [hlength]
    obtain ⟨r, hr, -⟩ | ⟨hne, -⟩ | ⟨-, rfl, -⟩ := hcases
    · rw [List.cons_append, List.dropWhile_cons_of_neg hdigit] at hr
      exact absurd (List.cons.inj hr).1 (ne_of_beginsName hc (by decide))
    · exact absurd (List.takeWhile_cons_of_neg hdigit) hne
    · rw [spanName_append hc hcs hafter]

/-- A text that begins with something else than a digit, a point or a name. -/
theorem operandLength_eq_zero {c : Char} (hc : isPlain c = false) (cs : List Char) :
    operandLength (c :: cs) = 0 := by
  have hdigit : ¬ c.isDigit = true := fun h => by rw [isPlain_of_isDigit h] at hc; cases hc
  have hname : ¬ Text.beginsName c = true := fun h => by
    rw [isPlain, Text.inName_of_beginsName h] at hc
    cases hc
  obtain ⟨first, last, -, hlength, hcases⟩ := operandLength_cases (c :: cs)
  rw [hlength]
  obtain ⟨r, hr, -⟩ | ⟨hne, -⟩ | ⟨-, rfl, -⟩ := hcases
  · rw [List.dropWhile_cons_of_neg hdigit] at hr
    rw [(List.cons.inj hr).1] at hc
    cases hc
  · exact absurd (List.takeWhile_cons_of_neg hdigit) hne
  · rw [Text.spanName, if_neg hname]
    rfl

/-! ### Literals behind a root sign -/

/-- A number that begins with a digit or a point: what is left of it when its digits are cut off
begins with a point, an exponent or a scale, and only before a point there may be no digits. -/
theorem mem_drop_operandLength {c : Char} {cs : List Char} (h : IsLiteral (c :: cs))
    (hc : c.isDigit = true ∨ c = '.') :
    (operandLength (c :: cs) = 0 ∧ c = '.') ∨ (operandLength (c :: cs) ≠ 0 ∧
      ∀ d ∈ ((c :: cs).drop (operandLength (c :: cs))).head?, d ∈ ".eEkKMGTmuµnp".toList) := by
  obtain ⟨-, hrest⟩ := h.scan_eq
  have hword := not_beginsNumber_of_digit hc cs
  -- a number that begins with a digit or a point is scanned as behind a digit
  have hdigits : (scan false false true true (c :: cs)).scaled.2 = [] := by
    rw [← hrest, scan_of_digit hc hword, scan_of_digit hc hword]
  obtain ⟨first, last, happend, hlength, hcases⟩ := operandLength_cases (c :: cs)
  rw [hlength, (take_drop_of_append happend).2]
  obtain ⟨r, hr, -, rfl, rfl⟩ | ⟨hne, rfl, rfl⟩ | ⟨hnone, rfl, rfl⟩ := hcases
  · rw [← snd_scaled_scan_dropWhile, hr, scan_of_digit (.inr rfl)
      (not_beginsNumber_of_digit (.inr rfl) r)] at hdigits
    exact .inr ⟨by simp, mem_of_snd_scaled_scan ((snd_scaled_token _ _).symm.trans hdigits)⟩
  · exact .inr ⟨by simpa using hne, mem_of_snd_scaled_scan hdigits⟩
  · obtain hdigit | rfl := hc
    · rw [List.takeWhile_cons_of_pos hdigit] at hnone
      cases hnone
    · exact .inl ⟨rfl, rfl⟩

end Root

end Abacus
