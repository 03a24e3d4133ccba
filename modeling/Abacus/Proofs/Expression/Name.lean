import Abacus.Calculation
import Abacus.Proofs.Decimal.Editing
import Mathlib.Data.List.TakeWhile

/-!
# Names as expressions

A name that stands alone is an expression, a variable of this name (`Expr.parse_name`), also if the
name means something in front of a bracket, or is an operator behind an operand.  The words for
numbers are tried before names, so this holds of names that do not begin with one of them
(`Parser.BeginsNumber`); and a name is not exempt from the limit on the length of a text.
-/

namespace Abacus

namespace Parser

/-! ### Combinators at a cursor -/

theorem bind_apply {α β : Type} (p : Parser α) (next : α → Parser β) (c : Cursor) :
    (p >>= next) c = match p c with
      | .ok (a, c') => next a c'
      | .error e => .error e := rfl

@[simp] theorem pure_apply {α : Type} (a : α) (c : Cursor) :
    (pure a : Parser α) c = .ok (a, c) := rfl

@[simp] theorem rest_apply (c : Cursor) : rest c = .ok (c.rest, c) := rfl

@[simp] theorem goTo_apply (after : List Char) (c : Cursor) :
    goTo after c = .ok ((), { c with rest := after }) := rfl

@[simp] theorem spaces_apply (c : Cursor) :
    spaces c = .ok ((), { c with rest := c.rest.dropWhile isSpace }) := rfl

/-! ### The first character of a name -/

theorem ne_of_beginsName {c d : Char} (hc : Text.beginsName c = true)
    (hd : Text.beginsName d = false) : c ≠ d := by
  rintro rfl
  rw [hc] at hd
  cases hd

theorem isSpace_of_beginsName {c : Char} (h : Text.beginsName c = true) : isSpace c = false := by
  have hne : ∀ {d : Char}, Text.beginsName d = false → (c == d) = false := fun hd =>
    beq_false_of_ne (ne_of_beginsName h hd)
  unfold isSpace
  rw [hne (by decide), hne (by decide), hne (by decide), hne (by decide)]
  rfl

theorem closerOf?_of_beginsName {c : Char} (h : Text.beginsName c = true) :
    closerOf? c = none := by
  unfold closerOf?
  split
  · exact absurd h (by decide)
  · exact absurd h (by decide)
  · rfl

theorem isDigit_of_beginsName {c : Char} (h : Text.beginsName c = true) : c.isDigit = false := by
  cases hdigit : c.isDigit with
  | false => rfl
  | true =>
    simp only [Text.beginsName, Figures.isAlpha_of_isDigit hdigit, Bool.false_or, beq_iff_eq] at h
    subst h
    exact absurd hdigit (by decide)

/-! ### Numbers before names -/

/-- A text begins with a word for a number. -/
def BeginsNumber (cs : List Char) : Prop :=
  "NaN".toList <+: cs ∨ "inf".toList <+: cs

theorem isNumber_scan {c : Char} {cs : List Char} (hc : Text.beginsName c = true)
    (hword : ¬ BeginsNumber (c :: cs)) : (scan true true false true (c :: cs)).isNumber = false := by
  have hdigit := isDigit_of_beginsName hc
  have hne : ∀ {d : Char}, Text.beginsName d = false → (c == d) = false := fun hd =>
    beq_false_of_ne (ne_of_beginsName hc hd)
  unfold scan
  split
  · next rest h => exact absurd (.inl ⟨rest, h.symm⟩) hword
  · next rest h => exact absurd (.inr ⟨rest, h.symm⟩) hword
  · next h =>
    cases h
    simp [hdigit, hne (d := '.') (by decide), hne (d := '-') (by decide), hne (d := '+') (by decide)]
  · next h => cases h

theorem number?_of_name {c : Char} {cs : List Char} (hc : Text.beginsName c = true)
    (hword : ¬ BeginsNumber (c :: cs)) (es os : Nat) :
    number? ⟨c :: cs, es, os⟩ = .ok (none, ⟨c :: cs, es, os⟩) := by
  have hscan := isNumber_scan hc hword
  unfold number?
  simp only [List.dropWhile_cons, isSpace_of_beginsName hc, Bool.false_eq_true, if_false, hscan]

/-! ### A name that stands alone -/

variable (inner deeper : Parser Expr) (es os : Nat)

theorem spanName_append {c : Char} {cs after : List Char} (hc : Text.beginsName c = true)
    (hcs : cs.all Text.inName = true) (hafter : ∀ d ∈ after.head?, Text.inName d = false) :
    Text.spanName (c :: cs ++ after) = (c :: cs, after) := by
  have hmem := List.all_eq_true.1 hcs
  have hcut : after.takeWhile Text.inName = [] ∧ after.dropWhile Text.inName = after := by
    cases after with
    | nil => exact ⟨rfl, rfl⟩
    | cons d after =>
      have hd : ¬ Text.inName d = true := Bool.eq_false_iff.1 (hafter d rfl)
      exact ⟨List.takeWhile_cons_of_neg hd, List.dropWhile_cons_of_neg hd⟩
  rw [List.cons_append, Text.spanName, if_pos hc, List.takeWhile_append_of_pos hmem,
    List.dropWhile_append_of_pos hmem, hcut.1, hcut.2, List.append_nil]

/-- A name with no bracket behind it is a variable. -/
theorem callable_of_closerOf?_eq_none {cs name after : List Char}
    (hspan : Text.spanName cs = (name, after))
    (hafter : ∀ c ∈ (after.dropWhile isSpace).head?, closerOf? c = none) :
    callable inner deeper ⟨cs, es, os⟩ =
      .ok (.call (.ofList name) [], ⟨after.dropWhile isSpace, es, os⟩) := by
  unfold callable
  simp only [bind_apply, rest_apply, hspan, goTo_apply, spaces_apply]
  cases h : after.dropWhile isSpace with
  | nil => rfl
  | cons c after' => simp only [hafter c (by rw [h]; rfl), pure_apply]

/-- An operand that begins neither with an operator nor with a bracket is a name. -/
theorem compound_cons {c : Char} {cs : List Char} (hspace : isSpace c = false)
    (hoperator : c ∉ ['+', '-', '!']) (hcloser : closerOf? c = none) :
    compound inner deeper ⟨c :: cs, es, os⟩ =
      (if Text.beginsName c then callable inner deeper else fail .invalidValue)
        ⟨c :: cs, es, os⟩ := by
  unfold compound
  simp only [bind_apply, spaces_apply, List.dropWhile_cons, hspace, Bool.false_eq_true, if_false,
    rest_apply]
  -- what is left of the text decides on a parser, which goes on from the same cursor
  apply congrFun
  split
  · next h => cases h
  · next h => cases h; exact absurd (by simp) hoperator
  · next h => cases h; exact absurd (by simp) hoperator
  · next h => cases h; exact absurd (by simp) hoperator
  · next h =>
    cases h
    rw [hcloser]

theorem compound_of_beginsName {c : Char} {cs : List Char} (hc : Text.beginsName c = true) :
    compound inner deeper ⟨c :: cs, es, os⟩ = callable inner deeper ⟨c :: cs, es, os⟩ := by
  have hoperator : c ∉ ['+', '-', '!'] := by
    simp [ne_of_beginsName hc (d := '+') (by decide), ne_of_beginsName hc (d := '-') (by decide),
      ne_of_beginsName hc (d := '!') (by decide)]
  rw [compound_cons inner deeper es os (isSpace_of_beginsName hc) hoperator
    (closerOf?_of_beginsName hc), if_pos hc]

theorem operandWith_of_name {c : Char} {cs : List Char} (hc : Text.beginsName c = true)
    (hcs : cs.all Text.inName = true) (hword : ¬ BeginsNumber (c :: cs)) :
    operandWith inner deeper ⟨c :: cs, es, os⟩ =
      .ok (.call (.ofList (c :: cs)) [], ⟨[], es, os⟩) := by
  have hspan : Text.spanName (c :: cs ++ []) = (c :: cs, []) := spanName_append hc hcs (by simp)
  rw [List.append_nil] at hspan
  unfold operandWith
  simp only [bind_apply, number?_of_name hc hword]
  rw [compound_of_beginsName inner deeper es os hc,
    callable_of_closerOf?_eq_none inner deeper es os hspan (by simp)]
  rfl

end Parser

/-- **A name that stands alone is a variable.** -/
theorem Expr.parse_name {name : String} (hname : Text.isName name.toList = true)
    (hword : ¬ Parser.BeginsNumber name.toList) (hlength : name.utf8ByteSize ≤ Parser.maxLength) :
    Expr.parse name = .ok (.call name []) := by
  unfold Expr.parse
  rw [if_neg (Nat.not_lt.2 hlength)]
  cases hchars : name.toList with
  | nil =>
    rw [hchars] at hname
    cases hname
  | cons c cs =>
    rw [hchars] at hname hword
    obtain ⟨hc, hcs⟩ := Bool.and_eq_true_iff.1 hname
    have hoperand : Parser.operand Parser.maxDepth ⟨c :: cs, 64, 64⟩ =
        .ok (.call (.ofList (c :: cs)) [], ⟨[], 64, 64⟩) :=
      Parser.operandWith_of_name _ _ 64 64 hc hcs hword
    have hofList : String.ofList (c :: cs) = name := by rw [← hchars, String.ofList_toList]
    rw [hofList] at hoperand
    unfold Parser.whole
    simp only [Parser.bind_apply, hoperand]
    rfl

end Abacus
