import Abacus.Proofs.Expression.Name
import Mathlib.Data.Bool.AllAny

/-!
# Plain texts as arguments

A plain text has letters, digits, underscores and points only (`Parser.Plain`).  It holds no
bracket, so no parser goes down a level in it, and a closing bracket behind it belongs to nothing in
it.  Hence it is read as the argument of a call just as it is read alone
(`Parser.Plain.expression_cases`): the parsers on all levels make the same of it, and stop at the
same place.

`Parser.ReadsAlike` is this independence, for a family of parsers.  It is closed under sequencing
(`Parser.ReadsAlike.bind`), which carries the induction over the operands.
-/

namespace Abacus

namespace Parser

/-! ### What closes a text -/

/-- What may follow a plain text: nothing, or a closing bracket. -/
def Closing (t : List Char) : Prop :=
  ∀ c ∈ t.head?, c = ')'

theorem closing_nil : Closing [] := by
  intro c hc
  cases hc

theorem closing_cons (t : List Char) : Closing (')' :: t) := by
  rintro c ⟨rfl⟩
  rfl

theorem Closing.eq_nil_or_cons {t : List Char} (h : Closing t) : t = [] ∨ ∃ r, t = ')' :: r := by
  cases t with
  | nil => exact .inl rfl
  | cons c r => exact .inr ⟨r, by rw [h c rfl]⟩

theorem Closing.dropWhile {t : List Char} (h : Closing t) : t.dropWhile isSpace = t := by
  obtain rfl | ⟨r, rfl⟩ := h.eq_nil_or_cons
  · rfl
  · exact List.dropWhile_cons_of_neg (by decide)

/-- A word does not reach into a text that begins with none of its characters. -/
theorem prefix_append_iff {word t : List Char} (ht : ∀ c ∈ t.head?, c ∉ word) {cs : List Char} :
    word <+: cs ++ t ↔ word <+: cs := by
  refine ⟨fun hword => ?_, fun hword => hword.trans (List.prefix_append cs t)⟩
  induction word generalizing cs with
  | nil => exact List.nil_prefix
  | cons w word ih =>
    cases cs with
    | nil =>
      obtain ⟨rest, rfl⟩ := hword
      exact absurd List.mem_cons_self (ht w rfl)
    | cons c cs =>
      obtain ⟨rfl, htail⟩ := List.cons_prefix_cons.1 hword
      have htail' := ih (fun c hc hmem => ht c hc (List.mem_cons_of_mem w hmem)) htail
      exact List.cons_prefix_cons.2 ⟨rfl, htail'⟩

theorem beginsNumber_append_iff {t : List Char} (ht : ∀ c ∈ t.head?, Text.beginsName c = false)
    {cs : List Char} : BeginsNumber (cs ++ t) ↔ BeginsNumber cs := by
  have hnotMem : ∀ word : List Char, word.all Text.beginsName = true →
      ∀ c ∈ t.head?, c ∉ word := fun word hword c hc hmem => by
    have hbegins := List.all_eq_true.1 hword c hmem
    rw [ht c hc] at hbegins
    cases hbegins
  unfold BeginsNumber
  rw [prefix_append_iff (hnotMem _ (by decide)), prefix_append_iff (hnotMem _ (by decide))]

theorem Closing.prefix_append_iff {t : List Char} (h : Closing t) {word cs : List Char}
    (hword : ')' ∉ word) : word <+: cs ++ t ↔ word <+: cs :=
  Parser.prefix_append_iff fun c hc => h c hc ▸ hword

theorem Closing.beginsNumber_append_iff {t : List Char} (h : Closing t) {cs : List Char} :
    BeginsNumber (cs ++ t) ↔ BeginsNumber cs :=
  Parser.beginsNumber_append_iff fun c hc => by rw [h c hc]; rfl

/-! ### Scanning -/

/-- One step of a scan that does not begin with a word for a number. -/
theorem scan_cons {c : Char} {cs : List Char} (h : ¬ BeginsNumber (c :: cs))
    (sign word seen scale : Bool) : scan sign word seen scale (c :: cs) =
      let step (s : Scan) : Scan := { s with token := c :: s.token }
      if c.isDigit || c == '.' then step (scan false false true scale cs)
      else if sign && (c == '-' || c == '+') then step (scan false word seen scale cs)
      else if seen && (c == 'e' || c == 'E') then step (scan true word seen false cs)
      else ⟨[], seen, scale, c :: cs⟩ := by
  rw [scan]
  · rintro rest rfl rfl
    exact h (.inl ⟨rest, rfl⟩)
  · rintro rest rfl rfl
    exact h (.inr ⟨rest, rfl⟩)

theorem token_append_rest_scan (sign word seen scale : Bool) (cs : List Char) :
    (scan sign word seen scale cs).token ++ (scan sign word seen scale cs).rest = cs := by
  fun_induction scan sign word seen scale cs with
  | case1 | case2 | case3 | case4 | case8 | case9 => rfl
  | case5 _ _ _ _ c _ _ _ _ _ ih | case6 _ _ _ _ c _ _ _ _ _ _ ih
  | case7 _ _ _ _ c _ _ _ _ _ _ _ ih => exact congrArg (c :: ·) ih

/-- A scan does not depend on what closes the text. -/
theorem Closing.scan_append {t : List Char} (h : Closing t) (sign word seen scale : Bool)
    (cs : List Char) : scan sign word seen scale (cs ++ t) =
      { scan sign word seen scale cs with rest := (scan sign word seen scale cs).rest ++ t } := by
  induction cs generalizing sign word seen scale with
  | nil =>
    obtain rfl | ⟨r, rfl⟩ := h.eq_nil_or_cons
    · simp [scan]
    · rw [List.nil_append, scan_cons]
      · simp [scan]
      · simp [BeginsNumber]
  | cons c cs ih =>
    by_cases hword : BeginsNumber (c :: cs)
    · obtain ⟨rest, hrest⟩ | ⟨rest, hrest⟩ := hword
      all_goals
        rw [← hrest]
        cases word <;> simp [scan]
    · rw [List.cons_append, scan_cons, scan_cons hword]
      · simp only [ih]
        split_ifs <;> rfl
      · rwa [← List.cons_append, h.beginsNumber_append_iff]

theorem Closing.scaled_append {t : List Char} (h : Closing t) (s : Scan) :
    Scan.scaled { s with rest := s.rest ++ t } = (s.scaled.1, s.scaled.2 ++ t) := by
  obtain ⟨token, isNumber, allowsScale, rest⟩ := s
  cases rest with
  | nil =>
    obtain rfl | ⟨r, rfl⟩ := h.eq_nil_or_cons
    · rfl
    · cases allowsScale <;> rfl
  | cons c rest =>
    unfold Scan.scaled
    simp only [List.cons_append]
    split <;> rfl

/-! ### Plain texts -/

/-- A character of names and numbers. -/
def isPlain (c : Char) : Bool :=
  Text.inName c || c == '.'

/-- A text of names and numbers without signs. -/
def Plain (cs : List Char) : Prop :=
  ∀ c ∈ cs, isPlain c = true

theorem ne_of_isPlain {c d : Char} (hc : isPlain c = true) (hd : isPlain d = false) : c ≠ d := by
  rintro rfl
  rw [hc] at hd
  cases hd

theorem notMem_of_isPlain {c : Char} {cs : List Char} (hc : isPlain c = true)
    (hcs : cs.any isPlain = false) : c ∉ cs :=
  fun hmem => List.any_eq_false.1 hcs c hmem hc

theorem isSpace_of_isPlain {c : Char} (h : isPlain c = true) : isSpace c = false := by
  have hmem : c ∉ [' ', '\t', '\n', '\r'] := notMem_of_isPlain h (by decide)
  simpa [isSpace, and_assoc] using hmem

theorem closerOf?_of_isPlain {c : Char} (h : isPlain c = true) : closerOf? c = none := by
  fun_cases closerOf? c with
  | case1 | case2 => exact absurd h (by decide)
  | case3 => rfl

theorem Plain.suffix {cs rest : List Char} (h : Plain cs) (hsuffix : rest <:+ cs) : Plain rest :=
  fun c hc => h c (hsuffix.subset hc)

theorem Plain.dropWhile_append {cs t : List Char} (h : Plain cs) (ht : Closing t) :
    (cs ++ t).dropWhile isSpace = cs ++ t := by
  cases cs with
  | nil => exact ht.dropWhile
  | cons c cs =>
    exact List.dropWhile_cons_of_neg (by simp [isSpace_of_isPlain (h c List.mem_cons_self)])

/-! ### Operators -/

/-- Only two operators are words. -/
theorem operator?_eq {cs : List Char} (h : ∀ c ∈ cs.head?, c ∉ "+-*/%^<>=!|&".toList) :
    operator? cs =
      if "or".toList <+: cs then some (.or, cs.drop 2)
      else if "and".toList <+: cs then some (.and, cs.drop 3)
      else none := by
  fun_cases operator? cs with
  | case13 rest | case15 rest => simp
  | case17 _ _ _ _ _ _ _ _ _ _ _ _ _ hor _ hand _ =>
    rw [if_neg, if_neg]
    · rintro ⟨rest, rfl⟩
      exact hand rest rfl
    · rintro ⟨rest, rfl⟩
      exact hor rest rfl
  | _ => exact absurd (h _ rfl) (by decide)

theorem operator?_eq_none {c : Char} (hc : c ∉ "+-*/%^<>=!|&oa".toList) (cs : List Char) :
    operator? (c :: cs) = none := by
  have hword : ∀ {word : List Char}, (∃ d ∈ word.head?, d ∈ "+-*/%^<>=!|&oa".toList) →
      ¬ word <+: c :: cs := by
    rintro word ⟨d, hd, hmem⟩ ⟨rest, hrest⟩
    cases word with
    | nil => cases hd
    | cons w word =>
      cases hd
      cases hrest
      exact hc hmem
  have hsymbols : ∀ d ∈ "+-*/%^<>=!|&".toList, d ∈ "+-*/%^<>=!|&oa".toList :=
    List.all_iff_forall_prop.1 (by decide)
  rw [operator?_eq, if_neg (hword ⟨'o', rfl, by decide⟩), if_neg (hword ⟨'a', rfl, by decide⟩)]
  rintro d ⟨rfl⟩
  exact mt (hsymbols c) hc

theorem Plain.operator?_eq {cs : List Char} (h : Plain cs) :
    operator? cs =
      if "or".toList <+: cs then some (.or, cs.drop 2)
      else if "and".toList <+: cs then some (.and, cs.drop 3)
      else none :=
  Parser.operator?_eq fun c hc => notMem_of_isPlain (h c (List.mem_of_mem_head? hc)) (by decide)

theorem Plain.of_operator?_eq_some {cs after : List Char} {op : Binary} (h : Plain cs)
    (hoperator : operator? cs = some (op, after)) : after <:+ cs ∧ after.length < cs.length := by
  rw [h.operator?_eq] at hoperator
  split_ifs at hoperator with hor hand
  · cases hoperator
    have hlength : 2 ≤ cs.length := hor.length_le
    exact ⟨List.drop_suffix 2 cs, by rw [List.length_drop]; omega⟩
  · cases hoperator
    have hlength : 3 ≤ cs.length := hand.length_le
    exact ⟨List.drop_suffix 3 cs, by rw [List.length_drop]; omega⟩

theorem Plain.operator?_append {cs t : List Char} (h : Plain cs) (ht : Closing t) :
    operator? (cs ++ t) = (operator? cs).map fun x => (x.1, x.2 ++ t) := by
  have hhead : ∀ c ∈ (cs ++ t).head?, c ∉ "+-*/%^<>=!|&".toList := by
    cases cs with
    | nil =>
      intro c hc
      rw [ht c hc]
      decide
    | cons c cs =>
      rintro d ⟨rfl⟩
      exact notMem_of_isPlain (h c List.mem_cons_self) (by decide)
  have hor : ')' ∉ "or".toList := by decide
  have hand : ')' ∉ "and".toList := by decide
  rw [h.operator?_eq, Parser.operator?_eq hhead]
  simp only [ht.prefix_append_iff hor, ht.prefix_append_iff hand]
  split_ifs with hor hand
  · rw [List.drop_append_of_le_length (i := 2) hor.length_le]
    rfl
  · rw [List.drop_append_of_le_length (i := 3) hand.length_le]
    rfl
  · rfl

/-! ### Families of parsers -/

theorem eq_ok_of_toOption {α : Type} {x : Except ParseError α} {a : α}
    (h : x.toOption = some a) : x = .ok a := by
  cases x with
  | error e => cases h
  | ok b =>
    cases h
    rfl

theorem eq_error_of_toOption {α : Type} {x : Except ParseError α} (h : x.toOption = none) :
    ∃ e, x = .error e := by
  cases x with
  | error e => exact ⟨e, rfl⟩
  | ok b => cases h

variable {ι α β : Type}

theorem toOption_bind (p : Parser α) (next : α → Parser β) (c : Cursor) :
    ((p >>= next) c).toOption = (p c).toOption.bind fun x => (next x.1 x.2).toOption := by
  rw [bind_apply]
  cases p c <;> rfl

/-- The parsers of a family make the same of a text, whatever closes the text and however much room
is left, as long as there is room for `n` subexpressions. -/
def ReadsAlike (n : Nat) (parsers : ι → Parser α) (cs : List Char) : Prop :=
  ∃ outcome : Option (α × List Char), (∀ x ∈ outcome, x.2 <:+ cs) ∧
    ∀ j t, Closing t → ∀ es os, (parsers j ⟨cs ++ t, es + n, os⟩).toOption =
      outcome.map fun x => (x.1, ⟨x.2 ++ t, es, os⟩)

theorem ReadsAlike.bind {n : Nat} {p : ι → Parser α} {next : ι → α → Parser β} {cs : List Char}
    (hp : ReadsAlike 0 p cs)
    (hnext : ∀ a rest, rest <:+ cs → ReadsAlike n (fun j => next j a) rest) :
    ReadsAlike n (fun j => p j >>= next j) cs := by
  obtain ⟨outcome, hsuffix, hreads⟩ := hp
  cases outcome with
  | none =>
    refine ⟨none, fun x hx => absurd hx (by simp), fun j t ht es os => ?_⟩
    have hj := hreads j t ht (es + n) os
    simp only [toOption_bind, Nat.add_zero] at hj ⊢
    rw [hj]
    rfl
  | some x =>
    obtain ⟨a, rest⟩ := x
    obtain ⟨outcome', hsuffix', hreads'⟩ := hnext a rest (hsuffix _ rfl)
    refine ⟨outcome', fun x hx => (hsuffix' x hx).trans (hsuffix _ rfl), fun j t ht es os => ?_⟩
    have hj := hreads j t ht (es + n) os
    simp only [toOption_bind, Nat.add_zero] at hj ⊢
    rw [hj]
    exact hreads' j t ht es os

theorem readsAlike_pure (a : α) (cs : List Char) : ReadsAlike 0 (fun _ : ι => pure a) cs :=
  ⟨some (a, cs), fun x hx => by cases hx; exact List.suffix_rfl, fun _ _ _ _ _ => rfl⟩

theorem readsAlike_fail {p : ι → Parser α} {cs : List Char}
    (h : ∀ j t, Closing t → ∀ es os, ∃ e, p j ⟨cs ++ t, es, os⟩ = .error e) :
    ReadsAlike 0 p cs := by
  refine ⟨none, fun x hx => absurd hx (by simp), fun j t ht es os => ?_⟩
  obtain ⟨e, he⟩ := h j t ht es os
  rw [Nat.add_zero, he]
  rfl

theorem readsAlike_ok {p : ι → Parser α} {cs : List Char} {a : α} {rest : List Char}
    (hsuffix : rest <:+ cs)
    (h : ∀ j t, Closing t → ∀ es os, p j ⟨cs ++ t, es, os⟩ = .ok (a, ⟨rest ++ t, es, os⟩)) :
    ReadsAlike 0 p cs := by
  refine ⟨some (a, rest), fun x hx => by cases hx; exact hsuffix, fun j t ht es os => ?_⟩
  rw [Nat.add_zero, h j t ht es os]
  rfl

theorem ReadsAlike.of_apply_eq {n : Nat} {p q : ι → Parser α} {cs after : List Char}
    (hp : ReadsAlike n p after) (hsuffix : after <:+ cs)
    (h : ∀ j t, Closing t → ∀ es os, q j ⟨cs ++ t, es, os⟩ = p j ⟨after ++ t, es, os⟩) :
    ReadsAlike n q cs := by
  obtain ⟨outcome, hsuffix', hreads⟩ := hp
  refine ⟨outcome, fun x hx => (hsuffix' x hx).trans hsuffix, fun j t ht es os => ?_⟩
  rw [h j t ht, hreads j t ht]

/-! ### Operands -/

theorem suffix_scaled (s : Scan) : s.scaled.2 <:+ s.rest := by
  fun_cases Scan.scaled s with
  | case1 c rest h =>
    rw [h]
    exact List.suffix_cons c rest
  | case2 => exact List.suffix_rfl
  | case3 h => exact h.symm ▸ List.suffix_rfl

variable {cs : List Char}

theorem Plain.readsAlike_number? (h : Plain cs) : ReadsAlike 0 (fun _ : ι => number?) cs := by
  have hsuffix : (scan true true false true cs).scaled.2 <:+ cs :=
    (suffix_scaled _).trans ⟨_, token_append_rest_scan ..⟩
  cases hnumber : (scan true true false true cs).isNumber with
  | false =>
    refine readsAlike_ok (a := none) List.suffix_rfl fun _ t ht es os => ?_
    simp [number?, h.dropWhile_append ht, ht.scan_append, hnumber]
  | true =>
    cases hread : Numeral.read? (scan true true false true cs).scaled.1 with
    | none =>
      refine readsAlike_fail fun _ t ht es os =>
        ⟨.badNumber (.ofList (scan true true false true cs).scaled.1), ?_⟩
      unfold number?
      rw [h.dropWhile_append ht, ht.scan_append]
      simp only [ht.scaled_append]
      rw [if_pos hnumber, hread]
    | some x =>
      refine readsAlike_ok (a := some x) hsuffix fun _ t ht es os => ?_
      unfold number?
      rw [h.dropWhile_append ht, ht.scan_append]
      simp only [ht.scaled_append]
      rw [if_pos hnumber, hread]

variable (inner deeper : ι → Parser Expr)

theorem Plain.readsAlike_compound (h : Plain cs) :
    ReadsAlike 0 (fun j => compound (inner j) (deeper j)) cs := by
  cases cs with
  | nil =>
    refine readsAlike_fail fun j t ht es os => ?_
    obtain rfl | ⟨r, rfl⟩ := ht.eq_nil_or_cons
    · exact ⟨_, rfl⟩
    · exact ⟨_, rfl⟩
  | cons c cs =>
    have hc : isPlain c = true := h c List.mem_cons_self
    have hcs : Plain cs := h.suffix (List.suffix_cons c cs)
    have hcompound : ∀ j t es os, compound (inner j) (deeper j) ⟨c :: cs ++ t, es, os⟩ =
        (if Text.beginsName c then callable (inner j) (deeper j) else fail .invalidValue)
          ⟨c :: cs ++ t, es, os⟩ := fun j t es os =>
      compound_cons _ _ _ _ (isSpace_of_isPlain hc) (notMem_of_isPlain hc (by decide))
        (closerOf?_of_isPlain hc)
    cases hname : Text.beginsName c with
    | false =>
      exact readsAlike_fail fun j t _ es os => ⟨.invalidValue, by rw [hcompound, hname]; rfl⟩
    | true =>
      -- no bracket follows the name: it ends with the text or at a point
      have hrest : Plain (cs.dropWhile Text.inName) := hcs.suffix (List.dropWhile_suffix _)
      have hhead : ∀ t, Closing t → ∀ d ∈ (cs.dropWhile Text.inName ++ t).head?,
          Text.inName d = false ∧ closerOf? d = none := by
        intro t ht d hd
        cases hcut : cs.dropWhile Text.inName with
        | nil =>
          rw [hcut] at hd
          rw [ht d hd]
          exact ⟨rfl, rfl⟩
        | cons e es =>
          have hstop := List.head?_dropWhile_not Text.inName cs
          rw [hcut] at hd hstop hrest
          cases hd
          exact ⟨by simpa using hstop, closerOf?_of_isPlain (hrest d List.mem_cons_self)⟩
      refine readsAlike_ok (a := .call (.ofList (c :: cs.takeWhile Text.inName)) [])
        ((List.dropWhile_suffix Text.inName).trans (List.suffix_cons c cs)) fun j t ht es os => ?_
      have hsplit : c :: cs ++ t =
          c :: cs.takeWhile Text.inName ++ (cs.dropWhile Text.inName ++ t) := by
        rw [List.cons_append, List.cons_append, ← List.append_assoc,
          List.takeWhile_append_dropWhile]
      have hspan : Text.spanName
          (c :: cs.takeWhile Text.inName ++ (cs.dropWhile Text.inName ++ t)) = _ :=
        spanName_append hname List.all_takeWhile fun d hd => (hhead t ht d hd).1
      have hspaces := hrest.dropWhile_append ht
      rw [hcompound, hname, if_pos rfl, hsplit, callable_of_closerOf?_eq_none _ _ _ _ hspan]
      all_goals rw [hspaces]
      exact fun d hd => (hhead t ht d hd).2

theorem Plain.readsAlike_operandWith (h : Plain cs) :
    ReadsAlike 0 (fun j => operandWith (inner j) (deeper j)) cs := by
  refine h.readsAlike_number?.bind fun x rest hsuffix => ?_
  cases x with
  | some x => exact readsAlike_pure (Expr.number x) rest
  | none => exact (h.suffix hsuffix).readsAlike_compound inner deeper

/-! ### Chains of operands -/

theorem operands_succ (cs : List Char) (operand : Parser Expr) (fuel es os : Nat) :
    operands operand (fuel + 1) ⟨cs, es, os⟩ =
      match operator? (cs.dropWhile isSpace) with
      | none => .ok ([], ⟨cs.dropWhile isSpace, es, os⟩)
      | some (op, after) => (do
          let e ← operand
          let others ← operands operand fuel
          return (op, e) :: others : Parser (List (Binary × Expr))) ⟨after, es, os⟩ := by
  rw [operands]
  simp only [bind_apply, spaces_apply, rest_apply]
  cases operator? (cs.dropWhile isSpace) <;> rfl

theorem Plain.readsAlike_operands (h : Plain cs) {fuel : ι → Nat}
    (hfuel : ∀ j, cs.length ≤ fuel j) :
    ReadsAlike 0 (fun j => operands (operandWith (inner j) (deeper j)) (fuel j)) cs := by
  induction hlength : cs.length using Nat.strong_induction_on generalizing cs fuel with
  | _ n ih =>
    cases hoperator : operator? cs with
    | none =>
      refine readsAlike_ok (a := []) List.suffix_rfl fun j t ht es os => ?_
      cases fuel j with
      | zero => rfl
      | succ m =>
        rw [operands_succ, h.dropWhile_append ht, h.operator?_append ht, hoperator]
        rfl
    | some x =>
      obtain ⟨op, after⟩ := x
      obtain ⟨hsuffix, hlt⟩ := h.of_operator?_eq_some hoperator
      have hafter := h.suffix hsuffix
      have hrest : ReadsAlike 0 (fun j => do
          let e ← operandWith (inner j) (deeper j)
          let others ← operands (operandWith (inner j) (deeper j)) (fuel j - 1)
          return (op, e) :: others) after := by
        refine (hafter.readsAlike_operandWith inner deeper).bind fun e rest hrest => ?_
        have hle := hrest.length_le
        have hfuel' : ∀ j, rest.length ≤ fuel j - 1 := fun j => by
          have := hfuel j
          omega
        have hothers := ih rest.length (by omega) (hafter.suffix hrest) hfuel' rfl
        exact hothers.bind fun others rest' _ => readsAlike_pure ((op, e) :: others) rest'
      refine hrest.of_apply_eq hsuffix fun j t ht es os => ?_
      have hsucc : fuel j = fuel j - 1 + 1 := by
        have := hfuel j
        omega
      rw [hsucc, operands_succ, h.dropWhile_append ht, h.operator?_append ht, hoperator]
      rfl

/-- The fuel for the operands of an expression depends on what closes the text. -/
theorem Plain.readsAlike_operands_rest (h : Plain cs) :
    ReadsAlike 0 (fun j => rest >>= fun r => operands (operandWith (inner j) (deeper j)) r.length)
      cs := by
  have hfuel : ∀ x : ι × Nat, cs.length ≤ cs.length + x.2 := fun x => Nat.le_add_right ..
  obtain ⟨outcome, hsuffix, hreads⟩ :=
    h.readsAlike_operands (fun x => inner x.1) (fun x => deeper x.1) hfuel
  refine ⟨outcome, hsuffix, fun j t ht es os => ?_⟩
  rw [← hreads (j, t.length) t ht es os]
  simp only [bind_apply, rest_apply, List.length_append]

theorem Plain.readsAlike_expression (h : Plain cs) :
    ReadsAlike 1 (fun j => expression (operandWith (inner j) (deeper j))) cs := by
  refine (h.readsAlike_operandWith inner deeper).bind fun first r hr => ?_
  have hplain := h.suffix hr
  have hend : ∀ others r', r' <:+ r → ReadsAlike 1 (fun _ : ι => do
      spaces
      claimExpression
      return Expr.ofOperands first others) r' := fun others r' hr' => by
    refine ⟨some (.ofOperands first others, r'), fun x hx => by cases hx; exact List.suffix_rfl,
      fun j t ht es os => ?_⟩
    simp only [bind_apply, spaces_apply, (hplain.suffix hr').dropWhile_append ht]
    rfl
  exact (hplain.readsAlike_operands_rest inner deeper).bind hend

/-- **A plain text is read on every level alike**, and up to the same place whether a bracket follows
or not. -/
theorem Plain.expression_cases (h : Plain cs) :
    (∃ e rest, rest <:+ cs ∧ ∀ inner deeper t, Closing t → ∀ es os,
      expression (operandWith inner deeper) ⟨cs ++ t, es + 1, os⟩ = .ok (e, ⟨rest ++ t, es, os⟩)) ∨
    ∀ inner deeper t, Closing t → ∀ es os, ∃ err,
      expression (operandWith inner deeper) ⟨cs ++ t, es + 1, os⟩ = .error err := by
  obtain ⟨outcome, hsuffix, hreads⟩ :=
    h.readsAlike_expression (ι := Parser Expr × Parser Expr) Prod.fst Prod.snd
  cases outcome with
  | none =>
    exact .inr fun inner deeper t ht es os =>
      eq_error_of_toOption (hreads (inner, deeper) t ht es os)
  | some x =>
    exact .inl ⟨x.1, x.2, hsuffix x rfl, fun inner deeper t ht es os =>
      eq_ok_of_toOption (hreads (inner, deeper) t ht es os)⟩

end Parser

end Abacus
