import Abacus.Proofs.Question.Spelling
import Abacus.Proofs.Question.Value

/-!
# Root signs

A root sign may stand before a number, a name, a call, an expression in brackets, or another root
sign (`Root.Operand`).  Spelling it out is a matter of characters, though: it takes digits with or
without a point, or a name, as the operand of a call, and writes the bare name `sqrt` before anything
else.  So it covers an operand only if this is all of the operand, or if the operand has brackets
already (`Root.Covers`).

Where it covers the operand the calculator gives the square root (`Root.Operand.evaluates_sqrt`).
Where it does not, the text is no expression with a value (`Root.Operand.not_evaluates`): what is
left of a number or a call stands behind a closing bracket, a sign becomes an operator behind the
unknown variable `sqrt`, and root signs one after the other make a name such as `sqrtsqrt`, which is
no function.  The induction over the root signs therefore carries the name along, as `sqrt` written
`k + 1` times (`Root.sqrts`).  Both together are `Question.number?_root`.
-/

namespace Abacus

namespace Root

open Abacus.Parser Abacus.Calculation

/-! ### What a root sign applies to -/

/-- The texts that a root sign may stand before: a number, a name, a call, an expression in brackets,
and such a text with a root sign before it. -/
inductive Operand : List Char → Prop
  | number {p : List Char} (h : IsLiteral p) : Operand p
  | name {p : List Char} (h : Text.isName p = true) : Operand p
  /-- A call; what stands between its brackets does not matter. -/
  | call {name blanks inner : List Char} {o closer : Char} (hname : Text.isName name = true)
      (hblanks : blanks.all isSpace = true) (ho : closerOf? o = some closer) :
      Operand (name ++ (blanks ++ o :: (inner ++ [closer])))
  /-- Brackets that the engine reads, with the root signs spelled out, as one operand. -/
  | bracketed {inner : List Char} {o closer : Char} {e : Expr} {es os : Nat}
      (ho : closerOf? o = some closer)
      (h : operand maxDepth { rest := spellOut (o :: (inner ++ [closer])) } =
        .ok (e, ⟨[], es, os⟩)) : Operand (o :: (inner ++ [closer]))
  | root {blanks p : List Char} (hblanks : blanks.all Text.isBlank = true) (h : Operand p) :
      Operand ('√' :: (blanks ++ p))

/-- The operands that a root sign is spelled out for as a call of all of them: those that consist of
digits with or without a point, or of a name, and those that have brackets already. -/
def Covers (p : List Char) : Prop :=
  operandLength p = p.length ∨ ∃ o ∈ p.head?, (closerOf? o).isSome = true

theorem unblank_of_isPlain {c : Char} (h : isPlain c = true) : Text.isBlank c = false := by
  obtain hname | rfl : Text.inName c = true ∨ c = '.' := by simpa [isPlain] using h
  · exact Text.isBlank_of_inName hname
  · rfl

theorem unblank_of_isLiteral {p : List Char} (h : IsLiteral p) : Text.Unblank p := by
  have hsigns : ∀ c ∈ "-+µ".toList, Text.isBlank c = false :=
    List.all_iff_forall_prop.1 (by decide)
  exact fun c hc => (h.mem c hc).elim unblank_of_isPlain (hsigns c)

theorem root_notMem_of_isLiteral {p : List Char} (h : IsLiteral p) : '√' ∉ p := by
  have hsigns : ¬ (isPlain '√' = true ∨ '√' ∈ "-+µ".toList) := by decide
  exact mt (h.mem '√') hsigns

theorem isBlank_of_closerOf? {o closer : Char} (ho : closerOf? o = some closer) :
    Text.isBlank o = false ∧ Text.isBlank closer = false := by
  obtain ⟨rfl, rfl⟩ | ⟨rfl, rfl⟩ := of_closerOf? ho
  · exact ⟨rfl, rfl⟩
  · exact ⟨rfl, rfl⟩

theorem lastUnblank_concat {cs : List Char} {c : Char} (hc : Text.isBlank c = false) :
    Text.LastUnblank (cs ++ [c]) := by
  intro d hd
  rw [List.getLast?_concat] at hd
  cases hd
  exact hc

/-- An operand is not empty, and it neither begins nor ends with a blank. -/
theorem Operand.unblank {p : List Char} (h : Operand p) :
    p ≠ [] ∧ Text.HeadUnblank p ∧ Text.LastUnblank p := by
  have hends : ∀ {cs : List Char}, cs ≠ [] → Text.Unblank cs →
      cs ≠ [] ∧ Text.HeadUnblank cs ∧ Text.LastUnblank cs := fun hne hcs =>
    ⟨hne, fun c hc => hcs c (List.mem_of_mem_head? hc), fun c hc => hcs c (List.mem_of_getLast? hc)⟩
  induction h with
  | @number p h =>
    refine hends ?_ (unblank_of_isLiteral h)
    rintro rfl
    exact absurd h.scan_eq.1 (by decide)
  | @name p h =>
    refine hends ?_ (Text.unblank_of_isName h)
    rintro rfl
    cases h
  | @call name blanks inner o closer hname hblanks ho =>
    have hlast : Text.LastUnblank (name ++ (blanks ++ o :: inner) ++ [closer]) :=
      lastUnblank_concat (isBlank_of_closerOf? ho).2
    simp only [List.append_assoc, List.cons_append] at hlast
    cases name with
    | nil => cases hname
    | cons c cs =>
      refine ⟨by simp, ?_, hlast⟩
      rintro _ ⟨rfl⟩
      exact Text.unblank_of_isName hname c List.mem_cons_self
  | @bracketed inner o closer e es os ho h =>
    refine ⟨by simp, ?_, ?_⟩
    · rintro _ ⟨rfl⟩
      exact (isBlank_of_closerOf? ho).1
    · have hlast : Text.LastUnblank (o :: inner ++ [closer]) :=
        lastUnblank_concat (isBlank_of_closerOf? ho).2
      exact hlast
  | @root blanks p hblanks h ih =>
    obtain ⟨hne, -, hlast⟩ := ih
    refine ⟨by simp, ?_, ?_⟩
    · rintro _ ⟨rfl⟩
      rfl
    · intro c hc
      refine hlast c ?_
      rw [← List.cons_append, List.getLast?_append_of_ne_nil _ hne] at hc
      exact hc

theorem head_of_closerOf? {o closer : Char} (ho : closerOf? o = some closer) :
    Text.inName o = false ∧ isSpace o = false ∧ o ≠ '√' ∧ o ∉ "+-*/%^<>=!|&oa".toList := by
  obtain ⟨rfl, -⟩ | ⟨rfl, -⟩ := of_closerOf? ho
  · decide
  · decide

theorem isPlain_of_closerOf? {o closer : Char} (ho : closerOf? o = some closer) :
    isPlain o = false := by
  obtain ⟨rfl, -⟩ | ⟨rfl, -⟩ := of_closerOf? ho
  · rfl
  · rfl

/-! ### Repeated names of the root -/

theorem builtin?_of_length {name : String} (h : 5 < name.length) : builtin? name = none := by
  fun_cases builtin? name with
  | case18 => rfl
  | _ => exact absurd h (by decide)

theorem call_of_length {name : String} (h : 5 < name.length) (args : List Expr) :
    call name args = .ok (.call name args) := by
  unfold call
  split
  case h_15 => rw [builtin?_of_length h]
  all_goals exact absurd h (by decide)

theorem library_of_length {name : String} (h : 5 < name.length) (args : List Float) :
    library name args = none := by
  unfold library
  split
  case h_8 => rfl
  all_goals exact absurd h (by decide)

theorem length_sqrts (k : Nat) : (String.ofList (sqrts k)).length = 4 * (k + 1) := by
  simp [sqrts, Nat.mul_comm]

theorem leftToLookup_sqrts (k : Nat) : LeftToLookup (sqrts k) where
  isName := by
    have hall : (sqrts k).all Text.inName = true := by
      simp only [sqrts, List.all_flatten, List.all_replicate]
      rfl
    rw [sqrts, List.replicate_succ, List.flatten_cons] at hall ⊢
    exact Bool.and_eq_true_iff.2 ⟨rfl, (Bool.and_eq_true_iff.1 hall).2⟩
  not_beginsNumber := by
    rw [sqrts, List.replicate_succ, List.flatten_cons]
    rintro (⟨rest, h⟩ | ⟨rest, h⟩) <;> cases h
  ne_print h := by
    have hlength := length_sqrts k
    rw [h] at hlength
    change 5 = _ at hlength
    omega
  call_eq args := by
    cases k with
    | zero => rfl
    | succ k => exact call_of_length (by rw [length_sqrts]; omega) args

theorem library_sqrts_succ (k : Nat) (args : List Float) :
    library (.ofList (sqrts (k + 1))) args = none :=
  library_of_length (by rw [length_sqrts]; omega) args

theorem library_sqrts_nil (k : Nat) : library (.ofList (sqrts k)) [] = none := by
  cases k with
  | zero => rfl
  | succ k => exact library_sqrts_succ k []

/-! ### Roots that give no number -/

theorem isBlank_of_isSpace {c : Char} (h : isSpace c = true) : Text.isBlank c = true := by
  have hmem : c ∈ [' ', '\t', '\n', '\r'] := by simpa [isSpace, or_assoc] using h
  have hblanks : ∀ c ∈ [' ', '\t', '\n', '\r'], Text.isBlank c = true :=
    List.all_eq_true.1 (by decide)
  exact hblanks c hmem

/-- The engine skips some blanks but not all of them. -/
theorem dropWhile_blanks {blanks cs : List Char} (hblanks : blanks.all Text.isBlank = true)
    (hcs : Text.HeadUnblank cs) : (blanks ++ cs).dropWhile isSpace = cs ∨
      ∃ d r, (blanks ++ cs).dropWhile isSpace = d :: r ∧ Text.isBlank d = true := by
  induction blanks with
  | nil =>
    refine .inl (dropWhile_of_head fun c hc => ?_)
    cases hspace : isSpace c with
    | false => rfl
    | true =>
      have hblank := hcs c hc
      rw [isBlank_of_isSpace hspace] at hblank
      cases hblank
  | cons b blanks ih =>
    obtain ⟨hb, hrest⟩ := Bool.and_eq_true_iff.1 hblanks
    cases hspace : isSpace b with
    | true =>
      rw [List.cons_append, List.dropWhile_cons_of_pos hspace]
      exact ih hrest
    | false =>
      rw [List.cons_append, List.dropWhile_cons_of_neg (by simp [hspace])]
      exact .inr ⟨b, blanks ++ cs, rfl, hb⟩

theorem inName_head_blanks {blanks cs : List Char} (hblanks : blanks.all Text.isBlank = true)
    (hcs : ∀ c ∈ cs.head?, Text.inName c = false) :
    ∀ c ∈ (blanks ++ cs).head?, Text.inName c = false := by
  cases blanks with
  | nil => exact hcs
  | cons b blanks =>
    rintro _ ⟨rfl⟩
    have hb := (Bool.and_eq_true_iff.1 hblanks).1
    cases hname : Text.inName b with
    | false => rfl
    | true => rw [Text.isBlank_of_inName hname] at hb; cases hb

variable {v : Float}

/-- The name of the root, or its repetition, in front of a plain text in brackets: no root at all if
the name is repeated, and nothing but an operator may follow. -/
theorem not_evaluates_plain (k : Nat) {f rest : List Char} (hf : Plain f) (hne : f ≠ [])
    (hrest : (rest = [] ∧ k ≠ 0) ∨
      ∃ d r, rest.dropWhile isSpace = d :: r ∧ d ∉ "+-*/%^<>=!|&oa".toList) :
    ¬ Evaluates (sqrts k ++ '(' :: (f ++ ')' :: rest)) v := by
  obtain ⟨e, -, hok⟩ | ⟨-, err, herr⟩ := (leftToLookup_sqrts k).operandWith_plain
    (operand 31) (operand 30) 63 64 hf hne (operand 31) (operand 30) (operand 31) rest
  · obtain ⟨rfl, hk⟩ | ⟨d, r, hr, hd⟩ := hrest
    · obtain ⟨k, rfl⟩ := Nat.exists_eq_succ_of_ne_zero hk
      exact not_evaluates_call (library_sqrts_succ k) hok
    · refine not_evaluates_of_error (whole_of_operator?_eq_none _ _ hok ?_ ?_)
      · rw [hr]
        exact List.cons_ne_nil d r
      · rw [hr]
        exact operator?_eq_none hd r
  · exact not_evaluates_of_error ⟨err, whole_of_error herr⟩

theorem not_evaluates_of_ne_zero (k : Nat) (blanks : List Char) {p : List Char}
    (hn : operandLength p ≠ 0) (hk : k = 0 → ¬ Covers p)
    (hrest : p.drop (operandLength p) ≠ [] →
      ∃ d r, (spellOut (p.drop (operandLength p))).dropWhile isSpace = d :: r ∧
        d ∉ "+-*/%^<>=!|&oa".toList) : ¬ Evaluates (spellCall (sqrts k) blanks p) v := by
  have hne : p.take (operandLength p) ≠ [] := by
    rw [ne_eq, List.take_eq_nil_iff]
    rintro (h | rfl)
    · exact hn h
    · exact hn rfl
  rw [spellCall, if_neg hn]
  refine not_evaluates_plain k (plain_take_operandLength p) hne ?_
  by_cases hdrop : p.drop (operandLength p) = []
  · refine .inl ⟨by rw [hdrop, spellOut], fun hzero => hk hzero (.inl ?_)⟩
    exact Nat.le_antisymm (operandLength_le p) (List.drop_eq_nil_iff.1 hdrop)
  · exact .inr (hrest hdrop)

/-- Blanks that the engine does not skip end every expression. -/
theorem not_evaluates_of_blanks (k : Nat) {blanks cs : List Char}
    (hblanks : blanks.all Text.isBlank = true) (hcs : Text.HeadUnblank cs)
    (hname : ∀ c ∈ (blanks ++ cs).head?, Text.inName c = false)
    (h : (blanks ++ cs).dropWhile isSpace = cs → ¬ Evaluates (sqrts k ++ (blanks ++ cs)) v) :
    ¬ Evaluates (sqrts k ++ (blanks ++ cs)) v := by
  obtain hcut | ⟨d, r, hcut, hd⟩ := dropWhile_blanks hblanks hcs
  · exact h hcut
  · have hsymbols : ∀ c ∈ "+-*/%^<>=!|&oa([".toList, Text.isBlank c = false :=
      List.all_iff_forall_prop.1 (by decide)
    refine not_evaluates_variable (leftToLookup_sqrts k) hname hcut fun hmem => ?_
    rw [hsymbols d hmem] at hd
    cases hd

theorem not_evaluates_number {p : List Char} (h : IsLiteral p) (k : Nat) {blanks : List Char}
    (hblanks : blanks.all Text.isBlank = true) (hk : k = 0 → ¬ Covers p) :
    ¬ Evaluates (spellCall (sqrts k) blanks p) v := by
  have hspell := spellOut_of_notMem (root_notMem_of_isLiteral h)
  have hunblank : Text.HeadUnblank p := (Operand.number h).unblank.2.1
  obtain hword | ⟨c, cs, rfl, -, hdigit | hsign⟩ := h.cases
  · have hall : operandLength p = 3 ∧ p.drop 3 = [] := by
      obtain rfl | rfl := hword
      · exact ⟨rfl, rfl⟩
      · exact ⟨rfl, rfl⟩
    refine not_evaluates_of_ne_zero k blanks (by rw [hall.1]; decide) hk fun hdrop => ?_
    rw [hall.1] at hdrop
    exact absurd hall.2 hdrop
  · obtain ⟨hn, rfl⟩ | ⟨hn, hmem⟩ := mem_drop_operandLength h hdigit
    · have hname : ∀ c ∈ (blanks ++ '.' :: cs).head?, Text.inName c = false :=
        inName_head_blanks hblanks (by rintro _ ⟨rfl⟩; rfl)
      rw [spellCall, if_pos hn, hspell]
      refine not_evaluates_of_blanks k hblanks hunblank hname fun hcut => ?_
      exact not_evaluates_variable (leftToLookup_sqrts k) hname hcut (by decide)
    · refine not_evaluates_of_ne_zero k blanks hn hk fun hdrop => ?_
      obtain ⟨d, r, hr⟩ := List.exists_cons_of_ne_nil hdrop
      rw [hr] at hmem ⊢
      have hd := hmem d rfl
      have hsets : ∀ d ∈ ".eEkKMGTmuµnp".toList,
          d ≠ '√' ∧ isSpace d = false ∧ d ∉ "+-*/%^<>=!|&oa".toList :=
        List.all_iff_forall_prop.1 (by decide)
      obtain ⟨hroot, hspace, hsymbol⟩ := hsets d hd
      refine ⟨d, spellOut r, ?_, hsymbol⟩
      rw [spellOut_cons hroot, List.dropWhile_cons_of_neg (by simp [hspace])]
  · have hplain : isPlain c = false ∧ Text.inName c = false := by
      obtain rfl | rfl := hsign
      · exact ⟨rfl, rfl⟩
      · exact ⟨rfl, rfl⟩
    have hname : ∀ d ∈ (blanks ++ c :: cs).head?, Text.inName d = false :=
      inName_head_blanks hblanks (by rintro _ ⟨rfl⟩; exact hplain.2)
    rw [spellCall, if_pos (operandLength_eq_zero hplain.1 cs), hspell]
    refine not_evaluates_of_blanks k hblanks hunblank hname fun hcut => ?_
    exact not_evaluates_signed (leftToLookup_sqrts k) (library_sqrts_nil k) hname hcut hsign h

theorem not_evaluates_name {p : List Char} (h : Text.isName p = true) (k : Nat)
    (blanks : List Char) (hk : k = 0 → ¬ Covers p) : ¬ Evaluates (spellCall (sqrts k) blanks p) v := by
  have hlength : operandLength (p ++ []) = p.length := operandLength_of_isName h (by simp)
  rw [List.append_nil] at hlength
  refine not_evaluates_of_ne_zero k blanks ?_ hk fun hdrop => ?_
  · rw [hlength, ne_eq, List.length_eq_zero_iff]
    rintro rfl
    cases h
  · rw [hlength, List.drop_length] at hdrop
    exact absurd rfl hdrop

/-- Of a call only the name is taken, and its brackets are left over. -/
theorem not_evaluates_named_brackets {name spaces inner : List Char} {o closer : Char}
    (hname : Text.isName name = true) (hspaces : spaces.all isSpace = true)
    (ho : closerOf? o = some closer) (k : Nat) (blanks : List Char)
    (hk : k = 0 → ¬ Covers (name ++ (spaces ++ o :: (inner ++ [closer])))) :
    ¬ Evaluates (spellCall (sqrts k) blanks (name ++ (spaces ++ o :: (inner ++ [closer])))) v := by
  obtain ⟨hnameo, hspaceo, hrooto, hsymbolo⟩ := head_of_closerOf? ho
  have hall := List.all_eq_true.1 hspaces
  have hblank : spaces.all Text.isBlank = true :=
    List.all_eq_true.2 fun c hc => isBlank_of_isSpace (hall c hc)
  have hafter : ∀ c ∈ (spaces ++ o :: (inner ++ [closer])).head?, Text.inName c = false :=
    inName_head_blanks hblank (by rintro _ ⟨rfl⟩; exact hnameo)
  have hlength := operandLength_of_isName hname hafter
  refine not_evaluates_of_ne_zero k blanks ?_ hk fun _ => ?_
  · rw [hlength, ne_eq, List.length_eq_zero_iff]
    rintro rfl
    cases hname
  · refine ⟨o, spellOut (inner ++ [closer]), ?_, hsymbolo⟩
    rw [hlength, List.drop_left' rfl, spellOut_append (root_notMem_of_isBlank hblank),
      List.dropWhile_append_of_pos hall, spellOut_cons hrooto,
      List.dropWhile_cons_of_neg (by simp [hspaceo])]

/-- Brackets are covered, so what is wrong is the name in front, which is no function. -/
theorem not_evaluates_brackets {inner : List Char} {o closer : Char} {e : Expr} {es os : Nat}
    (ho : closerOf? o = some closer)
    (h : operand maxDepth { rest := spellOut (o :: (inner ++ [closer])) } = .ok (e, ⟨[], es, os⟩))
    (k : Nat) {blanks : List Char} (hblanks : blanks.all Text.isBlank = true)
    (hk : k = 0 → ¬ Covers (o :: (inner ++ [closer]))) :
    ¬ Evaluates (spellCall (sqrts k) blanks (o :: (inner ++ [closer]))) v := by
  obtain ⟨hnameo, -, hrooto, -⟩ := head_of_closerOf? ho
  have hcovers : Covers (o :: (inner ++ [closer])) := .inr ⟨o, rfl, by rw [ho]; rfl⟩
  obtain ⟨k, rfl⟩ := Nat.exists_eq_succ_of_ne_zero fun hzero => hk hzero hcovers
  rw [spellCall, if_pos (operandLength_eq_zero (isPlain_of_closerOf? ho) _)]
  rw [spellOut_cons hrooto] at h ⊢
  have hafter : ∀ c ∈ (blanks ++ o :: spellOut (inner ++ [closer])).head?, Text.inName c = false :=
    inName_head_blanks hblanks (by rintro _ ⟨rfl⟩; exact hnameo)
  refine not_evaluates_of_blanks _ hblanks ?_ hafter fun hcut => ?_
  · rintro _ ⟨rfl⟩
    exact (isBlank_of_closerOf? ho).1
  · have hcall := (leftToLookup_sqrts (k + 1)).operandWith_bracketed (operand 31) (operand 30)
      64 64 hafter hcut ho h
    exact not_evaluates_call (library_sqrts_succ k) hcall

theorem exists_spellCall_eq_cons (blanks p : List Char) :
    ∃ r, spellCall (sqrts 0) blanks p = 's' :: r := by
  unfold spellCall
  dsimp only
  split_ifs
  · exact ⟨_, rfl⟩
  · exact ⟨_, rfl⟩

/-- A blank between two root signs ends the first name, so the second one is left over. -/
theorem not_evaluates_separated (k : Nat) {b : Char} {blanks inner p : List Char}
    (hblanks : (b :: blanks).all Text.isBlank = true) (hinner : inner.all Text.isBlank = true)
    (hp : Text.HeadUnblank p) :
    ¬ Evaluates (spellCall (sqrts k) (b :: blanks) ('√' :: (inner ++ p))) v := by
  obtain ⟨r, hr⟩ := exists_spellCall_eq_cons inner p
  rw [spellCall, if_pos (operandLength_root _), spellOut_root hinner hp, hr]
  have hafter : ∀ c ∈ (b :: blanks ++ 's' :: r).head?, Text.inName c = false := by
    have hb : ∀ c ∈ (b :: blanks ++ []).head?, Text.inName c = false :=
      inName_head_blanks hblanks (by simp)
    rintro _ ⟨rfl⟩
    exact hb b rfl
  refine not_evaluates_of_blanks k hblanks (by rintro _ ⟨rfl⟩; rfl) hafter fun hcut => ?_
  exact not_evaluates_variable (leftToLookup_sqrts k) hafter hcut (by decide)

/-- **Where a root sign does not cover its operand there is no number**, and neither is there one for
a second root sign in front of another one. -/
theorem Operand.not_evaluates {p : List Char} (hp : Operand p) : ∀ (k : Nat) (blanks : List Char),
    blanks.all Text.isBlank = true → (k = 0 → ¬ Covers p) →
      ∀ v, ¬ Evaluates (spellCall (sqrts k) blanks p) v := by
  induction hp with
  | number h => exact fun k blanks hblanks hk v => not_evaluates_number h k hblanks hk
  | name h => exact fun k blanks _ hk v => not_evaluates_name h k blanks hk
  | call hname hspaces ho =>
    exact fun k blanks _ hk v => not_evaluates_named_brackets hname hspaces ho k blanks hk
  | bracketed ho h => exact fun k blanks hblanks hk v => not_evaluates_brackets ho h k hblanks hk
  | root hinner h ih =>
    intro k blanks hblanks hk v
    have hunblank := h.unblank.2.1
    cases blanks with
    | nil =>
      rw [spellCall_root hinner hunblank]
      exact ih (k + 1) _ hinner (by simp) v
    | cons b blanks => exact not_evaluates_separated k hblanks hinner hunblank

/-! ### Roots that give a number -/

theorem evaluates_sqrt {cs : List Char} {e : Expr} {es os : Nat}
    (h : operand maxDepth { rest := cs } = .ok (.call (.ofList (sqrts 0)) [e], ⟨[], es + 1, os⟩))
    (heval : (e.reduce.eval library).result = .ok v) : Evaluates cs v.sqrt := by
  refine ⟨.call (.ofList (sqrts 0)) [e], ⟨[], es, os⟩, by rw [whole_of_operand _ _ h]; rfl, ?_⟩
  exact result_eval_call_singleton heval rfl

/-- A plain text as the operand. -/
theorem evaluates_sqrt_plain {p : List Char} (hp : Plain p) (hne : p ≠ []) (hv : Evaluates p v) :
    Evaluates (sqrts 0 ++ '(' :: (p ++ [')'])) v.sqrt := by
  obtain ⟨e, c, hwhole, heval⟩ := hv
  obtain ⟨hexpression, hrest⟩ := expression_of_whole hwhole
  obtain ⟨e', he', hok⟩ | ⟨hopen, -⟩ := (leftToLookup_sqrts 0).operandWith_plain
    (operand 31) (operand 30) 63 64 hp hne (operand 32) (operand 31) (operand 31) []
  · obtain rfl : e = e' := by
      change expression (operand maxDepth) { rest := p } = _ at he'
      rw [hexpression] at he'
      cases he'
      rfl
    exact evaluates_sqrt hok heval
  · exact absurd hrest (hopen e c hexpression)

/-- Brackets as the operand. -/
theorem evaluates_sqrt_bracketed {o closer : Char} {cs : List Char} {e : Expr} {es os : Nat}
    (ho : closerOf? o = some closer)
    (h : operand maxDepth { rest := o :: cs } = .ok (e, ⟨[], es, os⟩))
    (hv : Evaluates (o :: cs) v) : Evaluates (sqrts 0 ++ o :: cs) v.sqrt := by
  obtain ⟨e', c, hwhole, heval⟩ := hv
  obtain ⟨hname, hspace, -, -⟩ := head_of_closerOf? ho
  have hok := (leftToLookup_sqrts 0).operandWith_bracketed (operand 31) (operand 30) 64 64
    (by rintro _ ⟨rfl⟩; exact hname) (List.dropWhile_cons_of_neg (by simp [hspace])) ho h
  rw [whole_of_operand _ _ h] at hwhole
  cases es with
  | zero => cases hwhole
  | succ n =>
    cases hwhole
    exact evaluates_sqrt hok heval

/-- An operand that begins with a bracket is an expression in brackets. -/
theorem Operand.exists_bracketed {p : List Char} (hp : Operand p) {o closer : Char}
    (ho : o ∈ p.head?) (hcloser : closerOf? o = some closer) :
    ∃ cs e es os, p = o :: cs ∧
      operand maxDepth { rest := spellOut (o :: cs) } = .ok (e, ⟨[], es, os⟩) := by
  have hname : ∀ {name : List Char}, Text.isName name = true → o ∉ name.head? := by
    intro name hname hmem
    have hnameo := Text.forall_inName_of_isName hname o (List.mem_of_mem_head? hmem)
    rw [(head_of_closerOf? hcloser).1] at hnameo
    cases hnameo
  cases hp with
  | number h =>
    have hmem := h.mem o (List.mem_of_mem_head? ho)
    obtain ⟨rfl, -⟩ | ⟨rfl, -⟩ := of_closerOf? hcloser
    all_goals exact absurd hmem (by decide)
  | name h => exact absurd ho (hname h)
  | @call name blanks inner o' closer' h =>
    cases name with
    | nil => cases h
    | cons c cs =>
      have hhead : o ∈ (c :: cs).head? := ho
      exact absurd hhead (hname h)
  | @bracketed inner o' closer' e es os ho' h =>
    cases ho
    exact ⟨_, e, es, os, rfl, h⟩
  | root hblanks h =>
    cases ho
    cases hcloser

/-- **A root sign that covers its operand gives the square root.** -/
theorem Operand.evaluates_sqrt {p : List Char} (hp : Operand p) (hcovers : Covers p)
    (hv : Evaluates (spellOut p) v) : Evaluates (spellCall (sqrts 0) [] p) v.sqrt := by
  obtain hlength | ⟨o, ho, hbracket⟩ := hcovers
  · have htake : p.take (operandLength p) = p ∧ p.drop (operandLength p) = [] := by
      rw [hlength]
      exact ⟨List.take_length, List.drop_length⟩
    have hplain : Plain p := htake.1 ▸ plain_take_operandLength p
    have hne := hp.unblank.1
    have hn : operandLength p ≠ 0 := by
      rw [hlength, ne_eq, List.length_eq_zero_iff]
      exact hne
    rw [spellOut_of_notMem fun hmem => absurd (hplain _ hmem) (by decide)] at hv
    rw [spellCall, if_neg hn, htake.1, htake.2, spellOut]
    exact evaluates_sqrt_plain hplain hne hv
  · obtain ⟨closer, hcloser⟩ := Option.isSome_iff_exists.1 hbracket
    obtain ⟨cs, e, es, os, rfl, h⟩ := hp.exists_bracketed ho hcloser
    rw [spellCall, if_pos (operandLength_eq_zero (isPlain_of_closerOf? hcloser) cs),
      List.nil_append]
    rw [spellOut_cons (head_of_closerOf? hcloser).2.2.1] at h hv ⊢
    exact evaluates_sqrt_bracketed hcloser h hv

/-- A call of the root is not the bare name of a function. -/
theorem ofList_spellCall_notMem {p : List Char} (hne : p ≠ []) (hcovers : Covers p) :
    String.ofList (spellCall (sqrts 0) [] p) ∉ functionNames := by
  have hbracket : ∃ c ∈ spellCall (sqrts 0) [] p, Text.inName c = false := by
    unfold spellCall
    dsimp only
    split_ifs with hn
    · obtain hlength | ⟨o, ho, hsome⟩ := hcovers
      · exact absurd (List.length_eq_zero_iff.1 (hlength.symm.trans hn)) hne
      · obtain ⟨closer, hcloser⟩ := Option.isSome_iff_exists.1 hsome
        obtain ⟨hnameo, -, hrooto, -⟩ := head_of_closerOf? hcloser
        cases p with
        | nil => cases ho
        | cons c cs =>
          cases ho
          refine ⟨o, ?_, hnameo⟩
          rw [List.nil_append, spellOut_cons hrooto]
          simp
    · exact ⟨'(', by simp, rfl⟩
  have hnames : ∀ f ∈ functionNames, f.toList.all Text.inName = true := by decide
  obtain ⟨c, hc, hnamec⟩ := hbracket
  intro hmem
  have hall := List.all_eq_true.1 (hnames _ hmem) c (by rwa [String.toList_ofList])
  rw [hnamec] at hall
  cases hall

end Root

/-- **A root sign applies to its operand exactly if it covers it.**  A text with a number `v` as its
value has, with a root sign in front, the root of `v` as its value if the root sign covers the text
and the text with the root sign spelled out is not too long; otherwise it has no number as its value,
and never a wrong one. -/
theorem Question.number?_root {p : List Char} (hp : Root.Operand p) {v : Float}
    (hv : number? (.ofList p) = some v) :
    let root := String.ofList ('√' :: p)
    let works := Root.Covers p ∧ (ofText root).normalized.utf8ByteSize ≤ Parser.maxLength
    (works → number? root = some v.sqrt) ∧ (¬ works → number? root = none) := by
  intro root works
  obtain ⟨hne, hhead, hlast⟩ := hp.unblank
  have hroot : Root.Operand ('√' :: ([] ++ p)) := .root rfl hp
  obtain ⟨-, hhead', hlast'⟩ := hroot.unblank
  have hspell : Root.spellOut ('√' :: ([] ++ p)) = Root.spellCall (Root.sqrts 0) [] p :=
    Root.spellOut_root rfl hhead
  rw [List.nil_append] at hhead' hlast' hspell
  have hlength : (ofText root).normalized = .ofList (Root.spellOut ('√' :: p)) :=
    normalized_ofList hhead' hlast'
  have hiff : ∀ w, number? root = some w ↔
      String.ofList (Root.spellOut ('√' :: p)) ∉ functionNames ∧
        (String.ofList (Root.spellOut ('√' :: p))).utf8ByteSize ≤ Parser.maxLength ∧
        Calculation.Evaluates (Root.spellOut ('√' :: p)) w := fun w =>
    number?_eq_some_iff hhead' hlast'
  rw [hspell] at hlength
  simp only [hspell] at hiff
  refine ⟨fun ⟨hcovers, hfits⟩ => ?_, fun hworks => ?_⟩
  · obtain ⟨-, -, heval⟩ := (number?_eq_some_iff hhead hlast).1 hv
    rw [hlength] at hfits
    exact (hiff _).2
      ⟨Root.ofList_spellCall_notMem hne hcovers, hfits, hp.evaluates_sqrt hcovers heval⟩
  · rw [Option.eq_none_iff_forall_ne_some]
    intro w hw
    obtain ⟨-, hfits, heval⟩ := (hiff w).1 hw
    refine hp.not_evaluates 0 [] rfl (fun _ hcovers => hworks ⟨hcovers, ?_⟩) w heval
    rwa [hlength]

theorem Question.number?_root_sixteen :
    Root.Operand "16".toList ∧ number? "16" = some 16 ∧ number? "√16" = some (Float.sqrt 16) := by
  have hp : Root.Operand "16".toList := .number (by decide +kernel)
  have hv : number? (.ofList "16".toList) = some 16 := by decide +kernel
  exact ⟨hp, hv, (number?_root hp hv).1 ⟨.inl (by decide), by decide +kernel⟩⟩

/-- A number with an exponent, a call and another root have a value, and no number is their
root. -/
theorem Question.number?_root_uncovered :
    (Root.Operand "1e4".toList ∧ number? "1e4" = some 10000 ∧ number? "√1e4" = none) ∧
      (Root.Operand "abs(16)".toList ∧ number? "abs(16)" = some 16 ∧ number? "√abs(16)" = none) ∧
      Root.Operand "√16".toList ∧ number? "√16" = some 4 ∧ number? "√√16" = none := by
  refine ⟨⟨.number (by decide +kernel), by decide +kernel, by decide +kernel⟩,
    ⟨?_, by decide +kernel, by decide +kernel⟩, ?_, by decide +kernel, by decide +kernel⟩
  · have hcall : Root.Operand ("abs".toList ++ ([] ++ '(' :: ("16".toList ++ [')']))) :=
      .call rfl rfl rfl
    exact hcall
  · have hroot : Root.Operand ('√' :: ([] ++ "16".toList)) :=
      .root rfl (.number (by decide +kernel))
    exact hroot

end Abacus
