import Abacus.Proofs.Evaluator.Classification
import Abacus.Proofs.Question.Spelling

/-!
# What spelling out root signs changes

Spelling out the root signs of a text adds calls of `sqrt` and takes root signs away, with the blanks
that stand between a root sign and a number or a name.  Nothing else of the text is lost, added or
moved, round brackets stay balanced or unbalanced, and a text that is spelled out stays as it is
(`Question.normalized_projection`).

The reason is that the text is cut into pieces, each of which is spelled out by itself: a character,
a root sign without an operand, or a root sign with one (`Root.Piece`, `Root.exists_pieces`).  What a
piece adds is in front of what it keeps and behind it, and it closes each bracket that it opens.

Which blanks go does not depend on how long an operand is, but only on whether one begins
(`Root.beginsOperand`, `Root.operandLength_eq_zero_iff`); so what is kept is told without operands
(`Root.withoutRoots`).
-/

namespace Abacus

namespace Text

/-! ### Round brackets -/

/-- How many round brackets are open after one more character; there is no answer if it closes one
where none is open. -/
def nest (depth : Nat) (c : Char) : Option Nat :=
  if c = '(' then some (depth + 1)
  else if c = ')' then if depth = 0 then none else some (depth - 1)
  else some depth

/-- The round brackets of a text are balanced. -/
def Balanced (cs : List Char) : Prop :=
  cs.foldlM nest 0 = some 0

instance (cs : List Char) : Decidable (Balanced cs) :=
  inferInstanceAs (Decidable (_ = _))

/-- A text without round brackets leaves the depth as it is. -/
theorem foldlM_nest_of_forall {cs : List Char} (h : ∀ c ∈ cs, c ≠ '(' ∧ c ≠ ')') (depth : Nat) :
    cs.foldlM nest depth = some depth := by
  induction cs with
  | nil => rfl
  | cons c cs ih =>
    obtain ⟨hc, hcs⟩ := List.forall_mem_cons.1 h
    have hnest : nest depth c = some depth := by rw [nest, if_neg hc.1, if_neg hc.2]
    rw [List.foldlM_cons, hnest]
    exact ih hcs

theorem foldlM_nest_of_blank {blanks : List Char} (h : blanks.all isBlank = true) (depth : Nat) :
    blanks.foldlM nest depth = some depth := by
  refine foldlM_nest_of_forall (fun c hc => ⟨?_, ?_⟩) depth
  · rintro rfl
    exact notMem_of_isBlank rfl h hc
  · rintro rfl
    exact notMem_of_isBlank rfl h hc

theorem balanced_trimChars_iff (cs : List Char) : Balanced (trimChars cs) ↔ Balanced cs := by
  obtain ⟨before, after, hbefore, hafter, hcs⟩ := exists_blanks_append cs
  have hfold : cs.foldlM nest 0 = (trimChars cs).foldlM nest 0 := by
    conv => lhs; rw [hcs]
    rw [List.foldlM_append, List.foldlM_append, foldlM_nest_of_blank hbefore]
    simp [foldlM_nest_of_blank hafter]
  unfold Balanced
  rw [hfold]

end Text

namespace Root

open Abacus.Parser

/-! ### Operands -/

/-- A name, or digits with or without a point before the last of them. -/
def IsOperand (cs : List Char) : Prop :=
  Text.isName cs = true ∨ ∃ whole point part : List Char, cs = whole ++ point ++ part ∧
    whole.all Char.isDigit = true ∧ (point = [] ∨ point = ['.']) ∧
    part ≠ [] ∧ part.all Char.isDigit = true

/-- Whether a number or a name begins at the start of a text. -/
def beginsOperand : List Char → Bool
  | [] => false
  | c :: rest => c.isDigit || Text.beginsName c || (c == '.' && rest.head?.any Char.isDigit)

theorem IsOperand.plain {cs : List Char} (h : IsOperand cs) : Plain cs := by
  have hdigits : ∀ {ds : List Char}, ds.all Char.isDigit = true → Plain ds := fun h c hc =>
    isPlain_of_isDigit (List.all_eq_true.1 h c hc)
  obtain hname | ⟨whole, point, part, rfl, hwhole, hpoint, -, hpart⟩ := h
  · intro c hc
    simp [isPlain, Text.forall_inName_of_isName hname c hc]
  · have hpoint' : Plain point := by
      obtain rfl | rfl := hpoint
      · exact fun c hc => absurd hc List.not_mem_nil
      · exact List.forall_mem_singleton.2 rfl
    exact List.forall_mem_append.2
      ⟨List.forall_mem_append.2 ⟨hdigits hwhole, hpoint'⟩, hdigits hpart⟩

theorem IsOperand.root_notMem {cs : List Char} (h : IsOperand cs) : '√' ∉ cs :=
  fun hmem => ne_of_isPlain (h.plain _ hmem) rfl rfl

/-- What is cut off behind a root sign is an operand. -/
theorem isOperand_take {p : List Char} (h : operandLength p ≠ 0) :
    IsOperand (p.take (operandLength p)) := by
  obtain ⟨first, last, happend, hlength, hcases⟩ := operandLength_cases p
  rw [hlength] at h
  rw [hlength, (take_drop_of_append happend).1]
  obtain ⟨r, -, hne, rfl, -⟩ | ⟨hne, rfl, -⟩ | ⟨-, rfl, -⟩ := hcases
  · exact .inr ⟨p.takeWhile Char.isDigit, ['.'], r.takeWhile Char.isDigit, by simp,
      List.all_takeWhile, .inr rfl, hne, List.all_takeWhile⟩
  · exact .inr ⟨[], [], _, rfl, rfl, .inl rfl, hne, List.all_takeWhile⟩
  · refine .inl ?_
    revert h
    fun_cases Text.spanName p with
    | case1 | case3 => exact fun h => absurd rfl h
    | case2 c rest hc => exact fun _ => Bool.and_eq_true_iff.2 ⟨hc, List.all_takeWhile⟩

theorem operandLength_eq_zero_iff (p : List Char) :
    operandLength p = 0 ↔ beginsOperand p = false := by
  cases p with
  | nil => exact iff_of_true rfl rfl
  | cons c rest =>
    unfold beginsOperand
    by_cases hdigit : c.isDigit = true
    · refine iff_of_false (fun hzero => ?_) (by simp [hdigit])
      have hne : (c :: rest).takeWhile Char.isDigit ≠ [] := by
        rw [List.takeWhile_cons_of_pos hdigit]
        exact List.cons_ne_nil _ _
      -- a digit is cut off, whether a point follows or not
      obtain ⟨first, last, -, hlength, hcases⟩ := operandLength_cases (c :: rest)
      rw [hlength, List.length_eq_zero_iff] at hzero
      obtain ⟨r, -, -, rfl, -⟩ | ⟨-, rfl, -⟩ | ⟨hnone, -⟩ := hcases
      · simp at hzero
      · exact hne hzero
      · exact hne hnone
    · have hname : nameLength (c :: rest) = 0 ↔ Text.beginsName c = false := by
        by_cases hc : Text.beginsName c = true <;> simp [nameLength, Text.spanName, hc]
      simp only [operandLength, List.takeWhile_cons_of_neg hdigit, List.length_nil, List.drop_zero,
        Nat.lt_irrefl, if_false]
      by_cases hpoint : c = '.'
      · subst hpoint
        cases rest with
        | nil => simp [hname]
        | cons d rest => by_cases hd : d.isDigit = true <;> simp [hd, hname]
      · simp [hpoint, hdigit, hname]

/-! ### Pieces -/

/-- The pieces of a text that are spelled out by themselves. -/
inductive Piece
  /-- A character that is no root sign. -/
  | other (c : Char) (hc : c ≠ '√')
  /-- A root sign without an operand. -/
  | bare
  /-- A root sign with an operand behind some blanks. -/
  | call (blanks operand : List Char) (hblanks : blanks.all Text.isBlank = true)
      (hoperand : IsOperand operand)

namespace Piece

/-- A piece as it is typed. -/
def typed : Piece → List Char
  | other c _ => [c]
  | bare => ['√']
  | call blanks operand _ _ => '√' :: (blanks ++ operand)

/-- What is inserted in front of what is kept of a piece. -/
def opening : Piece → List Char
  | other _ _ => []
  | bare => "sqrt".toList
  | call _ _ _ _ => "sqrt(".toList

/-- What is kept of a piece. -/
def kept : Piece → List Char
  | other c _ => [c]
  | bare => []
  | call _ operand _ _ => operand

/-- What is inserted behind what is kept of a piece. -/
def closing : Piece → List Char
  | other _ _ => []
  | bare => []
  | call _ _ _ _ => [')']

/-- A piece as it is spelled out. -/
def spelled (p : Piece) : List Char :=
  p.opening ++ p.kept ++ p.closing

theorem root_notMem_spelled (p : Piece) : '√' ∉ p.spelled := by
  cases p with
  | other c hc => simpa [spelled, opening, kept, closing] using Ne.symm hc
  | bare => decide
  | call blanks operand hblanks hoperand =>
    simpa [spelled, opening, kept, closing] using hoperand.root_notMem

/-- **A piece closes each bracket that it opens.** -/
theorem foldlM_nest_spelled (p : Piece) (depth : Nat) :
    p.spelled.foldlM Text.nest depth = p.typed.foldlM Text.nest depth := by
  cases p with
  | other c hc => rfl
  | bare => rfl
  | call blanks operand hblanks hoperand =>
    have hkept : ∀ depth, operand.foldlM Text.nest depth = some depth := by
      refine Text.foldlM_nest_of_forall fun c hc => ?_
      exact ⟨ne_of_isPlain (hoperand.plain c hc) rfl, ne_of_isPlain (hoperand.plain c hc) rfl⟩
    have hblank := Text.foldlM_nest_of_blank hblanks
    -- the bracket in front of the operand is closed behind it, and there is none in between
    have hopening : "sqrt(".toList.foldlM Text.nest depth = some (depth + 1) := rfl
    have hclosing : [')'].foldlM Text.nest (depth + 1) = some depth := rfl
    have hroot : Text.nest depth '√' = some depth := rfl
    simp only [spelled, opening, kept, closing, typed, List.foldlM_append, List.foldlM_cons,
      hopening, hkept, hblank, hroot, Option.bind_eq_bind, Option.bind_some]
    exact hclosing

end Piece

theorem foldlM_nest_flatMap_spelled (pieces : List Piece) (depth : Nat) :
    (pieces.flatMap Piece.spelled).foldlM Text.nest depth =
      (pieces.flatMap Piece.typed).foldlM Text.nest depth := by
  induction pieces generalizing depth with
  | nil => rfl
  | cons p pieces ih =>
    rw [List.flatMap_cons, List.flatMap_cons, List.foldlM_append, List.foldlM_append,
      p.foldlM_nest_spelled]
    exact congrArg _ (funext ih)

/-- A text without its root signs, and without the blanks between a root sign and a number or a name
directly behind them. -/
def withoutRoots : List Char → List Char
  | [] => []
  | '√' :: rest =>
    if beginsOperand (rest.dropWhile Text.isBlank) then withoutRoots (rest.dropWhile Text.isBlank)
    else withoutRoots rest
  | c :: rest => c :: withoutRoots rest
termination_by cs => cs.length
decreasing_by
  all_goals simp only [List.length_cons]
  all_goals have := (List.dropWhile_sublist Text.isBlank (l := rest)).length_le
  all_goals omega

theorem withoutRoots_cons {c : Char} (hc : c ≠ '√') (cs : List Char) :
    withoutRoots (c :: cs) = c :: withoutRoots cs := by
  rw [withoutRoots]
  exact hc

theorem withoutRoots_append {cs : List Char} (h : '√' ∉ cs) (ds : List Char) :
    withoutRoots (cs ++ ds) = cs ++ withoutRoots ds := by
  induction cs with
  | nil => rfl
  | cons c cs ih =>
    obtain ⟨hc, hcs⟩ : '√' ≠ c ∧ '√' ∉ cs := by simpa using h
    rw [List.cons_append, withoutRoots_cons (Ne.symm hc), ih hcs, List.cons_append]

/-- **A text is spelled out piece by piece**, and what is kept of it is all but its root signs and the
blanks behind them. -/
theorem exists_pieces (cs : List Char) : ∃ pieces : List Piece,
    pieces.flatMap Piece.typed = cs ∧ pieces.flatMap Piece.spelled = spellOut cs ∧
      pieces.flatMap Piece.kept = withoutRoots cs := by
  fun_induction spellOut cs with
  | case1 => exact ⟨[], rfl, rfl, by rw [withoutRoots]; rfl⟩
  | case2 rest after n hn ih =>
    obtain ⟨pieces, htyped, hspelled, hkept⟩ := ih
    -- no operand begins behind the root sign, so the blanks there stay
    have hnone : beginsOperand after = false := (operandLength_eq_zero_iff after).1 hn
    refine ⟨.bare :: pieces, ?_, ?_, ?_⟩
    · rw [List.flatMap_cons, htyped]
      rfl
    · rw [List.flatMap_cons, hspelled]
      rfl
    · rw [List.flatMap_cons, hkept, withoutRoots, if_neg (Bool.eq_false_iff.1 hnone)]
      rfl
  | case3 rest after n hn ih =>
    obtain ⟨pieces, htyped, hspelled, hkept⟩ := ih
    have hoperand : IsOperand (after.take n) := isOperand_take hn
    have hbegins : beginsOperand after = true := by
      simpa using mt (operandLength_eq_zero_iff after).2 hn
    refine ⟨.call (rest.takeWhile Text.isBlank) (after.take n) List.all_takeWhile hoperand :: pieces,
      ?_, ?_, ?_⟩
    · rw [List.flatMap_cons, htyped, Piece.typed, List.cons_append, List.append_assoc,
        List.take_append_drop, List.takeWhile_append_dropWhile]
    · rw [List.flatMap_cons, hspelled]
      simp [Piece.spelled, Piece.opening, Piece.kept, Piece.closing]
    · -- the operand has no root signs, so it is kept as it is
      have hcut := withoutRoots_append hoperand.root_notMem (after.drop n)
      rw [List.take_append_drop] at hcut
      rw [List.flatMap_cons, hkept, withoutRoots, if_pos hbegins]
      exact hcut.symm
  | case4 c rest hc ih =>
    obtain ⟨pieces, htyped, hspelled, hkept⟩ := ih
    refine ⟨.other c hc :: pieces, ?_, ?_, ?_⟩
    · rw [List.flatMap_cons, htyped]
      rfl
    · rw [List.flatMap_cons, hspelled]
      rfl
    · rw [List.flatMap_cons, hkept, withoutRoots_cons hc]
      rfl

end Root

namespace Question

/-- **Normalization is a projection that keeps brackets balanced.**  The text of a question for the
engine has no root signs, and normalizing it again changes nothing.  A text without root signs is only
trimmed.  The round brackets are balanced exactly if those of the text are.  The text is made of
pieces, each spelled out by itself: a root sign becomes `sqrt`, and one in front of a number or a name
becomes a call of it.  Without what is inserted so, the text for the engine is the trimmed text
without its root signs and without the blanks between a root sign and a number or a name directly
behind them. -/
theorem normalized_projection (text : String) :
    let normalized := (ofText text).normalized
    '√' ∉ normalized.toList ∧
      (ofText normalized).normalized = normalized ∧
      ('√' ∉ text.toList → normalized = Text.trim text) ∧
      (Text.Balanced normalized.toList ↔ Text.Balanced text.toList) ∧
      ∃ pieces : List Root.Piece,
        pieces.flatMap Root.Piece.typed = (Text.trim text).toList ∧
        pieces.flatMap Root.Piece.spelled = normalized.toList ∧
        pieces.flatMap Root.Piece.kept = Root.withoutRoots (Text.trim text).toList := by
  intro normalized
  have htrim : (Text.trim text).toList = Text.trimChars text.toList := String.toList_ofList
  have hnormalized : normalized.toList = Root.spellOut (Text.trimChars text.toList) :=
    String.toList_ofList
  obtain ⟨pieces, htyped, hspelled, hkept⟩ := Root.exists_pieces (Text.trimChars text.toList)
  have hroot : '√' ∉ normalized.toList := by
    rw [hnormalized, ← hspelled, List.mem_flatMap]
    rintro ⟨p, -, hmem⟩
    exact p.root_notMem_spelled hmem
  refine ⟨hroot, ?_, fun hnone => ?_, ?_, pieces, ?_, ?_, ?_⟩
  · have htrimmed : Text.trimChars normalized.toList = normalized.toList := by
      have h := congrArg String.toList (trim_normalized text)
      rwa [Text.trim, String.toList_ofList] at h
    rw [ofText, htrimmed, Root.spellOut_of_notMem hroot, String.ofList_toList]
  · have hnone' : '√' ∉ Text.trimChars text.toList :=
      mt (Text.mem_trimChars_iff (by decide)).1 hnone
    rw [← String.toList_inj, hnormalized, htrim, Root.spellOut_of_notMem hnone']
  · have hbalanced : Text.Balanced normalized.toList ↔
        Text.Balanced (Text.trimChars text.toList) := by
      unfold Text.Balanced
      rw [hnormalized, ← hspelled, Root.foldlM_nest_flatMap_spelled, htyped]
    exact hbalanced.trans (Text.balanced_trimChars_iff text.toList)
  · rw [htrim, htyped]
  · rw [hnormalized, hspelled]
  · rw [htrim, hkept]

/-- Roots of a number, of brackets and of a name; a blank goes in front of a number, and stays in front
of a point without digits.  Asked again, the text is only trimmed. -/
theorem normalized_root_of_root :
    let text := " √ 2.25 + √(√x) - √ .x"
    let normalized := (ofText text).normalized
    normalized = "sqrt(2.25) + sqrt(sqrt(x)) - sqrt .x" ∧
      Root.withoutRoots (Text.trim text).toList = "2.25 + (x) -  .x".toList ∧
      Text.Balanced normalized.toList ∧
      (ofText normalized).normalized = Text.trim normalized := by
  intro text normalized
  obtain ⟨hroot, -, -, hbalanced, -⟩ := normalized_projection text
  exact ⟨by decide +kernel, by decide +kernel, hbalanced.2 (by decide +kernel),
    (normalized_projection normalized).2.2.1 hroot⟩

end Question

end Abacus
