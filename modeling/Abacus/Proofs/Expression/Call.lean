import Abacus.Proofs.Expression.Plain
import Abacus.Proofs.Text.Blank
import Mathlib.Data.List.DropRight

/-!
# Calls with one argument

A name that is neither built in nor a word for a number is left to the lookup
(`Parser.LeftToLookup`).  Without a bracket behind it, it is a variable
(`Parser.LeftToLookup.operandWith_variable`); with one it is a call.  If brackets alone are read as
an operand then a call of such a name with these brackets is read, one level higher up, with this
operand as its argument (`Parser.LeftToLookup.operandWith_bracketed`).  With a plain text in the
brackets the converse holds as well (`Parser.LeftToLookup.operandWith_plain`).

What the first operand of a whole text leaves decides on the text: it is all of the expression if it
leaves nothing (`Parser.whole_of_operand`), there has to be an operator if it leaves something
(`Parser.whole_of_operator?_eq_none`), and one more operand may end the text
(`Parser.whole_of_operator?`).
-/

namespace Abacus

namespace Parser

variable (inner deeper : Parser Expr) (es os : Nat)

/-! ### Where an operand begins -/

theorem compound_dropWhile (cs : List Char) :
    compound inner deeper ⟨cs.dropWhile isSpace, es, os⟩ = compound inner deeper ⟨cs, es, os⟩ := by
  unfold compound
  simp only [bind_apply, spaces_apply, List.dropWhile_idempotent]

/-- Blanks in front of an operand do not matter. -/
theorem operandWith_dropWhile (cs : List Char) :
    operandWith inner deeper ⟨cs.dropWhile isSpace, es, os⟩ =
      operandWith inner deeper ⟨cs, es, os⟩ := by
  unfold operandWith number?
  simp only [bind_apply, List.dropWhile_idempotent]
  by_cases hnumber : (scan true true false true (cs.dropWhile isSpace)).isNumber = true
  · simp only [if_pos hnumber]
  · simp only [if_neg hnumber]
    exact compound_dropWhile inner deeper es os cs

theorem expression_dropWhile (cs : List Char) :
    expression (operandWith inner deeper) ⟨cs.dropWhile isSpace, es, os⟩ =
      expression (operandWith inner deeper) ⟨cs, es, os⟩ := by
  unfold expression
  rw [bind_apply, bind_apply, operandWith_dropWhile]

/-- A character that is read neither as a part of a number nor as an operator has to begin a
bracket or a name. -/
theorem operandWith_cons {c : Char} {cs : List Char} (hspace : isSpace c = false)
    (hnumber : (scan true true false true (c :: cs)).isNumber = false) :
    operandWith inner deeper ⟨c :: cs, es, os⟩ = compound inner deeper ⟨c :: cs, es, os⟩ := by
  unfold operandWith number?
  simp only [bind_apply, List.dropWhile_cons, hspace, Bool.false_eq_true, if_false, hnumber]

/-- The brackets. -/
theorem of_closerOf? {o closer : Char} (h : closerOf? o = some closer) :
    (o = '(' ∧ closer = ')') ∨ (o = '[' ∧ closer = ']') := by
  fun_cases closerOf? o with
  | case1 => exact .inl ⟨rfl, (Option.some.inj h).symm⟩
  | case2 => exact .inr ⟨rfl, (Option.some.inj h).symm⟩
  | case3 => simp_all [closerOf?]

/-- An operand in brackets. -/
theorem operandWith_bracketed {o closer : Char} (ho : closerOf? o = some closer)
    (cs : List Char) : operandWith inner deeper ⟨o :: cs, es, os⟩ =
      bracketed closer (expression inner) ⟨cs, es, os⟩ := by
  obtain ⟨rfl, rfl⟩ | ⟨rfl, rfl⟩ := of_closerOf? ho
  · rfl
  · rfl

/-- No expression begins with a closing bracket. -/
theorem operandWith_closer {o closer : Char} (ho : closerOf? o = some closer) (cs : List Char) :
    operandWith inner deeper ⟨closer :: cs, es, os⟩ = .error .invalidValue := by
  obtain ⟨rfl, rfl⟩ | ⟨rfl, rfl⟩ := of_closerOf? ho
  · rfl
  · rfl

/-! ### Calls -/

/-- A name that stands for a function if there is a bracket behind it, but for none that the parser
knows. -/
structure LeftToLookup (name : List Char) : Prop where
  isName : Text.isName name = true
  not_beginsNumber : ¬ BeginsNumber name
  ne_print : String.ofList name ≠ "print"
  call_eq (args : List Expr) : call (.ofList name) args = .ok (.call (.ofList name) args)

variable {name : List Char}

/-- Such a name in front of anything that does not go on with a name. -/
theorem LeftToLookup.operandWith_append (h : LeftToLookup name) {after : List Char}
    (hafter : ∀ d ∈ after.head?, Text.inName d = false) :
    operandWith inner deeper ⟨name ++ after, es, os⟩ =
        callable inner deeper ⟨name ++ after, es, os⟩ ∧
      Text.spanName (name ++ after) = (name, after) := by
  have hisName := h.isName
  cases hname : name with
  | nil =>
    rw [hname] at hisName
    cases hisName
  | cons c cs =>
    rw [hname] at hisName
    obtain ⟨hc, hcs⟩ := Bool.and_eq_true_iff.1 hisName
    have hbegins : ∀ d ∈ after.head?, Text.beginsName d = false := fun d hd => by
      have hd' := hafter d hd
      cases hbegins : Text.beginsName d with
      | false => rfl
      | true => rw [Text.inName_of_beginsName hbegins] at hd'; cases hd'
    have hword : ¬ BeginsNumber (c :: cs ++ after) := by
      rw [beginsNumber_append_iff hbegins, ← hname]
      exact h.not_beginsNumber
    have hnumber : (scan true true false true (c :: (cs ++ after))).isNumber = false :=
      isNumber_scan hc hword
    refine ⟨?_, spanName_append hc hcs hafter⟩
    rw [List.cons_append, operandWith_cons inner deeper es os (isSpace_of_beginsName hc) hnumber,
      compound_of_beginsName inner deeper es os hc]

/-- **A name without a bracket behind it is a variable.** -/
theorem LeftToLookup.operandWith_variable (h : LeftToLookup name) {after : List Char}
    (hafter : ∀ d ∈ after.head?, Text.inName d = false)
    (hbracket : ∀ d ∈ (after.dropWhile isSpace).head?, closerOf? d = none) :
    operandWith inner deeper ⟨name ++ after, es, os⟩ =
      .ok (.call (.ofList name) [], ⟨after.dropWhile isSpace, es, os⟩) := by
  obtain ⟨hoperand, hspan⟩ := h.operandWith_append inner deeper es os hafter
  rw [hoperand, callable_of_closerOf?_eq_none inner deeper es os hspan hbracket]

/-- **A name with a bracket behind it is a call**, also if there are blanks between them. -/
theorem LeftToLookup.operandWith_call (h : LeftToLookup name) {after text : List Char}
    {o closer : Char} (hafter : ∀ d ∈ after.head?, Text.inName d = false)
    (hspaces : after.dropWhile isSpace = o :: text) (ho : closerOf? o = some closer) :
    operandWith inner deeper ⟨name ++ after, es, os⟩ =
      (arguments closer (expression inner) true (text.length + 1) ⟨text, es, os⟩).map fun x =>
        (.call (.ofList name) x.1, x.2) := by
  obtain ⟨hoperand, hspan⟩ := h.operandWith_append inner deeper es os hafter
  rw [hoperand]
  unfold callable
  simp only [bind_apply, rest_apply, hspan, goTo_apply, spaces_apply, hspaces, ho,
    if_neg h.ne_print]
  cases arguments closer (expression inner) true (text.length + 1) ⟨text, es, os⟩ with
  | error e => rfl
  | ok x => simp only [h.call_eq, pure_apply, Except.map]

/-! ### One argument -/

/-- Arguments that do not end at once begin with one. -/
theorem arguments_of_ne {α : Type} {argument : Parser α} {closer : Char} {cs : List Char}
    (h : ∃ d ∈ (cs.dropWhile isSpace).head?, d ≠ closer) (fuel : Nat) :
    arguments closer argument true (fuel + 1) ⟨cs, es, os⟩ =
      (do
        let a ← argument
        let others ← arguments closer argument false fuel
        return a :: others : Parser (List α)) ⟨cs.dropWhile isSpace, es, os⟩ := by
  obtain ⟨d, hhead, hd⟩ := h
  rw [arguments]
  cases hspaces : cs.dropWhile isSpace with
  | nil =>
    rw [hspaces] at hhead
    cases hhead
  | cons c after =>
    rw [hspaces] at hhead
    cases hhead
    simp only [bind_apply, spaces_apply, hspaces, rest_apply, if_neg hd]
    rfl

/-- The arguments end at the closing bracket. -/
theorem arguments_closer {α : Type} {argument : Parser α} {closer : Char} {cs after : List Char}
    (hspaces : cs.dropWhile isSpace = closer :: after) (isFirst : Bool) (fuel : Nat) :
    arguments closer argument isFirst (fuel + 1) ⟨cs, es, os⟩ = .ok ([], ⟨after, es, os⟩) := by
  rw [arguments]
  simp only [bind_apply, spaces_apply, hspaces, rest_apply]
  rfl

/-- Behind an argument only a separator or the closing bracket may stand. -/
theorem arguments_of_notMem {α : Type} {argument : Parser α} {closer d : Char}
    {cs after : List Char} (hspaces : cs.dropWhile isSpace = d :: after)
    (hd : d ∉ [closer, ',', ';']) (fuel : Nat) :
    ∃ e, arguments closer argument false (fuel + 1) ⟨cs, es, os⟩ = .error e := by
  simp only [List.mem_cons, List.not_mem_nil, or_false, not_or] at hd
  rw [arguments]
  simp only [bind_apply, spaces_apply, hspaces, rest_apply, if_neg hd.1]
  simp only [hd.2.1, hd.2.2]
  exact ⟨_, rfl⟩

theorem of_bracketed {inner : Parser Expr} {closer : Char} {cs : List Char} {e : Expr} {c : Cursor}
    (h : bracketed closer inner ⟨cs, es, os⟩ = .ok (e, c)) :
    ∃ rest es' os', inner ⟨cs, es, os⟩ = .ok (e, ⟨rest, es', os'⟩) ∧
      rest.dropWhile isSpace = closer :: c.rest ∧ c = ⟨c.rest, es', os'⟩ := by
  unfold bracketed at h
  rw [bind_apply] at h
  cases hinner : inner ⟨cs, es, os⟩ with
  | error err =>
    rw [hinner] at h
    cases h
  | ok x =>
    obtain ⟨e', rest, es', os'⟩ := x
    simp only [hinner, bind_apply, spaces_apply, rest_apply] at h
    cases hrest : rest.dropWhile isSpace with
    | nil =>
      rw [hrest] at h
      cases h
    | cons d after =>
      simp only [hrest] at h
      split_ifs at h with hd
      · cases h
        exact ⟨rest, es', os', rfl, by rw [hrest, hd], rfl⟩
      · cases h

/-- **What is an expression in brackets is the only argument behind a name.** -/
theorem arguments_of_bracketed {o closer : Char} (ho : closerOf? o = some closer)
    {cs : List Char} {e : Expr} {c : Cursor}
    (h : bracketed closer (expression (operandWith inner deeper)) ⟨cs, es, os⟩ = .ok (e, c))
    (fuel : Nat) : arguments closer (expression (operandWith inner deeper)) true (fuel + 2)
      ⟨cs, es, os⟩ = .ok ([e], c) := by
  obtain ⟨rest, es', os', hinner, hrest, hc⟩ := of_bracketed es os h
  rw [← expression_dropWhile] at hinner
  cases hspaces : cs.dropWhile isSpace with
  | nil =>
    rw [hspaces] at hinner
    cases hinner
  | cons d after =>
    rw [hspaces] at hinner
    have hd : d ≠ closer := by
      rintro rfl
      unfold expression at hinner
      rw [bind_apply, operandWith_closer inner deeper es os ho] at hinner
      cases hinner
    rw [arguments_of_ne es os ⟨d, by rw [hspaces]; rfl, hd⟩, hspaces]
    simp only [bind_apply, hinner, arguments_closer es' os' hrest, pure_apply, ← hc]

/-- **A name in front of an operand in brackets is a call with this operand.** -/
theorem LeftToLookup.operandWith_bracketed (h : LeftToLookup name) {after text : List Char}
    {o closer : Char} (hafter : ∀ d ∈ after.head?, Text.inName d = false)
    (hspaces : after.dropWhile isSpace = o :: text) (ho : closerOf? o = some closer)
    {deeper' : Parser Expr} {e : Expr} {c : Cursor}
    (hoperand : operandWith (operandWith inner deeper) deeper' ⟨o :: text, es, os⟩ = .ok (e, c)) :
    operandWith (operandWith inner deeper) deeper' ⟨name ++ after, es, os⟩ =
      .ok (.call (.ofList name) [e], c) := by
  rw [Parser.operandWith_bracketed _ _ es os ho] at hoperand
  cases text with
  | nil => cases hoperand
  | cons d text =>
    rw [h.operandWith_call _ _ es os hafter hspaces ho, List.length_cons,
      arguments_of_bracketed inner deeper es os ho hoperand]
    rfl

/-! ### Plain arguments -/

variable {p : List Char}

/-- **A plain text in brackets is an argument exactly if it is an expression**, on whatever level it
is read. -/
theorem Plain.arguments_cases (hp : Plain p) (hne : p ≠ []) (fuel : Nat) (text : List Char) :
    (∃ e, expression (operandWith inner deeper) ⟨p, es + 1, os⟩ = .ok (e, ⟨[], es, os⟩) ∧
      ∀ inner deeper, arguments ')' (expression (operandWith inner deeper)) true (fuel + 2)
        ⟨p ++ ')' :: text, es + 1, os⟩ = .ok ([e], ⟨text, es, os⟩)) ∨
    ((∀ e c, expression (operandWith inner deeper) ⟨p, es + 1, os⟩ = .ok (e, c) → c.rest ≠ []) ∧
      ∀ inner deeper, ∃ err, arguments ')' (expression (operandWith inner deeper)) true (fuel + 2)
        ⟨p ++ ')' :: text, es + 1, os⟩ = .error err) := by
  have hclosing := closing_cons text
  obtain ⟨d, hd, hdplain⟩ : ∃ d ∈ (p ++ ')' :: text).head?, isPlain d = true := by
    obtain ⟨d, p', rfl⟩ := List.exists_cons_of_ne_nil hne
    exact ⟨d, rfl, hp d List.mem_cons_self⟩
  have hbegin : ∀ inner deeper,
      arguments ')' (expression (operandWith inner deeper)) true (fuel + 2)
        ⟨p ++ ')' :: text, es + 1, os⟩ = (do
        let a ← expression (operandWith inner deeper)
        let others ← arguments ')' (expression (operandWith inner deeper)) false (fuel + 1)
        return a :: others : Parser (List Expr)) ⟨p ++ ')' :: text, es + 1, os⟩ :=
    fun inner deeper => by
      have hspaces := hp.dropWhile_append hclosing
      rw [arguments_of_ne _ _ ⟨d, by rwa [hspaces], ne_of_isPlain hdplain (by decide)⟩, hspaces]
  obtain ⟨e, rest, hsuffix, hok⟩ | herror := hp.expression_cases
  · have halone := hok inner deeper [] closing_nil es os
    simp only [List.append_nil] at halone
    cases rest with
    | nil =>
      refine .inl ⟨e, halone, fun inner deeper => ?_⟩
      have hend : arguments ')' (expression (operandWith inner deeper)) false (fuel + 1)
          ⟨')' :: text, es, os⟩ = .ok ([], ⟨text, es, os⟩) :=
        arguments_closer es os hclosing.dropWhile false fuel
      simp only [hbegin, bind_apply, hok inner deeper _ hclosing es os, List.nil_append, hend,
        pure_apply]
    | cons d' rest =>
      refine .inr ⟨fun e' c hc => ?_, fun inner deeper => ?_⟩
      · rw [halone] at hc
        cases hc
        exact List.cons_ne_nil d' rest
      · have hd' : d' ∉ [')', ',', ';'] :=
          notMem_of_isPlain ((hp.suffix hsuffix) d' List.mem_cons_self) (by decide)
        obtain ⟨err, herr⟩ : ∃ err, arguments ')' (expression (operandWith inner deeper)) false
            (fuel + 1) ⟨d' :: rest ++ ')' :: text, es, os⟩ = .error err :=
          arguments_of_notMem es os ((hp.suffix hsuffix).dropWhile_append hclosing) hd' fuel
        refine ⟨err, ?_⟩
        simp only [hbegin, bind_apply, hok inner deeper _ hclosing es os, herr]
  · refine .inr ⟨fun e c hok => ?_, fun inner deeper => ?_⟩
    · obtain ⟨err, herr⟩ := herror inner deeper [] closing_nil es os
      rw [List.append_nil, hok] at herr
      cases herr
    · obtain ⟨err, herr⟩ := herror inner deeper (')' :: text) hclosing es os
      exact ⟨err, by simp only [hbegin, bind_apply, herr]⟩

/-- **A name in front of a plain text in brackets is a call exactly if the text is an expression**,
on whatever level this is tried. -/
theorem LeftToLookup.operandWith_plain (h : LeftToLookup name) (hp : Plain p) (hne : p ≠ [])
    (inner' deeper' deeper'' : Parser Expr) (text : List Char) :
    (∃ e, expression (operandWith inner' deeper') ⟨p, es + 1, os⟩ = .ok (e, ⟨[], es, os⟩) ∧
      operandWith (operandWith inner deeper) deeper''
        ⟨name ++ '(' :: (p ++ ')' :: text), es + 1, os⟩ =
          .ok (.call (.ofList name) [e], ⟨text, es, os⟩)) ∨
    ((∀ e c, expression (operandWith inner' deeper') ⟨p, es + 1, os⟩ = .ok (e, c) → c.rest ≠ []) ∧
      ∃ err, operandWith (operandWith inner deeper) deeper''
        ⟨name ++ '(' :: (p ++ ')' :: text), es + 1, os⟩ = .error err) := by
  have hlength : (p ++ ')' :: text).length + 1 = p.length + text.length + 2 := by
    simp only [List.length_append, List.length_cons]
    omega
  have hafter : ∀ d ∈ ('(' :: (p ++ ')' :: text)).head?, Text.inName d = false := by
    rintro d ⟨rfl⟩
    rfl
  rw [h.operandWith_call _ _ _ _ hafter rfl rfl, hlength]
  obtain ⟨e, he, harguments⟩ | ⟨hopen, herror⟩ :=
    hp.arguments_cases inner' deeper' es os hne (p.length + text.length) text
  · exact .inl ⟨e, he, by rw [harguments]; rfl⟩
  · obtain ⟨err, herr⟩ := herror inner deeper
    exact .inr ⟨hopen, err, by rw [herr]; rfl⟩

/-! ### Whole texts -/

/-- A text that is one operand. -/
theorem whole_of_operand {text : List Char} {e : Expr}
    (h : operand maxDepth { rest := text } = .ok (e, ⟨[], es, os⟩)) :
    whole { rest := text } = (claimExpression ⟨[], es, os⟩).map fun x => (e, x.2) := by
  unfold whole
  simp only [bind_apply, h, rest_apply]
  cases es <;> rfl

/-- An operand with something behind it that is no operator. -/
theorem whole_of_operator?_eq_none {text rest : List Char} {e : Expr}
    (h : operand maxDepth { rest := text } = .ok (e, ⟨rest, es, os⟩))
    (hne : rest.dropWhile isSpace ≠ []) (hoperator : operator? (rest.dropWhile isSpace) = none) :
    ∃ err, whole { rest := text } = .error err := by
  obtain ⟨d, rest', hrest⟩ := List.exists_cons_of_ne_nil hne
  have hothers : operands (operand maxDepth) rest.length ⟨rest, es, os⟩ =
      .ok ([], ⟨rest.dropWhile isSpace, es, os⟩) := by
    cases rest with
    | nil => cases hrest
    | cons c cs => rw [List.length_cons, operands_succ, hoperator]
  have hagain : (d :: rest').dropWhile isSpace = d :: rest' := by
    rw [← hrest, List.dropWhile_idempotent]
  refine ⟨.unparsed (.ofList (d :: rest')), ?_⟩
  unfold whole
  simp only [bind_apply, h, rest_apply, hothers, spaces_apply, hrest, hagain]
  rfl

/-- Two operands with an operator between them. -/
theorem whole_of_operator? {text rest after : List Char} {op : Binary} {e : Expr}
    (h : operand maxDepth { rest := text } = .ok (e, ⟨rest, es, os⟩))
    (hoperator : operator? (rest.dropWhile isSpace) = some (op, after)) :
    (∀ err, operand maxDepth ⟨after, es, os⟩ = .error err → whole { rest := text } = .error err) ∧
    ∀ e' es' os', operand maxDepth ⟨after, es, os⟩ = .ok (e', ⟨[], es', os'⟩) →
      whole { rest := text } =
        (claimExpression ⟨[], es', os'⟩).map fun x => (.ofOperands e [(op, e')], x.2) := by
  have hothers : operands (operand maxDepth) rest.length ⟨rest, es, os⟩ = (do
      let e ← operand maxDepth
      let others ← operands (operand maxDepth) (rest.length - 1)
      return (op, e) :: others : Parser (List (Binary × Expr))) ⟨after, es, os⟩ := by
    cases rest with
    | nil => cases hoperator
    | cons c cs =>
      rw [List.length_cons, operands_succ, hoperator]
      rfl
  refine ⟨fun err herr => ?_, fun e' es' os' he' => ?_⟩
  · unfold whole
    simp only [bind_apply, h, rest_apply, hothers, herr]
  · have hend : operands (operand maxDepth) (rest.length - 1) ⟨[], es', os'⟩ =
        .ok ([], ⟨[], es', os'⟩) := by
      cases rest.length - 1 <;> rfl
    unfold whole
    simp only [bind_apply, h, rest_apply, hothers, he', hend, pure_apply]
    cases es' <;> rfl

theorem whole_of_error {text : List Char} {err : ParseError}
    (h : operand maxDepth { rest := text } = .error err) :
    whole { rest := text } = .error err := by
  unfold whole
  simp only [bind_apply, h]

/-- A whole text is an expression with nothing behind it. -/
theorem expression_of_whole {c c' : Cursor} {e : Expr} (h : whole c = .ok (e, c')) :
    expression (operand maxDepth) c = .ok (e, c') ∧ c'.rest = [] := by
  unfold whole at h
  unfold expression
  simp only [bind_apply] at h ⊢
  cases hfirst : operand maxDepth c with
  | error err =>
    rw [hfirst] at h
    cases h
  | ok x =>
    simp only [hfirst, rest_apply] at h ⊢
    cases hothers : operands (operand maxDepth) x.2.rest.length x.2 with
    | error err =>
      rw [hothers] at h
      cases h
    | ok y =>
      obtain ⟨others, rest, es, os⟩ := y
      simp only [hothers, spaces_apply] at h ⊢
      cases hend : rest.dropWhile isSpace with
      | cons d rest' =>
        simp only [hend] at h
        cases h
      | nil =>
        simp only [hend] at h ⊢
        cases es with
        | zero => cases h
        | succ n =>
          cases h
          exact ⟨rfl, rfl⟩

end Parser

end Abacus
