import Abacus.Answer
import Abacus.Proofs.Decimal.Digits
import Abacus.Proofs.Decimal.Editing
import Abacus.Proofs.Keypad.Rereading
import Abacus.Text.Search
import Mathlib.Data.List.DropRight

/-!
# Answers and printed numbers

Printed in exponential form, a number shows its significant digits with the zeros at their end
(`printedText`).  An answer lays the same digits out anew, without these zeros.  It can be made from
the printed text alone, by cutting that up and putting its parts together again (`Answer.reprint?`).

* `Answer.printedParts_exponential`, `Answer.assemble?_layout` : the parts are all there, and no cut
  is out of range;
* `Answer.laysOut_answerText` : an answer has the form that goes with the printed power of ten
  (`Answer.HasForm`), and it spells the printed number;
* `Answer.read_answerText` : with all its digits it is read back.
-/

namespace Abacus

open Float.Model.UnpackedFloat (Sign)

/-- How a number is printed in exponential form: with `count` significant digits, or if that is zero
with as many as it takes to read the number back. -/
def printedStyle : Nat → Style
  | 0 => .scientific
  | count + 1 => { Style.scientific with digits := Decimal.rounded (count + 1) }

/-- The text of a printed number. -/
def printedText (x : Float) (count : Nat) : String :=
  (printedStyle count).write x

/-- The number that a text spells, without any rounding. -/
def Numeral.spelt? (cs : List Char) : Option Rat :=
  let (negative, rest) := sign cs
  (decimal? rest).map fun (coefficient, exponent) =>
    let x := Decimal.value ⟨coefficient, exponent⟩
    if negative then -x else x

namespace Answer

/-! ### Making an answer from a printed number -/

/-- Cuts digits in two; none if the place is beyond their end. -/
def cutAt? (place : Nat) (digits : List Char) : Option (List Char × List Char) :=
  if place ≤ digits.length then some (digits.take place, digits.drop place) else none

/-- Digits without the zeros at their end; of zeros alone one is left. -/
def trimZeros (digits : List Char) : List Char :=
  match digits.rdropWhile (· = '0') with
  | [] => ['0']
  | trimmed => trimmed

/-- The parts of a printed number: its sign, its digits up to the last that is not zero, and its
power of ten. -/
def printedParts (printed : List Char) : List Char × List Char × Int :=
  let (mantissa, power) := (Text.cutFirst? 'e' printed).getD (printed, ['0'])
  let sign := if mantissa.head? = some '-' then ['-'] else []
  (sign, trimZeros (mantissa.filter Char.isDigit), (Numeral.integer? power).getD 0)

/-- The text of an answer without its sign, from its digits and its power of ten; none if a cut is
out of range. -/
def assemble? (digits : List Char) (power : Int) : Option (List Char) := do
  if -3 ≤ power ∧ power < 5 then
    if power < 0 then
      return '0' :: '.' :: List.replicate (-power - 1).toNat '0' ++ digits
    else
      let places := power.toNat + 1
      if digits.length ≤ places then
        return digits ++ List.replicate (places - digits.length) '0'
      else
        let (before, after) ← cutAt? places digits
        return before ++ '.' :: after
  else
    let (lead, rest) ← cutAt? 1 digits
    let mantissa := if rest = [] then lead else lead ++ '.' :: rest
    return mantissa ++ 'e' :: (if power < 0 then '-' else '+') :: Nat.toDigits 10 power.natAbs

/-- The text of an answer, made from a printed number. -/
def reprint? (printed : List Char) : Option (List Char) :=
  let (sign, digits, power) := printedParts printed
  (assemble? digits power).map (sign ++ ·)

theorem trimZeros_append_zeros {ds : List Char} (hne : ds ≠ []) (hlast : ds.getLast? ≠ some '0')
    (k : Nat) : trimZeros (ds ++ List.replicate k '0') = ds := by
  have hdrop : (ds ++ List.replicate k '0').rdropWhile (· = '0') = ds := by
    induction k with
    | zero =>
      rw [List.replicate_zero, List.append_nil, List.rdropWhile_eq_self_iff]
      intro hne'
      rw [List.getLast?_eq_getLast_of_ne_nil hne', ne_eq, Option.some_inj] at hlast
      simpa using hlast
    | succ k ih =>
      rw [List.replicate_succ', ← List.append_assoc, List.rdropWhile_concat_pos _ _ _ (by simp), ih]
  unfold trimZeros
  rw [hdrop]
  cases ds with
  | nil => exact absurd rfl hne
  | cons c cs => rfl

/-- **No cut is out of range**, and the parts are laid out like an answer. -/
theorem assemble?_layout (precision : Nat) (d : Decimal) :
    assemble? d.digits d.lead = some ((answerStyle precision).layout d) := by
  have hlength : 1 ≤ d.digits.length := List.length_pos_iff.2 d.digits_ne_nil
  have hexponent : d.exponent = d.lead + 1 - d.digits.length := by
    rw [Decimal.lead]
    omega
  simp only [assemble?, answerStyle]
  split
  · simp only [Decimal.positional]
    split
    · next hneg =>
      have hplaces : (-d.exponent).toNat - d.digits.length = (-d.lead - 1).toNat := by omega
      rw [if_neg (by omega), if_neg (by omega), hplaces]
      rfl
    · next hnonneg =>
      split
      · next hshort =>
        have hzeros : d.exponent.toNat = d.lead.toNat + 1 - d.digits.length := by omega
        rw [if_pos (by omega), hzeros]
        rfl
      · next hlong =>
        have hplaces : d.digits.length - (-d.exponent).toNat = d.lead.toNat + 1 := by omega
        rw [if_neg (by omega), if_pos (by omega), hplaces, cutAt?, if_pos (by omega)]
        rfl
  · rw [cutAt?, if_pos hlength]
    have hsign : (if d.lead < 0 then ['-'] else ['+']) = [if d.lead < 0 then '-' else '+'] := by
      split <;> rfl
    cases hd : d.digits with
    | nil => exact absurd hd d.digits_ne_nil
    | cons c cs => cases cs <;> simp [Decimal.exponential, hd, hsign]

/-! ### Printed numbers -/

/-- The power of ten in a printed number has no plus sign. -/
theorem integer?_power (d : Decimal) :
    Numeral.integer? ((if d.lead < 0 then ['-'] else []) ++ Nat.toDigits 10 d.lead.natAbs) =
      some d.lead := by
  have hdigits : ∀ c ∈ Nat.toDigits 10 d.lead.natAbs, c.isDigit = true := fun _ hc =>
    Nat.isDigit_of_mem_toDigits (by decide) (by decide) hc
  have hvalue := d.powerValue_powerParts
  rw [Decimal.powerParts] at hvalue
  by_cases hneg : d.lead < 0
  · rw [decide_eq_true hneg] at hvalue
    rw [if_pos hneg]
    exact (Figures.integer?_signed Nat.toDigits_ne_nil hdigits).trans (congrArg some hvalue)
  · rw [decide_eq_false hneg] at hvalue
    rw [if_neg hneg]
    exact (Figures.integer?_digits Nat.toDigits_ne_nil hdigits).trans (congrArg some hvalue)

/-- A decimal as it is printed: digits with a point among them and the power of ten. -/
theorem signText_append_printed (s : Sign) (d : Decimal) :
    let f := d.exponentialFigures (Keypad.isMinus s)
    (Style.signText s).toList ++ d.exponential [] = f.mantissa.text ++
      'e' :: ((if d.lead < 0 then ['-'] else []) ++ Nat.toDigits 10 d.lead.natAbs) := by
  intro f
  have hsign := Keypad.signText_append_unsigned (s := s) (f := f.mantissa) rfl
  rw [← hsign, d.mantissa_exponentialFigures (Keypad.isMinus s)]
  simp [Figures.unsigned, Figures.mantissa, Figures.powerText, f]

/-- The first letter in a printed decimal is before its power of ten. -/
theorem cutFirst?_exponential (s : Sign) (d : Decimal) :
    Text.cutFirst? 'e' ((Style.signText s).toList ++ d.exponential []) =
      some ((d.exponentialFigures (Keypad.isMinus s)).mantissa.text,
        (if d.lead < 0 then ['-'] else []) ++ Nat.toDigits 10 d.lead.natAbs) := by
  rw [signText_append_printed]
  refine Text.cutFirst?_append (fun hmem => ?_) _
  have hpower := (Figures.exists_letter_mem_text_iff _).1 ⟨'e', hmem, by decide⟩
  cases hpower

/-- **The text of a printed decimal shows all its parts.** -/
theorem printedParts_exponential (s : Sign) {d : Decimal} (hpos : 0 < d.coefficient) :
    printedParts ((Style.signText s).toList ++ d.exponential []) =
      ((Style.signText s).toList, d.strip.digits, d.lead) := by
  obtain ⟨f, hf⟩ : ∃ f, d.exponentialFigures (Keypad.isMinus s) = f := ⟨_, rfl⟩
  have hcut := cutFirst?_exponential s d
  have hdigits := d.whole_append_exponentialFigures (Keypad.isMinus s)
  have hnegative : f.mantissa.negative = Keypad.isMinus s := hf ▸ rfl
  rw [hf] at hcut hdigits
  obtain ⟨k, hzeros, -⟩ := d.digits_eq_append_zeros
  have htrim : trimZeros (f.mantissa.text.filter Char.isDigit) = d.strip.digits := by
    rw [Figures.filter_isDigit_text_mantissa, hdigits, hzeros]
    exact trimZeros_append_zeros d.strip.digits_ne_nil (d.getLast?_digits_strip hpos) k
  have hsign : (if f.mantissa.text.head? = some '-' then ['-'] else []) =
      (Style.signText s).toList := by
    simp only [Figures.head?_text_eq_minus_iff, hnegative]
    cases s <;> rfl
  rw [printedParts, hcut]
  simp only [Option.getD_some, integer?_power, htrim, hsign]

/-- A printed decimal spells itself. -/
theorem spelt?_exponential (s : Sign) (d : Decimal) :
    Numeral.spelt? ((Style.signText s).toList ++ d.exponential []) =
      some (if Keypad.isMinus s then -d.value else d.value) := by
  obtain ⟨f, hf⟩ : ∃ f, d.exponentialFigures (Keypad.isMinus s) = f := ⟨_, rfl⟩
  have htext := signText_append_printed s d
  have hdecimal := d.decimal_exponentialFigures (Keypad.isMinus s)
  have hnegative : f.mantissa.negative = Keypad.isMinus s := hf ▸ rfl
  have hpower : Figures.powerValue f.power = d.lead := hf ▸ d.powerValue_powerParts
  rw [hf] at htext hdecimal
  have hspelt : Numeral.decimal? (f.mantissa.unsigned ++
      'e' :: ((if d.lead < 0 then ['-'] else []) ++ Nat.toDigits 10 d.lead.natAbs)) =
        some (f.decimal.coefficient, f.decimal.exponent) := by
    rw [f.unsigned_mantissa_append, f.decimal?_append (by simp)]
    simp only [Numeral.exponent?, true_or, ↓reduceIte, integer?_power, Option.map_some,
      Figures.decimal, hpower]
  rw [htext, Numeral.spelt?, Figures.sign_text_append]
  simp only [hspelt, hnegative, hdecimal, Option.map_some]

/-! ### What an answer looks like -/

/-- The form of an answer whose first digit counts the power of ten `lead`. -/
structure HasForm (lead : Int) (f : Figures) : Prop where
  /-- This power is written if it is below -3 or at least 5. -/
  power_eq : f.power =
    if -3 ≤ lead ∧ lead < 5 then none else some (decide (lead < 0), Nat.toDigits 10 lead.natAbs)
  /-- There is one digit before the point then. -/
  whole_of_power : f.power.isSome = true → ∃ c, f.whole = [c] ∧ c ≠ '0'
  /-- A zero in front stands alone before the point. -/
  whole_of_zero : f.whole.head? = some '0' → f.whole = ['0']
  /-- A point is followed by digits, the last of which is not zero. -/
  fraction_ne_zero : ∀ ds ∈ f.fraction, ds ≠ [] ∧ ds.getLast? ≠ some '0'

/-- An answer lays out a printed number: it has the form that goes with the printed power of ten, and
both spell the same number. -/
def LaysOut (printed answer : List Char) : Prop :=
  ∃ (f : Figures) (mantissa power : List Char) (lead : Int) (q : Rat),
    Text.cutFirst? 'e' printed = some (mantissa, power) ∧ Numeral.integer? power = some lead ∧
      answer = f.text ∧ HasForm lead f ∧
      Numeral.spelt? printed = some q ∧ Numeral.spelt? answer = some q

variable {d : Decimal} (hfirst : d.digits.head? ≠ some '0') (hlast : d.digits.getLast? ≠ some '0')

include hfirst in
theorem whole_positionalParts (hzero : d.positionalParts.1.head? = some '0') :
    d.positionalParts.1 = ['0'] := by
  have hne := d.digits_ne_nil
  unfold Decimal.positionalParts at hzero ⊢
  dsimp only at hzero ⊢
  split
  · next hwhole =>
    rw [if_pos hwhole, List.head?_append_of_ne_nil _ hne] at hzero
    exact absurd hzero hfirst
  · next hpoint =>
    rw [if_neg hpoint] at hzero
    split
    · next hshort =>
      rw [if_pos hshort, List.head?_take, if_neg (by omega)] at hzero
      exact absurd hzero hfirst
    · rfl

include hlast in
theorem drop_digits {place : Nat} (hplace : place < d.digits.length) :
    d.digits.drop place ≠ [] ∧ (d.digits.drop place).getLast? ≠ some '0' := by
  have hrest : ¬ d.digits.length ≤ place := by omega
  refine ⟨fun hnil => hrest (List.drop_eq_nil_iff.1 hnil), ?_⟩
  rw [List.getLast?_drop, if_neg hrest]
  exact hlast

include hlast in
theorem fraction_positionalParts {ds : List Char} (hds : ds ∈ d.positionalParts.2) :
    ds ≠ [] ∧ ds.getLast? ≠ some '0' := by
  have hne := d.digits_ne_nil
  unfold Decimal.positionalParts at hds
  dsimp only at hds
  split at hds
  · cases hds
  · split at hds
    · cases hds
      exact drop_digits hlast (by omega)
    · cases hds
      refine ⟨by simp [hne], ?_⟩
      rw [List.getLast?_append_of_ne_nil _ hne]
      exact hlast

include hfirst in
theorem whole_exponentialFigures (negative : Bool) :
    ∃ c, (d.exponentialFigures negative).whole = [c] ∧ c ≠ '0' := by
  cases hd : d.digits with
  | nil => exact absurd hd d.digits_ne_nil
  | cons c cs =>
    refine ⟨c, by simp [Decimal.exponentialFigures, hd], ?_⟩
    simpa [hd] using hfirst

include hlast in
theorem fraction_exponentialFigures {negative : Bool} {ds : List Char}
    (hds : ds ∈ (d.exponentialFigures negative).fraction) : ds ≠ [] ∧ ds.getLast? ≠ some '0' := by
  have hlength : 0 < d.digits.length := List.length_pos_iff.2 d.digits_ne_nil
  simp only [Decimal.exponentialFigures] at hds
  split at hds
  · cases hds
  · cases hds
    exact drop_digits hlast (by omega)

include hfirst hlast in
/-- **The layout of digits that count has the form of an answer**, and it keeps their value. -/
theorem exists_figures_layout (precision : Nat) (s : Sign) :
    ∃ f : Figures, (Style.signText s).toList ++ (answerStyle precision).layout d = f.text ∧
      f.negative = Keypad.isMinus s ∧ HasForm d.lead f ∧ f.decimal.value = d.value := by
  simp only [answerStyle]
  split
  · next hrange =>
    refine ⟨d.positionalFigures (Keypad.isMinus s), ?_, rfl, ⟨?_, ?_, ?_, ?_⟩, ?_⟩
    · exact Keypad.signText_append_positional s d
    · rw [if_pos hrange]
      rfl
    · intro hpower
      cases hpower
    · exact whole_positionalParts hfirst
    · exact fun ds => fraction_positionalParts hlast
    · obtain ⟨k, hk⟩ := d.decimal_positionalFigures (Keypad.isMinus s)
      rw [hk, d.value_scale]
  · next hrange =>
    have hwhole := whole_exponentialFigures hfirst (Keypad.isMinus s)
    refine ⟨d.exponentialFigures (Keypad.isMinus s), ?_, rfl, ⟨?_, ?_, ?_, ?_⟩, ?_⟩
    · exact Keypad.signText_append_exponential s d
    · rw [if_neg hrange]
      rfl
    · exact fun _ => hwhole
    · obtain ⟨c, hc, hne⟩ := hwhole
      rw [hc]
      intro hzero
      exact absurd (Option.some_inj.1 hzero) hne
    · exact fun ds => fraction_exponentialFigures hlast
    · rw [d.decimal_exponentialFigures]

/-- The digits of an answer are those that are printed, without the zeros at their end. -/
theorem digits_answerStyle (precision m : Nat) (e : Int) :
    (answerStyle precision).digits m e = ((printedStyle precision).digits m e).strip := by
  cases precision with
  | zero => exact (Decimal.strip_strip _).symm
  | succ count => exact (Decimal.strip_rounded count.succ_pos m e).symm

/-- A number that is not zero is not printed as zero. -/
theorem coefficient_printedStyle_pos (precision : Nat) {m : Nat} {e : Int}
    (h : Binary64.Canonical m e) : 0 < ((printedStyle precision).digits m e).coefficient := by
  cases precision with
  | zero => exact Keypad.coefficient_pos_of_roundsTo h (Decimal.roundsTo_shortest h.pos h.lt e)
  | succ count => exact (Decimal.rounded_spec count.succ_pos h.pos e).1

section Finite

variable {x : Float} {s : Sign} {m : Nat} {e : Int} {hm : 0 < m}
  (hx : x.toModel.unpack = .finite s m e hm)

include hx

theorem toList_printedText (precision : Nat) : (printedText x precision).toList =
    (Style.signText s).toList ++ ((printedStyle precision).digits m e).exponential [] := by
  have hlayout : (printedStyle precision).layout = Decimal.exponential [] := by
    cases precision <;> rfl
  simp only [printedText, Style.write, hx, hlayout, String.toList_append, String.toList_ofList]

theorem toList_answerText (precision : Nat) : (answerText x precision).toList =
    (Style.signText s).toList ++
      (answerStyle precision).layout ((printedStyle precision).digits m e).strip := by
  simp only [answerText, Style.write, hx, digits_answerStyle, String.toList_append,
    String.toList_ofList]

/-- **An answer is a written number of this form**, and it spells the printed number. -/
theorem exists_figures_answer (precision : Nat) :
    ∃ f : Figures, (answerText x precision).toList = f.text ∧ f.negative = Keypad.isMinus s ∧
      HasForm ((printedStyle precision).digits m e).lead f ∧
      f.decimal.value = ((printedStyle precision).digits m e).value := by
  have hpos := coefficient_printedStyle_pos precision (Binary64.canonical_of_unpack hx)
  rw [toList_answerText hx]
  generalize (printedStyle precision).digits m e = d at hpos
  obtain ⟨f, htext, hnegative, hform, hvalue⟩ := exists_figures_layout
    (d.strip.head?_digits_ne (d.coefficient_strip_pos hpos)) (d.getLast?_digits_strip hpos)
    precision s
  rw [d.lead_strip] at hform
  rw [d.value_strip] at hvalue
  exact ⟨f, htext, hnegative, hform, hvalue⟩

/-- **An answer lays out the printed number.** -/
theorem laysOut_answerText (precision : Nat) :
    LaysOut (printedText x precision).toList (answerText x precision).toList := by
  obtain ⟨f, htext, hnegative, hform, hvalue⟩ := exists_figures_answer hx precision
  rw [toList_printedText hx, htext]
  generalize (printedStyle precision).digits m e = d at hform hvalue
  refine ⟨f, _, _, d.lead, _, cutFirst?_exponential s d, integer?_power d, rfl, hform,
    spelt?_exponential s d, ?_⟩
  rw [Numeral.spelt?, f.sign_text, ← hvalue]
  simp only [f.decimal?_unsigned, Option.map_some, hnegative]

/-- **The printed text is all that it takes to make the answer.** -/
theorem reprint?_printedText (precision : Nat) :
    reprint? (printedText x precision).toList = some (answerText x precision).toList := by
  have hpos := coefficient_printedStyle_pos precision (Binary64.canonical_of_unpack hx)
  rw [toList_printedText hx, toList_answerText hx]
  generalize (printedStyle precision).digits m e = d at hpos
  simp only [reprint?, printedParts_exponential s hpos]
  rw [← d.lead_strip, assemble?_layout precision, Option.map_some]

/-- **An answer with all its digits is read back.** -/
theorem read_answerText : Numeral.read (answerText x 0) = .ok x := by
  have hcanonical := Binary64.canonical_of_unpack hx
  obtain ⟨f, htext, hnegative, -, hvalue⟩ := exists_figures_answer hx 0
  have hround : Binary64.RoundsTo f.decimal.value m e := by
    rw [hvalue]
    exact Decimal.roundsTo_shortest hcanonical.pos hcanonical.lt e
  have hread := Keypad.read?_text_of_roundsTo hnegative hcanonical hround
  rw [← Binary64.eq_float hx] at hread
  obtain ⟨c, cs, hcons, -⟩ := f.exists_text_eq_cons
  rw [hcons] at htext hread
  simp only [Numeral.read, htext, hread]

end Finite

end Answer

/-- **An answer lays out the digits of the printed number without changing it.**  It can be made from
the printed text with no cut out of range, and with all its digits it is read back. -/
theorem answer_of_printed {x : Float} {s : Sign} {m : Nat} {e : Int} {hm : 0 < m}
    (hx : x.toModel.unpack = .finite s m e hm) (precision : Nat) :
    let printed := (printedText x precision).toList
    let answer := (answerText x precision).toList
    Answer.LaysOut printed answer ∧ Answer.reprint? printed = some answer ∧
      Numeral.read (answerText x 0) = .ok x :=
  ⟨Answer.laysOut_answerText hx precision, Answer.reprint?_printedText hx precision,
    Answer.read_answerText hx⟩

/-- Rounding to five digits carries into the next power of ten, which is written with an exponent. -/
theorem answer_of_carry :
    printedText (-99999.5) 5 = "-1.0000e5" ∧ answerText (-99999.5) 5 = "-1e+5" ∧
      Answer.LaysOut (printedText (-99999.5) 5).toList (answerText (-99999.5) 5).toList ∧
      Answer.reprint? (printedText (-99999.5) 5).toList =
        some (answerText (-99999.5) 5).toList ∧
      Numeral.read (answerText (-99999.5) 0) = .ok (-99999.5) := by
  have hx : (-99999.5 : Float).toModel.unpack =
      .finite .negative (199999 * 2 ^ 35) (-36) (by decide) := rfl
  exact ⟨by decide +kernel, by decide +kernel, answer_of_printed hx 5⟩

end Abacus
