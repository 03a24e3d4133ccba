import Abacus.Json.Parser
import Abacus.Json.Printer
import Abacus.Proofs.Decimal.Figures

/-!
# Reading back what was written

A value is `Printable` if its numbers are natural and all its strings stand for texts.  The reader
finds such a value again at the start of its text, whatever follows it (`value?_print`), and so it
reads every rendered value back (`parse_render`).

The parts of a value come first: a character that was escaped (`pieces?_escape`), a text in quotes
(`string?_quote`), and a natural number (`number?_repr`).
-/

namespace Abacus

namespace Json

/-! ### Strings -/

theorem hexDigit?_digitChar : ∀ n < 16, Text.hexDigit? (Nat.digitChar n) = some n := by
  decide

theorem hexNumber?_escape {n : Nat} (h : n < 0x20) :
    Text.hexNumber? ['0', '0', Nat.digitChar (n / 16), Nat.digitChar (n % 16)] = some n := by
  have hzero : Text.hexDigit? '0' = some 0 := by decide
  have hhigh := hexDigit?_digitChar (n / 16) (by omega)
  have hlow := hexDigit?_digitChar (n % 16) (by omega)
  simp only [Text.hexNumber?, List.mapM_cons, List.mapM_nil, hzero, hhigh, hlow]
  simp only [Option.pure_def, Option.bind_eq_bind, Option.bind_some, List.foldl_cons,
    List.foldl_nil, Option.some.injEq]
  omega

/-- A letter after a backslash. -/
theorem pieces?_letter {letter c : Char} (h : unescape? letter = some c) (rest : List Char) :
    pieces? ('\\' :: letter :: rest) =
      (pieces? rest).map fun (ps, rest) => (.char c :: ps, rest) := by
  rw [pieces?, h]
  · cases pieces? rest <;> rfl
  · rintro _ _ _ _ _ rfl
    cases h

/-- A character that stands for itself. -/
theorem pieces?_plain {c : Char} (hquote : c ≠ '"') (hbackslash : c ≠ '\\')
    (hcontrol : ¬ c.toNat < 0x20) (rest : List Char) :
    pieces? (c :: rest) = (pieces? rest).map fun (ps, rest) => (.char c :: ps, rest) := by
  rw [pieces?]
  · simp only [hcontrol, hbackslash, or_self, ↓reduceIte]
    cases pieces? rest <;> rfl
  · exact hquote
  · rintro _ _ _ _ _ rfl
    exact absurd rfl hbackslash
  · rintro _ _ rfl
    exact absurd rfl hbackslash

/-- An escaped character is read as that character. -/
theorem pieces?_escape (c : Char) (rest : List Char) :
    pieces? (escape c ++ rest) = (pieces? rest).map fun (ps, rest) => (.char c :: ps, rest) := by
  unfold escape
  split
  case h_8 hquote hbackslash _ _ _ _ _ =>
    split
    · next hcontrol =>
      have hcode : Piece.ofCode c.toNat = .char c := by
        rw [Piece.ofCode, if_neg (by omega), Char.ofNat_toNat]
      simp only [List.cons_append, List.nil_append]
      rw [pieces?, hexNumber?_escape hcontrol]
      cases pieces? rest <;> simp [hcode]
    · next hcontrol => exact pieces?_plain hquote hbackslash hcontrol rest
  all_goals exact pieces?_letter rfl rest

theorem pieces?_quoted (cs rest : List Char) :
    pieces? (cs.flatMap escape ++ '"' :: rest) = some (cs.map Piece.char, rest) := by
  induction cs with
  | nil => rw [List.flatMap_nil, List.nil_append, pieces?, List.map_nil]
  | cons c cs ih =>
    rw [List.flatMap_cons, List.append_assoc, pieces?_escape, ih]
    rfl

theorem joinPieces?_map_char (cs : List Char) : joinPieces? (cs.map Piece.char) = some cs := by
  induction cs with
  | nil => rfl
  | cons c cs ih => simp [joinPieces?, ih]

/-- **A text in quotes is read back.** -/
theorem string?_quote (s : String) (rest : List Char) :
    string? (s.toList.flatMap escape ++ '"' :: rest) = some (some s, rest) := by
  simp [string?, pieces?_quoted, joinPieces?_map_char]

/-! ### Numbers -/

/-- Nothing at the start of a text goes on with a number. -/
def EndsNumber (cs : List Char) : Prop :=
  ∀ c ∈ cs.head?, c.isDigit = false ∧ c ≠ '.' ∧ c ≠ 'e' ∧ c ≠ 'E'

theorem isDigit_of_mem_repr {n : Nat} {c : Char} (h : c ∈ n.repr.toList) : c.isDigit = true :=
  Nat.isDigit_of_mem_toDigits (by decide) (by decide) (Nat.toList_repr ▸ h)

theorem exists_repr_eq_cons (n : Nat) :
    ∃ c cs, n.repr.toList = c :: cs ∧ c.isDigit = true := by
  obtain ⟨c, cs, hcs⟩ : ∃ c cs, n.repr.toList = c :: cs :=
    List.exists_cons_of_ne_nil (Nat.toList_repr ▸ Nat.toDigits_ne_nil)
  exact ⟨c, cs, hcs, isDigit_of_mem_repr (n := n) (by simp [hcs])⟩

theorem whole?_repr (n : Nat) {rest : List Char} (h : EndsNumber rest) :
    whole? (n.repr.toList ++ rest) = some (n.repr.toList, rest) := by
  obtain ⟨htake, hdrop⟩ :=
    Figures.takeWhile_digits (fun c => isDigit_of_mem_repr (n := n)) fun c hc => (h c hc).1
  -- a zero in front is taken for the whole number, so it must be the only digit
  rcases Nat.eq_zero_or_pos n with rfl | hn
  · rfl
  · obtain ⟨c, cs, hcs, hc⟩ := Decimal.exists_toDigits_eq_cons hn
    rw [Nat.toList_repr, hcs] at htake hdrop ⊢
    rw [List.cons_append] at htake hdrop ⊢
    rw [whole?, digits?, htake, hdrop]
    rintro _ ⟨⟩
    exact hc rfl

/-- **A natural number is read back.** -/
theorem number?_repr (n : Nat) {rest : List Char} (h : EndsNumber rest) :
    number? (n.repr.toList ++ rest) = some (n.repr.toList, rest) := by
  have hfraction : fraction? rest = some ([], rest) := by
    cases rest with
    | nil => rfl
    | cons c cs =>
      have hc := (h c rfl).2.1
      rw [fraction?]
      rintro _ ⟨⟩
      exact hc rfl
  have hexponent : exponent? rest = some ([], rest) := by
    cases rest with
    | nil => rfl
    | cons c cs =>
      obtain ⟨-, -, he, hE⟩ := h c rfl
      simp [exponent?, he, hE]
  obtain ⟨c, cs, hcs, hc⟩ := exists_repr_eq_cons n
  have hminus : c ≠ '-' := Figures.ne_of_isDigit hc (by decide)
  have hwhole := whole?_repr n h
  rw [hcs, List.cons_append] at hwhole ⊢
  simp [number?, hminus, hwhole, hfraction, hexponent]

/-! ### Values -/

/-- Numbers are natural and strings stand for texts. -/
inductive Printable : Json → Prop
  | null : Printable .null
  | bool (b : Bool) : Printable (.bool b)
  | nat (n : Nat) : Printable (.nat n)
  | text (s : String) : Printable (.text s)
  | array {items : List Json} : (∀ j ∈ items, Printable j) → Printable (.array items)
  | object {fields : List (Option String × Json)} : (∀ p ∈ fields, p.1.isSome = true) →
      (∀ p ∈ fields, Printable p.2) → Printable (.object fields)

theorem skipSpaces_cons {c : Char} (h : isSpace c = false) (cs : List Char) :
    skipSpaces (c :: cs) = c :: cs := by
  simp [skipSpaces, h]

theorem isSpace_of_isDigit {c : Char} (h : c.isDigit = true) : isSpace c = false := by
  have h₁ : c ≠ ' ' := Figures.ne_of_isDigit h (by decide)
  have h₂ : c ≠ '\n' := Figures.ne_of_isDigit h (by decide)
  have h₃ : c ≠ '\t' := Figures.ne_of_isDigit h (by decide)
  have h₄ : c ≠ '\r' := Figures.ne_of_isDigit h (by decide)
  simp [isSpace, h₁, h₂, h₃, h₄]

theorem print_text (s : String) : (text s).print = quote s := by
  rw [text, print, Option.getD_some]

theorem quote_append (s : String) (rest : List Char) :
    quote s ++ rest = '"' :: (s.toList.flatMap escape ++ '"' :: rest) := by
  simp [quote]

/-- The text of a value begins neither with a blank nor with a closing bracket. -/
theorem Printable.exists_print_eq_cons {j : Json} (h : Printable j) :
    ∃ c cs, j.print = c :: cs ∧ isSpace c = false ∧ c ≠ ']' := by
  cases h with
  | null => exact ⟨'n', "ull".toList, by rw [print]; rfl, by decide, by decide⟩
  | bool b =>
    cases b
    · exact ⟨'f', "alse".toList, by rw [print]; rfl, by decide, by decide⟩
    · exact ⟨'t', "rue".toList, by rw [print]; rfl, by decide, by decide⟩
  | nat n =>
    obtain ⟨c, cs, hcs, hc⟩ := exists_repr_eq_cons n
    refine ⟨c, cs, ?_, isSpace_of_isDigit hc, Figures.ne_of_isDigit hc (by decide)⟩
    rw [Json.nat, print, hcs]
  | text s =>
    refine ⟨'"', s.toList.flatMap escape ++ ['"'], ?_, by decide, by decide⟩
    rw [print_text, quote, List.cons_append]
  | @array items _ =>
    refine ⟨'[', commaSeparated (printItems items) ++ [']'], ?_, by decide, by decide⟩
    rw [print, List.cons_append]
  | @object fields _ _ =>
    refine ⟨'{', commaSeparated (printFields fields) ++ ['}'], ?_, by decide, by decide⟩
    rw [print, List.cons_append]

/-- Values are read with some fuel. -/
def ValuesRead (fuel : Nat) : Prop :=
  ∀ j, Printable j → 2 * j.print.length ≤ fuel →
    ∀ rest, EndsNumber rest → value? fuel (j.print ++ rest) = some (j, rest)

/-- Items of arrays are read with some fuel. -/
def ItemsRead (fuel : Nat) : Prop :=
  ∀ items, items ≠ [] → (∀ j ∈ items, Printable j) →
    2 * (commaSeparated (printItems items)).length + 1 ≤ fuel →
      ∀ rest, items? fuel (commaSeparated (printItems items) ++ ']' :: rest) = some (items, rest)

/-- Fields of objects are read with some fuel. -/
def FieldsRead (fuel : Nat) : Prop :=
  ∀ fields, fields ≠ [] → (∀ p ∈ fields, p.1.isSome = true) → (∀ p ∈ fields, Printable p.2) →
    2 * (commaSeparated (printFields fields)).length + 1 ≤ fuel →
      ∀ rest, fields? fuel (commaSeparated (printFields fields) ++ '}' :: rest) =
        some (fields, rest)

theorem endsNumber_cons {c : Char} (h : c = ',' ∨ c = ']' ∨ c = '}') (cs : List Char) :
    EndsNumber (c :: cs) := by
  rintro _ ⟨⟩
  rcases h with rfl | rfl | rfl <;> decide

theorem items_two_print (j k : Json) (others : List Json) :
    commaSeparated (printItems (j :: k :: others)) =
      j.print ++ ',' :: commaSeparated (printItems (k :: others)) := by
  simp only [printItems, commaSeparated]

theorem fields_two_print (name : Option String) (v : Json) (p : Option String × Json)
    (others : List (Option String × Json)) :
    commaSeparated (printFields ((name, v) :: p :: others)) =
      quote (name.getD "") ++ ':' ::
        (v.print ++ ',' :: commaSeparated (printFields (p :: others))) := by
  simp [printFields, commaSeparated]

theorem itemsRead_succ {fuel : Nat} (hv : ValuesRead fuel) (hi : ItemsRead fuel) :
    ItemsRead (fuel + 1) := by
  have hclose : ∀ cs, skipSpaces (']' :: cs) = ']' :: cs := skipSpaces_cons (by decide)
  have hcomma : ∀ cs, skipSpaces (',' :: cs) = ',' :: cs := skipSpaces_cons (by decide)
  intro items hne hitems hlen rest
  match items, hne with
  | [j], _ =>
    -- the bracket behind the only item ends a number
    simp only [printItems, commaSeparated] at hlen ⊢
    have hread := hv j (hitems j (by simp)) (by omega) (']' :: rest)
      (endsNumber_cons (by simp) rest)
    simp only [items?, hread, hclose, Option.bind_eq_bind, Option.bind_some]
    rfl
  | j :: k :: others, _ =>
    rw [items_two_print] at hlen ⊢
    rw [List.length_append, List.length_cons] at hlen
    have hread := hv j (hitems j (by simp)) (by omega)
      (',' :: (commaSeparated (printItems (k :: others)) ++ ']' :: rest))
      (endsNumber_cons (by simp) _)
    have hothers := hi (k :: others) (by simp) (fun i h => hitems i (List.mem_cons_of_mem j h))
      (by omega) rest
    rw [List.append_assoc, List.cons_append, items?, hread]
    simp only [Option.bind_eq_bind, Option.bind_some, hcomma, hothers]
    rfl

theorem fieldsRead_succ {fuel : Nat} (hv : ValuesRead fuel) (hf : FieldsRead fuel) :
    FieldsRead (fuel + 1) := by
  have hclose : ∀ cs, skipSpaces ('}' :: cs) = '}' :: cs := skipSpaces_cons (by decide)
  have hcomma : ∀ cs, skipSpaces (',' :: cs) = ',' :: cs := skipSpaces_cons (by decide)
  have hcolon : ∀ cs, skipSpaces (':' :: cs) = ':' :: cs := skipSpaces_cons (by decide)
  have hquote : ∀ cs, skipSpaces ('"' :: cs) = '"' :: cs := skipSpaces_cons (by decide)
  intro fields hne hnames hfields hlen rest
  match fields, hne with
  | [(some name, v)], _ =>
    simp only [printFields, commaSeparated, Option.getD_some, List.length_append,
      List.length_cons] at hlen ⊢
    have hread := hv v (hfields _ List.mem_cons_self) (by omega) ('}' :: rest)
      (endsNumber_cons (by simp) rest)
    rw [List.append_assoc, quote_append, List.cons_append, fields?]
    simp only [hquote, string?_quote, hcolon, hread, hclose, Option.bind_eq_bind, Option.bind_some]
    rfl
  | (some name, v) :: p :: others, _ =>
    rw [fields_two_print] at hlen ⊢
    simp only [Option.getD_some, List.length_append, List.length_cons] at hlen ⊢
    have hread := hv v (hfields _ List.mem_cons_self) (by omega)
      (',' :: (commaSeparated (printFields (p :: others)) ++ '}' :: rest))
      (endsNumber_cons (by simp) _)
    have hothers := hf (p :: others) (by simp)
      (fun q h => hnames q (List.mem_cons_of_mem _ h))
      (fun q h => hfields q (List.mem_cons_of_mem _ h)) (by omega) rest
    rw [List.append_assoc, quote_append, List.cons_append, List.append_assoc, List.cons_append,
      fields?]
    simp only [hquote, string?_quote, hcolon, hread, hcomma, hothers, Option.bind_eq_bind,
      Option.bind_some]
    rfl
  | (none, v) :: _, _ =>
    exact absurd (hnames _ List.mem_cons_self) (by simp)

/-- The text of some items begins neither with a blank nor with the closing bracket. -/
theorem exists_items_eq_cons {items : List Json} (hne : items ≠ [])
    (h : ∀ j ∈ items, Printable j) :
    ∃ c cs, commaSeparated (printItems items) = c :: cs ∧ isSpace c = false ∧ c ≠ ']' := by
  match items, hne with
  | [j], _ => simpa only [printItems, commaSeparated] using (h j (by simp)).exists_print_eq_cons
  | j :: k :: others, _ =>
    obtain ⟨c, cs, hcs, hc⟩ := (h j (by simp)).exists_print_eq_cons
    refine ⟨c, cs ++ ',' :: commaSeparated (printItems (k :: others)), ?_, hc⟩
    rw [items_two_print, hcs, List.cons_append]

/-- The text of some fields begins with a quote. -/
theorem exists_fields_eq_cons {fields : List (Option String × Json)} (hne : fields ≠ []) :
    ∃ cs, commaSeparated (printFields fields) = '"' :: cs := by
  match fields, hne with
  | [(name, v)], _ => simp [printFields, commaSeparated, quote]
  | (name, v) :: p :: others, _ => simp [fields_two_print, quote]

theorem after?_append (word cs : List Char) : after? word (word ++ cs) = some cs := by
  simp [after?]

/-- A digit begins a number. -/
theorem value?_digit {c : Char} (hc : c.isDigit = true) (fuel : Nat) (cs : List Char) :
    value? (fuel + 1) (c :: cs) =
      (number? (c :: cs)).map fun (ds, rest) => (.number (.ofList ds), rest) := by
  rw [value?, skipSpaces_cons (isSpace_of_isDigit hc)]
  split
  case h_1 heq => cases heq
  case h_8 => rfl
  all_goals
    rename_i heq
    cases heq
    cases hc

theorem value?_null (fuel : Nat) (rest : List Char) :
    value? (fuel + 1) (Json.null.print ++ rest) = some (.null, rest) := by
  have hword : Json.null.print ++ rest = 'n' :: ("ull".toList ++ rest) := by
    rw [print]
    rfl
  rw [hword, value?, skipSpaces_cons (by decide)]
  simp only [after?_append]
  rfl

theorem value?_bool (b : Bool) (fuel : Nat) (rest : List Char) :
    value? (fuel + 1) ((Json.bool b).print ++ rest) = some (.bool b, rest) := by
  cases b with
  | false =>
    have hword : (Json.bool false).print ++ rest = 'f' :: ("alse".toList ++ rest) := by
      rw [print]
      rfl
    rw [hword, value?, skipSpaces_cons (by decide)]
    simp only [after?_append]
    rfl
  | true =>
    have hword : (Json.bool true).print ++ rest = 't' :: ("rue".toList ++ rest) := by
      rw [print]
      rfl
    rw [hword, value?, skipSpaces_cons (by decide)]
    simp only [after?_append]
    rfl

theorem value?_nat (n fuel : Nat) {rest : List Char} (hrest : EndsNumber rest) :
    value? (fuel + 1) ((Json.nat n).print ++ rest) = some (.nat n, rest) := by
  have hnumber := number?_repr n hrest
  obtain ⟨c, cs, hcs, hc⟩ := exists_repr_eq_cons n
  rw [Json.nat, print]
  rw [hcs, List.cons_append] at hnumber ⊢
  rw [value?_digit hc, hnumber, ← hcs, Option.map_some]
  simp only [String.ofList_toList]

theorem value?_text (s : String) (fuel : Nat) (rest : List Char) :
    value? (fuel + 1) ((Json.text s).print ++ rest) = some (.text s, rest) := by
  rw [print_text, quote_append, value?, skipSpaces_cons (by decide)]
  simp only [string?_quote]
  rfl

theorem value?_array {items : List Json} {fuel : Nat} (hi : ItemsRead fuel)
    (hitems : ∀ j ∈ items, Printable j) (hlen : 2 * (Json.array items).print.length ≤ fuel + 1)
    (rest : List Char) :
    value? (fuel + 1) ((Json.array items).print ++ rest) = some (.array items, rest) := by
  have hopen : (Json.array items).print ++ rest =
      '[' :: (commaSeparated (printItems items) ++ ']' :: rest) := by
    simp [print]
  rw [hopen, value?, skipSpaces_cons (by decide)]
  by_cases hne : items = []
  · subst hne
    simp only [printItems, commaSeparated, List.nil_append]
    rw [skipSpaces_cons (by decide)]
    rfl
  · obtain ⟨c, cs, hcs, hspace, hbracket⟩ := exists_items_eq_cons hne hitems
    have hread := hi items hne hitems (by simp [print] at hlen; omega) rest
    rw [hcs, List.cons_append] at hread ⊢
    simp only [skipSpaces_cons hspace]
    split
    · next heq =>
      cases heq
      exact absurd rfl hbracket
    · rw [hread]
      rfl

theorem value?_object {fields : List (Option String × Json)} {fuel : Nat} (hf : FieldsRead fuel)
    (hnames : ∀ p ∈ fields, p.1.isSome = true) (hfields : ∀ p ∈ fields, Printable p.2)
    (hlen : 2 * (Json.object fields).print.length ≤ fuel + 1) (rest : List Char) :
    value? (fuel + 1) ((Json.object fields).print ++ rest) = some (.object fields, rest) := by
  have hopen : (Json.object fields).print ++ rest =
      '{' :: (commaSeparated (printFields fields) ++ '}' :: rest) := by
    simp [print]
  rw [hopen, value?, skipSpaces_cons (by decide)]
  by_cases hne : fields = []
  · subst hne
    simp only [printFields, commaSeparated, List.nil_append]
    rw [skipSpaces_cons (by decide)]
    rfl
  · obtain ⟨cs, hcs⟩ := exists_fields_eq_cons hne
    have hread := hf fields hne hnames hfields (by simp [print] at hlen; omega) rest
    have hquote : ∀ cs, skipSpaces ('"' :: cs) = '"' :: cs := skipSpaces_cons (by decide)
    rw [hcs, List.cons_append] at hread ⊢
    simp only [hquote]
    split
    · next heq => cases heq
    · rw [hread]
      rfl

theorem valuesRead_succ {fuel : Nat} (hi : ItemsRead fuel) (hf : FieldsRead fuel) :
    ValuesRead (fuel + 1) := by
  intro j hj hlen rest hrest
  cases hj with
  | null => exact value?_null fuel rest
  | bool b => exact value?_bool b fuel rest
  | nat n => exact value?_nat n fuel hrest
  | text s => exact value?_text s fuel rest
  | array hitems => exact value?_array hi hitems hlen rest
  | object hnames hfields => exact value?_object hf hnames hfields hlen rest

/-- No part of a value needs more fuel than twice the length of its text.  The induction is on the
fuel, since reading a value, some items or some fields each takes one unit of it. -/
theorem values_items_fields_read (fuel : Nat) :
    ValuesRead fuel ∧ ItemsRead fuel ∧ FieldsRead fuel := by
  induction fuel with
  | zero =>
    refine ⟨?_, ?_, ?_⟩
    · intro j hj hlen
      obtain ⟨c, cs, hcs, -⟩ := hj.exists_print_eq_cons
      rw [hcs] at hlen
      simp at hlen
    · intro items _ _ hlen
      omega
    · intro fields _ _ _ hlen
      omega
  | succ fuel ih =>
    obtain ⟨hv, hi, hf⟩ := ih
    exact ⟨valuesRead_succ hi hf, itemsRead_succ hv hi, fieldsRead_succ hv hf⟩

/-- **A value is found again at the start of its text.** -/
theorem value?_print {j : Json} (hj : Printable j) {fuel : Nat}
    (hfuel : 2 * j.print.length ≤ fuel) {rest : List Char} (hrest : EndsNumber rest) :
    value? fuel (j.print ++ rest) = some (j, rest) :=
  (values_items_fields_read fuel).1 j hj hfuel rest hrest

/-- **A rendered value is read back.** -/
theorem parse_render {j : Json} (hj : Printable j) : parse j.render = some j := by
  have hend : EndsNumber [] := by simp [EndsNumber]
  have hread := value?_print hj (Nat.le_add_right _ 2) hend
  rw [List.append_nil] at hread
  rw [parse, render, String.toList_ofList, parseChars, hread]
  rfl

end Json

end Abacus
