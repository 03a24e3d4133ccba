import Abacus.Proofs.Json.RoundTrip
import Abacus.Proofs.Text.Blank
import Abacus.Store.File
import Mathlib.Data.List.DropRight

/-!
# The text of a store's file

A store's file is read back as the contents that were written to it, whatever texts the keys and
the values are (`Contents.decode?_fileText`).  So opening a store gives the contents whose text is
in the file, and no contents for a text that is not of this form (`value_ofFileText`).

The reader skips the line breaks and the indentation between the entries (`fields?_entryLines`).
The entries are in the order of their keys and have different keys, so putting one after the other
into empty contents gives back just these entries (`Contents.ofList_entries`).
-/

namespace Abacus

open Json

namespace Store

/-! ### Entries -/

theorem insertEntry_concat {key value : String} {es : List (String × String)}
    (h : ∀ e ∈ es, e.1 < key) : insertEntry key value es = es ++ [(key, value)] := by
  induction es with
  | nil => rfl
  | cons e es ih =>
    obtain ⟨k, v⟩ := e
    have hk : k < key := h (k, v) List.mem_cons_self
    have hlt : ¬ key < k := fun hlt => String.lt_irrefl k (String.lt_trans hk hlt)
    have hne : key ≠ k := by
      rintro rfl
      exact String.lt_irrefl key hk
    rw [insertEntry, if_neg hlt, if_neg hne, ih fun e he => h e (List.mem_cons_of_mem _ he)]
    rfl

namespace Contents

theorem entries_foldl_insert (c : Contents) {es : List (String × String)}
    (h : (c.entries ++ es).Pairwise fun a b => a.1 < b.1) :
    (es.foldl (fun c e => c.insert e.1 e.2) c).entries = c.entries ++ es := by
  induction es generalizing c with
  | nil => simp
  | cons e es ih =>
    have hfirst : (c.insert e.1 e.2).entries = c.entries ++ [e] := by
      refine insertEntry_concat fun d hd => ?_
      exact (List.pairwise_append.1 h).2.2 d hd e List.mem_cons_self
    rw [List.foldl_cons, ih _ (by simpa [hfirst] using h), hfirst]
    simp

/-- Contents are made of their own entries. -/
theorem ofList_entries (c : Contents) : ofList c.entries = c := by
  have hentries : (ofList c.entries).entries = c.entries :=
    entries_foldl_insert {} (by simpa using c.sorted)
  exact ext_get? fun key => by rw [get?, get?, hentries]

/-- The entries are the texts in an object. -/
theorem ofJson?_object (c : Contents) :
    ofJson? (.object (c.entries.map fun e => (some e.1, text e.2))) = some c := by
  have hentries : (c.entries.map fun e => (some e.1, text e.2)).mapM textEntry? =
      some c.entries := by
    generalize c.entries = es
    induction es with
    | nil => rfl
    | cons e es ih =>
      simp only [List.map_cons, List.mapM_cons, ih]
      rfl
  rw [ofJson?, hentries, Option.map_some, ofList_entries]

end Contents

/-! ### Lines -/

theorem skipSpaces_skipSpaces (cs : List Char) : skipSpaces (skipSpaces cs) = skipSpaces cs :=
  List.dropWhile_idempotent isSpace cs

/-- Blanks in front of the fields of an object do not count. -/
theorem fields?_skipSpaces (fuel : Nat) (cs : List Char) :
    fields? fuel (skipSpaces cs) = fields? fuel cs := by
  cases fuel with
  | zero => rw [fields?, fields?]
  | succ fuel => rw [fields?, fields?, skipSpaces_skipSpaces]

/-- The text of an entry, up to the quote that ends it. -/
theorem entryLine_append (e : String × String) (rest : List Char) :
    entryLine e ++ rest = '\n' :: ' ' :: ' ' :: '"' :: (e.1.toList.flatMap escape ++ '"' :: ':' ::
      ' ' :: '"' :: (e.2.toList.flatMap escape ++ '"' :: rest)) := by
  simp [entryLine, quote]

theorem entryLines_two (e d : String × String) (es : List (String × String)) :
    commaSeparated ((e :: d :: es).map entryLine) =
      entryLine e ++ ',' :: commaSeparated ((d :: es).map entryLine) := by
  simp only [List.map_cons, commaSeparated]

theorem skipSpaces_blank {c : Char} (h : isSpace c = true) (cs : List Char) :
    skipSpaces (c :: cs) = skipSpaces cs := by
  simp [skipSpaces, h]

/-- An object begins with a brace; if a quote follows it has fields. -/
theorem value?_brace {cs rest : List Char} (h : skipSpaces cs = '"' :: rest) (fuel : Nat) :
    value? (fuel + 1) ('{' :: cs) =
      (fields? fuel cs).map fun (fields, rest) => (.object fields, rest) := by
  rw [value?, skipSpaces_cons (by decide), ← fields?_skipSpaces]
  simp only [h]
  split
  · next heq => cases heq
  · rfl

/-- A text in quotes after a blank is a value. -/
theorem value?_quoted (fuel : Nat) (s : String) (rest : List Char) :
    value? (fuel + 1) (' ' :: '"' :: (s.toList.flatMap escape ++ '"' :: rest)) =
      some (text s, rest) := by
  rw [value?, skipSpaces_blank (by decide), skipSpaces_cons (by decide)]
  simp only [string?_quote]
  rfl

/-- **The lines of a file are read as the fields of an object.**  Each entry takes one unit of
fuel, and the value of the last one takes another. -/
theorem fields?_entryLines {es : List (String × String)} (hne : es ≠ []) {fuel : Nat}
    (hfuel : es.length + 1 ≤ fuel) (rest : List Char) :
    fields? fuel (commaSeparated (es.map entryLine) ++ '\n' :: '}' :: rest) =
      some (es.map fun e => (some e.1, text e.2), rest) := by
  have hquote : ∀ cs, skipSpaces ('"' :: cs) = '"' :: cs := skipSpaces_cons (by decide)
  have hcolon : ∀ cs, skipSpaces (':' :: cs) = ':' :: cs := skipSpaces_cons (by decide)
  have hcomma : ∀ cs, skipSpaces (',' :: cs) = ',' :: cs := skipSpaces_cons (by decide)
  have hclose : ∀ cs, skipSpaces ('}' :: cs) = '}' :: cs := skipSpaces_cons (by decide)
  have hline : ∀ cs, skipSpaces ('\n' :: cs) = skipSpaces cs := skipSpaces_blank (by decide)
  have hspace : ∀ cs, skipSpaces (' ' :: cs) = skipSpaces cs := skipSpaces_blank (by decide)
  induction es generalizing fuel with
  | nil => exact absurd rfl hne
  | cons e es ih =>
    obtain ⟨fuel, rfl⟩ : ∃ n, fuel = n + 2 := ⟨fuel - 2, by simp at hfuel; omega⟩
    cases es with
    | nil =>
      simp only [List.map_cons, List.map_nil, commaSeparated]
      rw [entryLine_append, fields?]
      simp only [hline, hspace, hquote, hcolon, hclose, string?_quote, value?_quoted,
        Option.bind_eq_bind, Option.bind_some]
      rfl
    | cons d es =>
      have hmore : (d :: es).length + 1 ≤ fuel + 1 := by
        simp only [List.length_cons] at hfuel ⊢
        omega
      have hothers := ih (by simp) hmore
      rw [entryLines_two, List.append_assoc, List.cons_append, entryLine_append, fields?]
      simp only [hline, hspace, hquote, hcolon, hcomma, string?_quote, value?_quoted, hothers,
        Option.bind_eq_bind, Option.bind_some]
      rfl

theorem length_le_entryLines (es : List (String × String)) :
    es.length ≤ (commaSeparated (es.map entryLine)).length := by
  induction es with
  | nil => simp
  | cons e es ih =>
    cases es with
    | nil => simp [commaSeparated, entryLine, quote]
    | cons d es =>
      simp only [entryLines_two, List.length_append, List.length_cons] at ih ⊢
      omega

/-- The first thing on the lines of a file is a quote. -/
theorem exists_skipSpaces_entryLines {es : List (String × String)} (hne : es ≠ [])
    (rest : List Char) :
    ∃ cs, skipSpaces (commaSeparated (es.map entryLine) ++ rest) = '"' :: cs := by
  have hline : ∀ e rest, ∃ cs, skipSpaces (entryLine e ++ rest) = '"' :: cs := by
    intro e rest
    rw [entryLine_append, skipSpaces_blank (by decide), skipSpaces_blank (by decide),
      skipSpaces_blank (by decide), skipSpaces_cons (by decide)]
    exact ⟨_, rfl⟩
  match es, hne with
  | [e], _ => exact hline e rest
  | e :: d :: es, _ =>
    rw [entryLines_two, List.append_assoc]
    exact hline e _

/-! ### Blank texts -/

theorem number?_eq_none_of_blank {cs : List Char} (h : ∀ c ∈ cs, Text.isBlank c = true) :
    number? cs = none := by
  cases cs with
  | nil => rfl
  | cons c cs =>
    have hc : Text.isBlank c = true := h c List.mem_cons_self
    have hminus : c ≠ '-' := by
      rintro rfl
      exact absurd hc (by decide)
    have hzero : c ≠ '0' := by
      rintro rfl
      exact absurd hc (by decide)
    have hwhole : whole? (c :: cs) = none := by
      simp [whole?, digits?, hzero, Text.isDigit_of_isBlank hc]
    simp [number?, hminus, hwhole]

/-- A text of blanks only is no value. -/
theorem value?_eq_none_of_blank {cs : List Char} (h : ∀ c ∈ cs, Text.isBlank c = true)
    (fuel : Nat) : value? fuel cs = none := by
  have hmem : ∀ c ∈ skipSpaces cs, Text.isBlank c = true := fun c hc =>
    h c ((List.dropWhile_sublist isSpace).subset hc)
  cases fuel with
  | zero => rw [value?]
  | succ fuel =>
    rw [value?]
    split
    case h_1 => rfl
    case h_8 => rw [number?_eq_none_of_blank hmem, Option.map_none]
    all_goals
      next heq =>
      have hblank := hmem _ (heq ▸ List.mem_cons_self)
      exact absurd hblank (by decide)

theorem blank_of_trim_eq_empty {text : String} (h : Text.trim text = "") :
    ∀ c ∈ text.toList, Text.isBlank c = true := by
  have hnil : Text.trimChars text.toList = [] := by
    simpa [Text.trim] using h
  rw [Text.trimChars, Text.trimEnd, List.reverse_eq_nil_iff, List.dropWhile_eq_nil_iff] at hnil
  have hhead := Text.head?_dropWhile_isBlank text.toList
  have hdrop : text.toList.dropWhile Text.isBlank = [] := by
    cases hcs : text.toList.dropWhile Text.isBlank with
    | nil => rfl
    | cons c cs =>
      have hblank : Text.isBlank c = true := hnil c (by simp [hcs])
      have hnot : Text.isBlank c = false := hhead c (by simp [hcs])
      rw [hblank] at hnot
      cases hnot
  exact List.dropWhile_eq_nil_iff.1 hdrop

namespace Contents

/-- The contents that a text stands for, if it is a JSON object of texts. -/
def decode? (text : String) : Option Contents :=
  (Json.parse text).bind ofJson?

theorem parse_fileText (c : Contents) :
    Json.parse c.fileText = some (.object (c.entries.map fun e => (some e.1, text e.2))) := by
  unfold fileText
  by_cases hne : c.entries = []
  · rw [if_pos hne, hne]
    rfl
  · obtain ⟨cs, hcs⟩ := exists_skipSpaces_entryLines hne ['\n', '}']
    have hlength := length_le_entryLines c.entries
    rw [if_neg hne, Json.parse, String.toList_ofList, parseChars, List.cons_append, value?_brace hcs,
      fields?_entryLines hne (by simp; omega)]
    rfl

/-- **A store's file is read back.** -/
theorem decode?_fileText (c : Contents) : decode? c.fileText = some c := by
  rw [decode?, parse_fileText, Option.bind_some, ofJson?_object]

theorem decode?_eq_none_of_blank {text : String} (h : Text.trim text = "") : decode? text = none := by
  rw [decode?, Json.parse, parseChars, value?_eq_none_of_blank (blank_of_trim_eq_empty h)]
  rfl

/-- **The text of a file stands for its contents**, or for none at all. -/
@[simp] theorem value_ofFileText (text : String) :
    (ofFileText text).value = (decode? text).getD {} := by
  unfold ofFileText
  split
  · next h =>
    rw [decode?_eq_none_of_blank h]
    rfl
  · unfold decode?
    cases (Json.parse text).bind ofJson? <;> rfl

end Contents

end Store

end Abacus
