import Abacus.Input
import Abacus.Proofs.Text.Bytes

/-!
# Editing the input line

The input line is a text in three parts: what stands before the selection, what is selected, and what
comes after it (`Input.parts`).  Whatever is done to a new line, the positions where the selection
starts and stops are the lengths of these parts, and each edit does to the line what it does to the
three parts (`Input.refines_parts`).  A key puts its text in the place of the selected part; of a key
for a function the closing bracket goes to the part after the selection, so the caret comes to stand
in front of it.

The invariant is that the selection is in order and lies in the text (`Input.InText`).  With it the
positions, which count characters, give a range of bytes that begins and ends between characters
(`Input.InText.replaceRange?_eq`), for the number of bytes before a position is the size of a part
of the text.
-/

namespace Abacus

namespace Input

open Text

/-! ### Edits -/

/-- An edit of the input line. -/
inductive Edit
  /-- Types a text over the selection. -/
  | insert (text : String)
  | setText (text : String)
  | clear
  | setCaret (position : Nat)
  | select (a b : Nat)
deriving DecidableEq, Repr

/-- The input line after an edit. -/
def edit (i : Input) : Edit → Input
  | .insert text => i.insert text
  | .setText text => i.setText text
  | .clear => i.clear
  | .setCaret position => i.setCaret position
  | .select a b => i.select a b

/-- A new input line after some edits. -/
def typed (edits : List Edit) : Input :=
  edits.foldl edit {}

/-- The selection is in order and lies in the text. -/
structure InText (i : Input) : Prop where
  start_le_stop : i.start ≤ i.stop
  stop_le_length : i.stop ≤ i.text.length

variable {i : Input}

theorem InText.new : InText {} :=
  ⟨Nat.le_refl 0, Nat.le_refl 0⟩

theorem length_before (h : i.InText) : i.before.length = i.start := by
  have hstart := Nat.le_trans h.start_le_stop h.stop_le_length
  rw [before, List.length_take, String.length_toList, Nat.min_eq_left hstart]

theorem length_insert (h : i.InText) (key : String) :
    (i.insert key).text.length = i.start + key.length + (i.text.length - i.stop) := by
  rw [← String.length_toList, toList_insert, List.length_append, List.length_append,
    length_before h, after, List.length_drop, String.length_toList, String.length_toList]

theorem InText.insert (h : i.InText) (key : String) : (i.insert key).InText := by
  refine ⟨Nat.le_refl _, ?_⟩
  have hlength := length_insert h key
  have hkey : key.toList.length = key.length := String.length_toList
  have hcaret : (i.insert key).stop ≤ i.start + key.toList.length := by
    simp only [Input.insert]
    split <;> omega
  omega

/-- **Every edit keeps the selection in the text.** -/
theorem InText.edit (h : i.InText) : ∀ e : Edit, (i.edit e).InText
  | .insert text => h.insert text
  | .setText _ => ⟨Nat.le_refl _, Nat.le_refl _⟩
  | .clear => ⟨Nat.le_refl _, Nat.le_refl _⟩
  | .setCaret position =>
    ⟨start_le_stop_select i position position, stop_select_le i position position⟩
  | .select a b => ⟨start_le_stop_select i a b, stop_select_le i a b⟩

theorem inText_foldl (h : i.InText) (edits : List Edit) : (edits.foldl Input.edit i).InText := by
  induction edits generalizing i with
  | nil => exact h
  | cons e edits ih => exact ih (h.edit e)

/-! ### Three parts -/

/-- A text in three parts. -/
structure Parts where
  before : List Char := []
  selected : List Char := []
  after : List Char := []
deriving DecidableEq

namespace Parts

/-- The whole text. -/
def text (p : Parts) : List Char :=
  p.before ++ p.selected ++ p.after

/-- A text cut at two positions. -/
def cut (text : List Char) (start stop : Nat) : Parts :=
  ⟨text.take start, (text.take stop).drop start, text.drop stop⟩

/-- The parts with the text of a key for the selected one.  A closing bracket right behind its
opening one goes to the part after the selection. -/
def insert (p : Parts) (key : List Char) : Parts :=
  if ['(', ')'] <:+ key then ⟨p.before ++ key.dropLast, [], ')' :: p.after⟩
  else ⟨p.before ++ key, [], p.after⟩

/-- The parts after an edit. -/
def edit (p : Parts) : Edit → Parts
  | .insert key => p.insert key.toList
  | .setText text => ⟨text.toList, [], []⟩
  | .clear => {}
  | .setCaret position => cut p.text position position
  | .select a b => cut p.text (min a b) (max a b)

theorem text_cut (text : List Char) {start stop : Nat} (h : start ≤ stop) :
    (cut text start stop).text = text := by
  rw [Parts.text, cut, Text.take_append_drop_take text h, List.take_append_drop]

/-- Positions behind the end cut where the text ends. -/
theorem cut_min_length (text : List Char) (start stop : Nat) :
    cut text (min start text.length) (min stop text.length) = cut text start stop := by
  have htake : ∀ n, text.take (min n text.length) = text.take n := fun n =>
    List.take_eq_take_min.symm
  have hdrop : ∀ {n} {cs : List Char}, cs.length ≤ text.length →
      cs.drop (min n text.length) = cs.drop n := by
    intro n cs hcs
    rcases Nat.le_total n text.length with hn | hn
    · rw [Nat.min_eq_left hn]
    · rw [Nat.min_eq_right hn, List.drop_eq_nil_of_le hcs,
        List.drop_eq_nil_of_le (Nat.le_trans hcs hn)]
  rw [cut, cut, htake, htake, hdrop (List.length_take_le' stop text), hdrop (Nat.le_refl _)]

end Parts

/-- The three parts of the input line. -/
def parts (i : Input) : Parts :=
  ⟨i.before, i.selected, i.after⟩

theorem parts_eq_cut (i : Input) : i.parts = Parts.cut i.text.toList i.start i.stop := rfl

theorem text_parts (h : i.InText) : i.parts.text = i.text.toList :=
  Parts.text_cut i.text.toList h.start_le_stop

theorem parts_select (i : Input) (a b : Nat) :
    (i.select a b).parts = Parts.cut i.text.toList (min a b) (max a b) := by
  have hstart : (i.select a b).start = min (min a b) i.text.toList.length := by
    simp only [select, String.length_toList]
    omega
  have hstop : (i.select a b).stop = min (max a b) i.text.toList.length := by
    simp only [select, String.length_toList]
    omega
  rw [parts_eq_cut, hstart, hstop]
  exact Parts.cut_min_length i.text.toList (min a b) (max a b)

theorem isCall_iff {key : List Char} : isCall key = true ↔ ['(', ')'] <:+ key :=
  List.isSuffixOf_iff_suffix

/-- A text cut behind one of its parts. -/
theorem parts_of_caret {i : Input} {left right : List Char} (htext : i.text.toList = left ++ right)
    (hstart : i.start = left.length) (hstop : i.stop = left.length) :
    i.parts = ⟨left, [], right⟩ := by
  rw [parts_eq_cut, htext, hstart, hstop, Parts.cut]
  simp

/-- **A key is put in the place of the selected part.** -/
theorem parts_insert (h : i.InText) (key : String) :
    (i.insert key).parts = i.parts.insert key.toList := by
  have htext := toList_insert i key
  unfold Parts.insert
  split
  · next hcall =>
    -- the caret stands in front of the last character
    obtain ⟨name, hname⟩ := hcall
    have hkey : key.toList = key.toList.dropLast ++ [')'] := by
      rw [← hname]
      simp
    have hcaret : (i.insert key).start = (i.before ++ key.toList.dropLast).length := by
      simp [Input.insert, isCall_iff.2 ⟨name, hname⟩, length_before h]
    refine parts_of_caret ?_ hcaret hcaret
    rw [htext, hkey]
    simp [parts]
  · next hcall =>
    have hcaret : (i.insert key).start = (i.before ++ key.toList).length := by
      simp [Input.insert, isCall_iff, hcall, length_before h]
    exact parts_of_caret htext hcaret hcaret

/-- **An edit does to the line what it does to its parts.** -/
theorem parts_edit (h : i.InText) : ∀ e : Edit, (i.edit e).parts = i.parts.edit e
  | .insert key => parts_insert h key
  | .setText text => by
    refine parts_of_caret (i := i.setText text) (List.append_nil _).symm ?_ ?_
    all_goals exact String.length_toList.symm
  | .clear => rfl
  | .setCaret position => by
    rw [Parts.edit, text_parts h, Input.edit, setCaret, parts_select, Nat.min_self, Nat.max_self]
  | .select a b => by
    rw [Parts.edit, text_parts h]
    exact parts_select i a b

theorem parts_foldl (h : i.InText) (edits : List Edit) :
    (edits.foldl Input.edit i).parts = edits.foldl Parts.edit i.parts := by
  induction edits generalizing i with
  | nil => rfl
  | cons e edits ih =>
    rw [List.foldl_cons, List.foldl_cons, ih (h.edit e), parts_edit h e]

/-! ### Bytes -/

/-- **The range of bytes that a key replaces can be replaced**, and that is what the key does. -/
theorem InText.replaceRange?_eq (h : i.InText) (key : String) :
    replaceRange? i.text (byteOffset i.text i.start) (byteOffset i.text i.stop) key =
      some (i.insert key).text := by
  have hresult : (i.insert key).text =
      String.ofList i.before ++ key ++ String.ofList i.after := by
    rw [← String.toList_inj, toList_insert]
    simp
  rw [replaceRange?, if_pos]
  · rw [(toUTF8_cut i.text i.start).1, (toUTF8_cut i.text i.stop).2, hresult,
      ← fromUTF8?_toUTF8]
    congr 1
  · exact ⟨byteOffset_mono i.text h.start_le_stop,
      String.Pos.Raw.isValid_eq_true_iff.2 (isValid_byteOffset i.text i.start),
      String.Pos.Raw.isValid_eq_true_iff.2 (isValid_byteOffset i.text i.stop)⟩

/-! ### Any edits -/

/-- **The input line is a text in three parts**, and edits act on the parts.  A key that is pressed
next puts its text between the first part and the last one, selects nothing, and leaves the caret
behind this text, or in front of its last bracket if it ends with a pair of them; the bytes that it
replaces begin and end between characters, in this order. -/
theorem refines_parts (edits : List Edit) :
    let i := typed edits
    i.start ≤ i.stop ∧ i.stop ≤ i.text.length ∧
      i.parts = edits.foldl Parts.edit {} ∧ i.parts.text = i.text.toList ∧
      i.before.length = i.start ∧ i.before.length + i.selected.length = i.stop ∧
      ∀ key, let k := i.insert key
        byteOffset i.text i.start ≤ byteOffset i.text i.stop ∧
        String.Pos.Raw.IsValid i.text ⟨byteOffset i.text i.start⟩ ∧
        String.Pos.Raw.IsValid i.text ⟨byteOffset i.text i.stop⟩ ∧
        replaceRange? i.text (byteOffset i.text i.start) (byteOffset i.text i.stop) key =
          some k.text ∧
        k.text.toList = i.before ++ key.toList ++ i.after ∧ k.selected = [] ∧
        (['(', ')'] <:+ key.toList →
          k.before ++ [')'] = i.before ++ key.toList ∧ k.after = ')' :: i.after) ∧
        (¬ ['(', ')'] <:+ key.toList → k.before = i.before ++ key.toList ∧ k.after = i.after) := by
  intro i
  have h : i.InText := inText_foldl .new edits
  have htext := text_parts h
  have hlength : i.before.length + i.selected.length = i.stop := by
    have hstart := h.start_le_stop
    have hstop := h.stop_le_length
    rw [length_before h, selected, List.length_drop, List.length_take, String.length_toList]
    omega
  refine ⟨h.start_le_stop, h.stop_le_length, parts_foldl .new edits, htext, length_before h,
    hlength, fun key => ?_⟩
  intro k
  have hparts : k.parts = i.parts.insert key.toList := parts_insert h key
  refine ⟨byteOffset_mono i.text h.start_le_stop, isValid_byteOffset i.text i.start,
    isValid_byteOffset i.text i.stop, h.replaceRange?_eq key, toList_insert i key, ?_, ?_, ?_⟩
  · have hselected : k.parts.selected = [] := by
      rw [hparts, Parts.insert]
      split <;> rfl
    exact hselected
  · intro hcall
    rw [Parts.insert, if_pos hcall] at hparts
    obtain ⟨name, hname⟩ := hcall
    have hbefore : k.before = i.before ++ key.toList.dropLast := congrArg Parts.before hparts
    refine ⟨?_, congrArg Parts.after hparts⟩
    rw [hbefore, ← hname]
    simp
  · intro hcall
    rw [Parts.insert, if_neg hcall] at hparts
    exact ⟨congrArg Parts.before hparts, congrArg Parts.after hparts⟩

end Input

end Abacus
