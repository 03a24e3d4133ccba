import Abacus.Proofs.Keypad.NumberText
import Abacus.Proofs.Keypad.Run

/-!
# Entering operands

An operand is entered by digits, points and backspaces, the first of which is not a backspace
(`Entry`).  `Entry.numeral` is the numeral that these keys spell.  It is plain: it has no zero in
front of other digits and at most one point (`Entry.isPlain_numeral`), so it is read as a number
(`Entry.read?_numeral`).  A keypad that begins a new operand shows exactly this numeral afterwards
and has changed nothing else (`Entry.foldl_apply_events`).
-/

namespace Abacus

namespace Keypad

/-! ### Plain numerals -/

/-- The digits before the point: a zero alone, or digits that do not begin with zero. -/
inductive IsWhole : List Char → Prop
  | zero : IsWhole ['0']
  | digits {c : Char} {cs : List Char} : c.isDigit = true → c ≠ '0' →
      (∀ d ∈ cs, d.isDigit = true) → IsWhole (c :: cs)

/-- The texts that match `(0|[1-9][0-9]*)(\.[0-9]*)?`. -/
inductive IsPlain : List Char → Prop
  | whole {cs : List Char} : IsWhole cs → IsPlain cs
  | point {cs ds : List Char} : IsWhole cs → (∀ d ∈ ds, d.isDigit = true) →
      IsPlain (cs ++ '.' :: ds)

theorem IsWhole.ne_nil {cs : List Char} (h : IsWhole cs) : cs ≠ [] := by
  cases h <;> simp

theorem IsWhole.isDigit {cs : List Char} (h : IsWhole cs) : ∀ c ∈ cs, c.isDigit = true := by
  intro c hc
  cases h with
  | zero => rw [List.mem_singleton.1 hc]; decide
  | digits hd _ hds => exact (List.mem_cons.1 hc).elim (fun h => h ▸ hd) (hds c)

/-- A plain numeral is a written number without a sign and an exponent. -/
theorem IsPlain.exists_figures {cs : List Char} (h : IsPlain cs) :
    ∃ f : Figures, cs = f.text := by
  cases h with
  | whole hw =>
    refine ⟨{ whole := cs, whole_ne_nil := hw.ne_nil, whole_digits := hw.isDigit }, ?_⟩
    simp [Figures.text, Figures.unsigned, Figures.fractionText, Figures.powerText]
  | @point ws ds hw hds =>
    refine ⟨{
      whole := ws
      fraction := some ds
      whole_ne_nil := hw.ne_nil
      whole_digits := hw.isDigit
      fraction_digits := by rintro _ ⟨⟩; exact hds
      }, ?_⟩
    simp [Figures.text, Figures.unsigned, Figures.fractionText, Figures.powerText]

theorem IsPlain.ne_errorText {cs : List Char} (h : IsPlain cs) : .ofList cs ≠ errorText :=
  IsWritten.ne_errorText (.inr h.exists_figures)

/-! ### Keys that edit an operand -/

/-- A key that edits an operand. -/
inductive EntryKey
  | digit (value : Nat)
  | point
  | backspace
deriving DecidableEq, Repr

namespace EntryKey

/-- The event of such a key. -/
def event : EntryKey → Event
  | digit value => .digit value
  | point => .point
  | backspace => .backspace

/-- What a key makes of a numeral: a digit takes the place of a lone zero, a second point is
ignored, and the last character of all becomes a zero when it is taken back. -/
def edit (cs : List Char) : EntryKey → List Char
  | digit value => if cs = ['0'] then [State.digitChar value] else cs ++ [State.digitChar value]
  | point => if '.' ∈ cs then cs else cs ++ ['.']
  | backspace => if 1 < cs.length then cs.dropLast else ['0']

end EntryKey

theorem isWhole_singleton {c : Char} (h : c.isDigit = true) : IsWhole [c] := by
  by_cases hc : c = '0'
  · exact hc ▸ .zero
  · exact .digits h hc (by simp)

theorem isPlain_edit_digit {cs : List Char} (h : IsPlain cs) (value : Nat) :
    IsPlain ((EntryKey.digit value).edit cs) := by
  have hd := isDigit_digitChar value
  simp only [EntryKey.edit]
  split
  · exact .whole (isWhole_singleton hd)
  · next hne =>
    cases h with
    | whole hw =>
      cases hw with
      | zero => exact absurd rfl hne
      | digits hc hc₀ hcs =>
        refine .whole (.digits hc hc₀ fun d hdm => ?_)
        exact (List.mem_append.1 hdm).elim (hcs d) fun h => List.mem_singleton.1 h ▸ hd
    | @point ws ds hw hds =>
      rw [List.append_assoc, List.cons_append]
      refine .point hw fun d hdm => ?_
      exact (List.mem_append.1 hdm).elim (hds d) fun h => List.mem_singleton.1 h ▸ hd

theorem isPlain_edit_point {cs : List Char} (h : IsPlain cs) :
    IsPlain (EntryKey.point.edit cs) := by
  simp only [EntryKey.edit]
  split
  · exact h
  · next hp =>
    cases h with
    | whole hw => exact .point hw (by simp)
    | point _ _ => exact absurd (by simp) hp

theorem isPlain_edit_backspace {cs : List Char} (h : IsPlain cs) :
    IsPlain (EntryKey.backspace.edit cs) := by
  simp only [EntryKey.edit]
  split
  · next hlen =>
    cases h with
    | whole hw =>
      cases hw with
      | zero => simp at hlen
      | @digits c ds hc hc₀ hds =>
        have hne : ds ≠ [] := by rintro rfl; simp at hlen
        rw [List.dropLast_cons_of_ne_nil hne]
        exact .whole (.digits hc hc₀ fun d hd => hds d (List.dropLast_subset _ hd))
    | @point ws ds hw hds =>
      rw [List.dropLast_append_of_ne_nil (by simp)]
      cases ds with
      | nil => simpa using .whole hw
      | cons d ds =>
        rw [List.dropLast_cons_of_ne_nil (by simp)]
        exact .point hw fun x hx => hds x (List.dropLast_subset _ hx)
  · exact .whole .zero

theorem isPlain_edit {cs : List Char} (h : IsPlain cs) (k : EntryKey) : IsPlain (k.edit cs) := by
  cases k with
  | digit value => exact isPlain_edit_digit h value
  | point => exact isPlain_edit_point h
  | backspace => exact isPlain_edit_backspace h

theorem isPlain_foldl_edit {cs : List Char} (h : IsPlain cs) (ks : List EntryKey) :
    IsPlain (ks.foldl EntryKey.edit cs) := by
  induction ks generalizing cs with
  | nil => exact h
  | cons k ks ih => exact ih (isPlain_edit h k)

/-! ### Entries -/

/-- The keys that enter an operand; a backspace cannot be the first. -/
structure Entry where
  first : EntryKey
  rest : List EntryKey := []
  first_ne_backspace : first ≠ .backspace := by decide

namespace Entry

/-- The events of an entry. -/
def events (e : Entry) : List Event :=
  (e.first :: e.rest).map EntryKey.event

/-- The numeral that an entry spells. -/
def numeral (e : Entry) : List Char :=
  (e.first :: e.rest).foldl EntryKey.edit ['0']

/-- The number that an entry spells. -/
def value (e : Entry) : Float :=
  (Numeral.read? e.numeral).getD notANumber

theorem isPlain_numeral (e : Entry) : IsPlain e.numeral :=
  isPlain_foldl_edit (.whole .zero) _

theorem read?_numeral (e : Entry) : Numeral.read? e.numeral = some e.value := by
  obtain ⟨f, hf⟩ := e.isPlain_numeral.exists_figures
  obtain ⟨x, hx⟩ := Option.isSome_iff_exists.1 f.isSome_read?_text
  rw [value, hf, hx]
  rfl

theorem clear_not_mem_events (e : Entry) : Event.clear ∉ e.events := by
  simp only [events, List.mem_map, not_exists, not_and]
  rintro k - h
  cases k <;> cases h

end Entry

/-! ### Entries on a keypad -/

/-- A key that edits a text on the display edits it as a numeral. -/
theorem apply_event {s : State} (he : s.isError = false) (ha : s.awaiting = false) (k : EntryKey) :
    s.apply k.event = { s with display := .ofList (k.edit s.display.toList) } := by
  have hz : (s.display == "0") = decide (s.display.toList = ['0']) := by
    rw [Bool.eq_iff_iff, beq_iff_eq, decide_eq_true_eq, ← String.toList_inj]
    rfl
  rw [apply_of_not_isError he]
  cases k with
  | digit value =>
    simp only [EntryKey.event, State.enterDigit, ha, hz, EntryKey.edit, decide_eq_true_eq,
      Bool.false_eq_true, ↓reduceIte]
    split
    · rfl
    · rw [String.ofList_append, String.ofList_toList]; rfl
  | point =>
    simp only [EntryKey.event, State.enterPoint, ha, EntryKey.edit, List.contains_iff_mem,
      Bool.false_eq_true, ↓reduceIte]
    split
    · rw [String.ofList_toList, ← ha]
    · rw [String.ofList_append, String.ofList_toList]; rfl
  | backspace =>
    simp only [EntryKey.event, State.erase, EntryKey.edit]
    split
    · rfl
    · rfl

/-- The first key of an operand replaces the text on the display. -/
theorem apply_event_of_awaiting {s : State} (he : s.isError = false) (ha : s.awaiting = true)
    {k : EntryKey} (hk : k ≠ .backspace) :
    s.apply k.event = { s with display := .ofList (k.edit ['0']), awaiting := false } := by
  rw [apply_of_not_isError he]
  cases k with
  | digit value =>
    simp only [EntryKey.event, State.enterDigit, ha, EntryKey.edit, ↓reduceIte]
    rw [String.singleton_eq_ofList]
  | point => simp [EntryKey.event, State.enterPoint, ha, EntryKey.edit]
  | backspace => exact absurd rfl hk

theorem foldl_apply_edits {s : State} (hp : IsPlain s.display.toList) (ha : s.awaiting = false)
    (ks : List EntryKey) :
    (ks.map EntryKey.event).foldl State.apply s =
      { s with display := .ofList (ks.foldl EntryKey.edit s.display.toList) } := by
  induction ks generalizing s with
  | nil => simp
  | cons k ks ih =>
    have he : s.isError = false := by
      rw [isError_eq_false_iff, ← String.ofList_toList (s := s.display)]
      exact hp.ne_errorText
    rw [List.map_cons, List.foldl_cons, apply_event he ha k, ih]
    · simp
    · simpa using isPlain_edit hp k
    · exact ha

/-- **An entry leaves its numeral on the display of a keypad that begins an operand.** -/
theorem Entry.foldl_apply_events (e : Entry) {s : State} (he : s.isError = false)
    (hs : s.awaiting = true ∨ s.display = "0") :
    e.events.foldl State.apply s =
      { s with display := .ofList e.numeral, awaiting := false } := by
  have hfirst : s.apply e.first.event =
      { s with display := .ofList (e.first.edit ['0']), awaiting := false } := by
    cases ha : s.awaiting with
    | true => exact apply_event_of_awaiting he ha e.first_ne_backspace
    | false =>
      have hz : s.display = "0" := hs.resolve_left (by simp [ha])
      rw [apply_event he ha, hz, ← ha]
      rfl
  rw [events, List.map_cons, List.foldl_cons, hfirst, foldl_apply_edits]
  · simp [numeral]
  · simpa using isPlain_edit (.whole .zero) e.first
  · rfl

end Keypad

end Abacus
