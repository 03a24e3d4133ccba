import Abacus.Proofs.Decimal.Editing
import Abacus.Proofs.Keypad.Entry
import Abacus.Proofs.Keypad.Failure

/-!
# Legible displays

A display is legible if it shows a failure or can be read as a number.  Results and operands are
legible, but a result stays on the display to be edited, and then it may become illegible: `-5`
without its last character is `-`.

`State.Spoils` says which keys do that to which displays, by the characters on the display alone.  A
run shows nothing illegible exactly when none of its keys spoils the display before it
(`legible_iff_not_spoils`).
-/

namespace Abacus

namespace Keypad

/-- The display shows a failure or is read as a number. -/
def State.Legible (s : State) : Prop :=
  s.isError = true ∨ (Numeral.read? s.display.toList).isSome = true

instance (s : State) : Decidable s.Legible :=
  inferInstanceAs (Decidable (_ ∨ _))

/-! ### Texts that a key spoils -/

/-- The text has a last character, and that has the property. -/
def EndsIn (p : Char → Bool) (cs : List Char) : Prop :=
  ∃ c ∈ cs.getLast?, p c = true

/-- The key makes the text illegible: a digit after a letter, a point after an exponent or a word,
or the last character of a word, of an exponent or of a negative number taken back. -/
def EntryKey.Spoils (cs : List Char) : EntryKey → Prop
  | digit _ => EndsIn Char.isAlpha cs
  | point => '.' ∉ cs ∧ ∃ c ∈ cs, c.isAlpha = true
  | backspace => EndsIn Char.isAlpha cs ∨ EndsIn Figures.isSign cs.dropLast

/-- The key edits the display and makes it illegible. -/
def State.Spoils (s : State) (e : Event) : Prop :=
  s.isError = false ∧
    ∃ k : EntryKey, e = k.event ∧ (s.awaiting = false ∨ k = .backspace) ∧
      k.Spoils s.display.toList

@[simp] theorem endsIn_concat {p : Char → Bool} {cs : List Char} {c : Char} :
    EndsIn p (cs ++ [c]) ↔ p c = true := by
  simp [EndsIn]

@[simp] theorem not_endsIn_nil {p : Char → Bool} : ¬ EndsIn p [] := by
  simp [EndsIn]

/-! ### Editing the text of a number -/

/-- What a key does to the text of a number. -/
def EntryKey.Settles (cs : List Char) (k : EntryKey) : Prop :=
  (IsWritten (k.edit cs) ∧ ¬ k.Spoils cs) ∨ (Numeral.read? (k.edit cs) = none ∧ k.Spoils cs)

theorem settles_word {cs : List Char} (h : cs ∈ valueWords) (k : EntryKey) : k.Settles cs := by
  have hlast : EndsIn Char.isAlpha cs := by
    revert cs
    simp [valueWords, EndsIn]
  refine .inr ?_
  cases k with
  | digit value =>
    refine ⟨?_, hlast⟩
    have hdigits : ∀ w ∈ valueWords, ∀ n < 10,
        (Numeral.read? ((EntryKey.digit n).edit w)).isNone = true := by decide +kernel
    have := hdigits cs h (min value 9) (by omega)
    simpa [EntryKey.edit, State.digitChar] using this
  | point =>
    have hwords : ∀ w ∈ valueWords, (Numeral.read? (EntryKey.point.edit w)).isNone = true ∧
        '.' ∉ w ∧ w.any Char.isAlpha = true := by decide +kernel
    obtain ⟨hread, hpoint, hletter⟩ := hwords cs h
    exact ⟨Option.isNone_iff_eq_none.1 hread, hpoint, List.any_eq_true.1 hletter⟩
  | backspace =>
    refine ⟨?_, .inl hlast⟩
    have hwords : ∀ w ∈ valueWords,
        (Numeral.read? (EntryKey.backspace.edit w)).isNone = true := by decide +kernel
    exact Option.isNone_iff_eq_none.1 (hwords cs h)

theorem settles_digit (f : Figures) (value : Nat) : (EntryKey.digit value).Settles f.text := by
  have hd := isDigit_digitChar value
  refine .inl ⟨?_, ?_⟩
  · simp only [EntryKey.edit]
    split
    · exact .inr ⟨.digit _ hd, rfl⟩
    · obtain ⟨g, hg⟩ := f.exists_text_eq_concat_digit hd
      exact .inr ⟨g, hg.symm⟩
  · obtain ⟨cs, c, hc, hletter, -⟩ := f.shortens_text
    rw [EntryKey.Spoils, hc, endsIn_concat, hletter]
    exact Bool.false_ne_true

theorem settles_point (f : Figures) : EntryKey.point.Settles f.text := by
  have hpoint := f.point_mem_text_iff
  have hletter := f.exists_letter_mem_text_iff
  by_cases hf : f.fraction.isSome = true
  · refine .inl ⟨?_, fun h => h.1 (hpoint.2 hf)⟩
    rw [EntryKey.edit, if_pos (hpoint.2 hf)]
    exact .inr ⟨f, rfl⟩
  · have hedit : EntryKey.point.edit f.text = f.text ++ ['.'] := if_neg (mt hpoint.1 hf)
    rw [EntryKey.Settles, hedit, EntryKey.Spoils, hletter]
    by_cases hp : f.power.isSome = true
    · exact .inr ⟨f.read?_concat_point hp, mt hpoint.1 hf, hp⟩
    · obtain ⟨g, hg⟩ := f.exists_text_eq_concat_point (Option.not_isSome_iff_eq_none.1 hf)
        (Option.not_isSome_iff_eq_none.1 hp)
      exact .inl ⟨.inr ⟨g, hg.symm⟩, fun h => hp h.2⟩

theorem settles_backspace (f : Figures) : EntryKey.backspace.Settles f.text := by
  obtain ⟨cs, c, hc, hletter, -, hcs⟩ := f.shortens_text
  have hspoils : EntryKey.backspace.Spoils f.text ↔ EndsIn Figures.isSign cs := by
    rw [EntryKey.Spoils, hc, endsIn_concat, List.dropLast_concat, hletter]
    simp
  rw [EntryKey.Settles, hspoils, EntryKey.edit, hc, List.dropLast_concat]
  rcases hcs with rfl | ⟨bs, b, rfl, hsign, hread⟩ | ⟨g, rfl⟩
  · exact .inl ⟨.inr ⟨.digit '0' (by decide), rfl⟩, not_endsIn_nil⟩
  · rw [if_pos (by simp)]
    exact .inr ⟨hread, endsIn_concat.2 hsign⟩
  · obtain ⟨bs, b, hb, -, hsign, -⟩ := g.shortens_text
    refine .inl ⟨?_, ?_⟩
    · rw [if_pos (by simp [hb])]
      exact .inr ⟨g, rfl⟩
    · rw [hb, endsIn_concat, hsign]
      exact Bool.false_ne_true

/-- **A key on the text of a number leaves one or spoils it.** -/
theorem settles {cs : List Char} (h : IsWritten cs) (k : EntryKey) : k.Settles cs := by
  rcases h with h | ⟨f, rfl⟩
  · exact settles_word h k
  · cases k with
    | digit value => exact settles_digit f value
    | point => exact settles_point f
    | backspace => exact settles_backspace f

/-! ### One key -/

/-- The display shows a failure or the text of a number, edited or not. -/
def State.Written (s : State) : Prop :=
  s.isError = true ∨ IsWritten s.display.toList

theorem State.Written.legible {s : State} (h : s.Written) : s.Legible :=
  h.imp_right IsWritten.isSome_read?

theorem written_resultText {s : State} {r : Option Float} (h : s.display = resultText r) :
    s.Written := by
  cases r with
  | none => exact .inl (by rw [State.isError, h]; rfl)
  | some x => exact .inr (by rw [h]; exact isWritten_numberText x)

theorem written_default : State.Written {} := .inr (.inr ⟨.digit '0' (by decide), rfl⟩)

theorem written_apply_of_calculates {s : State} (herr : s.isError = false)
    (hw : IsWritten s.display.toList) {e : Event} (he : e.Calculates) : (s.apply e).Written := by
  have hdisplay := display_apply_of_calculates herr he
  cases hdue : s.due? with
  | none =>
    rw [hdue] at hdisplay
    refine .inr ?_
    rw [hdisplay]
    exact hw
  | some r =>
    rw [hdue] at hdisplay
    exact written_resultText hdisplay

/-- A key that edits no text leaves no other one on the display. -/
theorem written_apply {s : State} (h : s.Written) {e : Event}
    (he : ∀ k : EntryKey, e ≠ k.event) : (s.apply e).Written := by
  cases herr : s.isError with
  | true =>
    by_cases hclear : e = .clear
    · subst hclear
      simpa [State.apply] using written_default
    · rwa [apply_of_isError herr hclear]
  | false =>
    have hw : IsWritten s.display.toList := h.resolve_left (by simp [herr])
    cases e with
    | digit value => exact absurd rfl (he (.digit value))
    | point => exact absurd rfl (he .point)
    | backspace => exact absurd rfl (he .backspace)
    | operator op => exact written_apply_of_calculates herr hw (.inr ⟨op, rfl⟩)
    | equals => exact written_apply_of_calculates herr hw (.inl rfl)
    | function f =>
      rw [apply_of_not_isError herr]
      exact written_resultText (r := f.value s.operand) rfl
    | clear =>
      rw [apply_of_not_isError herr]
      exact written_default

theorem display_apply_edit {s : State} (he : s.isError = false) {k : EntryKey}
    (hk : s.awaiting = false ∨ k = .backspace) :
    (s.apply k.event).display = .ofList (k.edit s.display.toList) := by
  rcases hk with ha | rfl
  · rw [apply_event he ha]
  · rw [apply_of_not_isError he]
    simp only [EntryKey.event, State.erase, EntryKey.edit]
    split <;> rfl

/-- A key that edits a text either spoils it or leaves the text of a number. -/
theorem written_apply_edit {s : State} (he : s.isError = false) (hw : IsWritten s.display.toList)
    (k : EntryKey) :
    ((s.apply k.event).Written ∧ ¬ s.Spoils k.event) ∨
      (¬ (s.apply k.event).Legible ∧ s.Spoils k.event) := by
  have hinj : ∀ k' : EntryKey, k.event = k'.event → k = k' := by
    cases k <;> rintro (_ | _ | _) h <;> cases h <;> rfl
  have hfails : ¬ s.Fails k.event := by
    cases k <;> exact id
  have hne : (s.apply k.event).isError = false := by
    rw [← Bool.not_eq_true, isError_apply_iff_fails hw.exists_eq_cons]
    exact hfails
  by_cases hk : s.awaiting = false ∨ k = .backspace
  · -- the key edits the text on the display
    have hspoils : s.Spoils k.event ↔ k.Spoils s.display.toList := by
      refine ⟨fun ⟨_, k', hk', _, h⟩ => hinj k' hk' ▸ h, fun h => ⟨he, k, rfl, hk, h⟩⟩
    rw [hspoils, State.Written, State.Legible, hne, display_apply_edit he hk, String.toList_ofList]
    rcases settles hw k with ⟨h, hs⟩ | ⟨h, hs⟩
    · exact .inl ⟨.inr h, hs⟩
    · exact .inr ⟨by simp [h], hs⟩
  · -- the key begins a new operand
    obtain ⟨ha, hback⟩ := not_or.1 hk
    refine .inl ⟨.inr ?_, fun ⟨_, k', hk', h, _⟩ => hk (hinj k' hk' ▸ h)⟩
    rw [apply_event_of_awaiting he (by simpa using ha) hback, String.toList_ofList]
    exact .inr (isPlain_edit (.whole .zero) k).exists_figures

/-- **A key spoils a display or leaves one with the text of a number.** -/
theorem written_apply_or_spoils {s : State} (h : s.Written) (e : Event) :
    ((s.apply e).Written ∧ ¬ s.Spoils e) ∨ (¬ (s.apply e).Legible ∧ s.Spoils e) := by
  by_cases he : ∃ k : EntryKey, e = k.event
  · obtain ⟨k, rfl⟩ := he
    cases herr : s.isError with
    | true =>
      have hclear : k.event ≠ .clear := by
        cases k <;> simp [EntryKey.event]
      refine .inl ⟨by rwa [apply_of_isError herr hclear], fun hs => ?_⟩
      rw [hs.1] at herr
      cases herr
    | false =>
      exact written_apply_edit herr (h.resolve_left (by simp [herr])) k
  · refine .inl ⟨written_apply h fun k hk => he ⟨k, hk⟩, ?_⟩
    rintro ⟨-, k, rfl, -, -⟩
    exact he ⟨k, rfl⟩

/-! ### Runs -/

theorem written_stateAfter {v : Variant} {es : List Event}
    (h : ∀ pre e, pre ++ [e] <+: es → v.supports e = true → ¬ (stateAfter v pre).Spoils e) :
    (stateAfter v es).Written := by
  induction es using List.reverseRecOn with
  | nil => exact written_default
  | append_singleton es e ih =>
    have hes : (stateAfter v es).Written :=
      ih fun pre a hpre => h pre a (hpre.trans (List.prefix_append es [e]))
    rw [stateAfter_concat]
    split
    · next he =>
      rcases written_apply_or_spoils hes e with ⟨hw, -⟩ | ⟨-, hs⟩
      · exact hw
      · exact absurd hs (h es e List.prefix_rfl he)
    · exact hes

/-- **A run shows only legible displays exactly when no key of it spoils the display before.** -/
theorem legible_iff_not_spoils (v : Variant) (es : List Event) :
    (∀ pre, pre <+: es → (stateAfter v pre).Legible) ↔
      ∀ pre e, pre ++ [e] <+: es → v.supports e = true → ¬ (stateAfter v pre).Spoils e := by
  constructor
  · intro hlegible
    induction es using List.reverseRecOn with
    | nil =>
      intro pre e hpre
      simp at hpre
    | append_singleton es a ih =>
      have hes := ih fun pre hpre => hlegible pre (hpre.trans (List.prefix_append es [a]))
      intro pre e hpre hsupports hspoils
      rcases List.prefix_concat_iff.1 hpre with heq | hpre
      · -- the key is the last one: its display is written, so spoiling it shows
        obtain ⟨rfl, hlast⟩ := List.append_inj' heq rfl
        obtain rfl : e = a := List.singleton_inj.1 hlast
        have hshown := hlegible (pre ++ [e]) List.prefix_rfl
        rw [stateAfter_concat, if_pos hsupports] at hshown
        rcases written_apply_or_spoils (written_stateAfter hes) e with ⟨-, hs⟩ | ⟨hillegible, -⟩
        · exact hs hspoils
        · exact hillegible hshown
      · exact hes pre e hpre hsupports hspoils
  · intro h pre hpre
    refine State.Written.legible (written_stateAfter fun pre' e hpre' => ?_)
    exact h pre' e (hpre'.trans hpre)

/-- `3 - 8 =` shows `-5`, and its sign alone cannot be read. -/
theorem display_erased_difference :
    (stateAfter .scientific
        [.digit 3, .operator .sub, .digit 8, .equals, .backspace]).display = "-" ∧
      ¬ (stateAfter .scientific
        [.digit 3, .operator .sub, .digit 8, .equals, .backspace]).Legible := by
  decide +kernel

end Keypad

end Abacus
