import Abacus.Proofs.Keypad.Entry
import Abacus.Proofs.Keypad.Failure

/-!
# Taking back an entry key

A digit that takes the place of a lone zero and a backspace that leaves a zero for the last character
are inverse to each other, and so are a character at the end of a text and a backspace, as long as
there is a text (`EntryKey.edit_backspace_digit`, `EntryKey.edit_backspace_point`).  In a run there
always is one, since a display that shows no failure begins with some character, and a display with
one more digit or point shows no failure either (`Proper`).  So a backspace after an entry key gives
the whole state back (`apply_backspace_of_entry`), whatever was on the display: a result may have been
edited to a text that is no number.

A key that begins a new operand cannot be taken back like this, for the text it replaces is lost.
-/

namespace Abacus

namespace Keypad

namespace EntryKey

theorem edit_backspace_concat {cs : List Char} (h : cs ≠ []) (c : Char) :
    backspace.edit (cs ++ [c]) = cs := by
  have hlength : 1 < (cs ++ [c]).length := by
    have := List.length_pos_iff.2 h
    rw [List.length_append, List.length_singleton]
    omega
  rw [edit, if_pos hlength, List.dropLast_concat]

/-- A backspace takes back a digit, also one that took the place of a zero. -/
theorem edit_backspace_digit {cs : List Char} (h : cs ≠ []) (value : Nat) :
    backspace.edit ((digit value).edit cs) = cs := by
  rw [edit.eq_1]
  split
  · next hzero => exact hzero.symm
  · exact edit_backspace_concat h _

/-- A backspace takes back a point that was put there. -/
theorem edit_backspace_point {cs : List Char} (h : cs ≠ []) (hpoint : '.' ∉ cs) :
    backspace.edit (point.edit cs) = cs := by
  rw [edit.eq_2, if_neg hpoint]
  exact edit_backspace_concat h '.'

end EntryKey

/-- A backspace takes back a key on the display if it takes back what the key does to the text. -/
theorem apply_backspace_apply {s : State} (h : Proper s.display) (ha : s.awaiting = false)
    {k : EntryKey} (hk : EntryKey.backspace.edit (k.edit s.display.toList) = s.display.toList) :
    (s.apply k.event).apply .backspace = s := by
  have herror : s.isError = false := isError_eq_false_iff.2 h.ne_errorText
  have hkeyed := apply_event herror ha k
  -- entering a character fails no more than taking one back
  have hfails : ¬ s.Fails k.event := by
    cases k <;> exact id
  have herror' : (s.apply k.event).isError = false := by
    rw [← Bool.not_eq_true, isError_apply_iff_fails h]
    exact hfails
  have ha' : (s.apply k.event).awaiting = false := by
    rw [hkeyed]
    exact ha
  have hback := apply_event herror' ha' .backspace
  calc
    (s.apply k.event).apply .backspace =
        { s with display := .ofList (EntryKey.backspace.edit (k.edit s.display.toList)) } := by
      rw [hkeyed, String.toList_ofList] at hback
      rw [hkeyed]
      exact hback
    _ = s := by rw [hk, String.ofList_toList]

/-- **A backspace undoes an entry key.**  In a run on the scientific keypad that shows no failure and
does not begin a new operand, a digit and a backspace give the same state back, and so do a point and
a backspace if there was no point on the display. -/
theorem apply_backspace_of_entry {es : List Event}
    (herror : (stateAfter .scientific es).isError = false)
    (ha : (stateAfter .scientific es).awaiting = false) :
    (∀ value, ((stateAfter .scientific es).apply (.digit value)).apply .backspace =
        stateAfter .scientific es) ∧
      ('.' ∉ (stateAfter .scientific es).display.toList →
        ((stateAfter .scientific es).apply .point).apply .backspace = stateAfter .scientific es) := by
  have hproper := proper_display_of_not_isError herror
  have hne : (stateAfter .scientific es).display.toList ≠ [] := by
    obtain ⟨c, cs, hcs, -⟩ := hproper
    rw [hcs]
    exact List.cons_ne_nil c cs
  refine ⟨fun value => ?_, fun hpoint => ?_⟩
  · exact apply_backspace_apply hproper ha (EntryKey.edit_backspace_digit hne value)
  · exact apply_backspace_apply hproper ha (EntryKey.edit_backspace_point hne hpoint)

/-- `3 - 8 =` shows `-5`, and what is left of it after a backspace is the sign.  A digit and a point
behind the sign can be taken back. -/
theorem apply_backspace_after_sign :
    let s := stateAfter .scientific [.digit 3, .operator .sub, .digit 8, .equals, .backspace]
    s.display = "-" ∧ (s.apply (.digit 7)).apply .backspace = s ∧
      (s.apply .point).apply .backspace = s := by
  intro s
  have hdisplay : s.display = "-" := by decide +kernel
  have herror : s.isError = false := by decide +kernel
  obtain ⟨hdigit, hpoint⟩ := apply_backspace_of_entry herror (by decide +kernel)
  refine ⟨hdisplay, hdigit 7, hpoint ?_⟩
  change '.' ∉ s.display.toList
  rw [hdisplay]
  decide

end Keypad

end Abacus
