import Abacus.Marks
import Abacus.Proofs.Text.Blank

/-!
# Written assessments

An assessment is written `name:obtained/total@weightage` (`Assessment.Written`).  A name may be any
text, also one with these marks in it.  A numeral has none of them, so in a text that can be written
like this the last `@`, the last `:` before it and the first `/` behind that are the ones between
the parts (`Assessment.Written.cut_text`).  Hence there is one way at most to write it, and the
texts that are read are those that can be written (`Assessment.parse_iff_written`).
-/

namespace Abacus

namespace Assessment

/-- The parts of a written assessment. -/
structure Written where
  name : String
  obtained : String
  total : String
  weightage : String
deriving DecidableEq, Repr

namespace Written

/-- The parts with their marks between them. -/
def text (w : Written) : String :=
  w.name ++ ":" ++ w.obtained ++ "/" ++ w.total ++ "@" ++ w.weightage

/-- The parts spell an assessment, with blanks around any of them. -/
structure Spells (w : Written) (a : Assessment) : Prop where
  name_eq : a.name = Text.trim w.name
  read_obtained : Numeral.read (Text.trim w.obtained) = .ok a.obtained
  read_total : Numeral.read (Text.trim w.total) = .ok a.total
  read_weightage : Numeral.read (Text.trim w.weightage) = .ok a.weightage

/-- The parts spell some assessment: those behind the name are numerals. -/
def Readable (w : Written) : Prop :=
  ∃ a, w.Spells a

/-- A numeral has no marks. -/
theorem notMem_of_read {field : String} {x : Float}
    (h : Numeral.read (Text.trim field) = .ok x) :
    '@' ∉ field.toList ∧ ':' ∉ field.toList ∧ '/' ∉ field.toList := by
  have hnumeric := Numeral.numeric_of_read h
  rw [Text.trim, String.toList_ofList] at hnumeric
  have hnone : ∀ c, Text.isBlank c = false → Numeral.inNumeral c = false → c ∉ field.toList := by
    intro c hblank hc hmem
    rw [hnumeric c ((Text.mem_trimChars_iff hblank).2 hmem)] at hc
    cases hc
  exact ⟨hnone '@' (by decide) (by decide), hnone ':' (by decide) (by decide),
    hnone '/' (by decide) (by decide)⟩

/-- The parts are found again where the text is cut. -/
theorem cut_text {w : Written} (h : w.Readable) :
    Text.cutLast? '@' w.text.toList = some
        (w.name.toList ++ ':' :: (w.obtained.toList ++ '/' :: w.total.toList), w.weightage.toList) ∧
      Text.cutLast? ':' (w.name.toList ++ ':' :: (w.obtained.toList ++ '/' :: w.total.toList)) =
        some (w.name.toList, w.obtained.toList ++ '/' :: w.total.toList) ∧
      Text.cutFirst? '/' (w.obtained.toList ++ '/' :: w.total.toList) =
        some (w.obtained.toList, w.total.toList) := by
  obtain ⟨a, ha⟩ := h
  obtain ⟨-, hobtained, hobtained'⟩ := notMem_of_read ha.read_obtained
  obtain ⟨-, htotal, -⟩ := notMem_of_read ha.read_total
  obtain ⟨hweightage, -, -⟩ := notMem_of_read ha.read_weightage
  refine ⟨Text.cutLast?_eq_some_iff.2 ⟨?_, hweightage⟩, Text.cutLast?_append ?_ _,
    Text.cutFirst?_append hobtained' _⟩
  · simp [text]
  · simp [hobtained, htotal]

/-- There is one way at most to write a text. -/
theorem eq_of_text_eq {w v : Written} (h : w.text = v.text) (hw : w.Readable) (hv : v.Readable) :
    w = v := by
  obtain ⟨hw₁, hw₂, hw₃⟩ := cut_text hw
  obtain ⟨hv₁, hv₂, hv₃⟩ := cut_text hv
  rw [h, hv₁, Option.some.injEq, Prod.mk.injEq] at hw₁
  rw [← hw₁.1, hv₂, Option.some.injEq, Prod.mk.injEq] at hw₂
  rw [← hw₂.2, hv₃, Option.some.injEq, Prod.mk.injEq] at hw₃
  cases w
  cases v
  simp only [mk.injEq, ← String.toList_inj]
  exact ⟨hw₂.1.symm, hw₃.1.symm, hw₃.2.symm, hw₁.2.symm⟩

end Written

theorem readField_eq_ok_iff {field : String} {x : Float} :
    readField field.toList = .ok x ↔ Numeral.read (Text.trim field) = .ok x := by
  have htrim : String.ofList (Text.trimChars field.toList) = Text.trim field := rfl
  rw [readField, htrim]
  cases Numeral.read (Text.trim field) <;> simp

theorem parse_of_spells {w : Written} {a : Assessment} (h : w.Spells a) : parse w.text = .ok a := by
  obtain ⟨hat, hcolon, hslash⟩ := Written.cut_text ⟨a, h⟩
  have hname : String.ofList (Text.trimChars w.name.toList) = a.name := h.name_eq.symm
  simp only [parse, hat, hcolon, hslash, hname, readField_eq_ok_iff.2 h.read_obtained,
    readField_eq_ok_iff.2 h.read_total, readField_eq_ok_iff.2 h.read_weightage]
  rfl

/-- A reading that succeeds has read a number and gone on with it. -/
theorem exists_of_bind_eq_ok {ε α β : Type} {x : Except ε α} {next : α → Except ε β} {b : β}
    (h : x >>= next = .ok b) : ∃ a, x = .ok a ∧ next a = .ok b := by
  cases x with
  | error e => cases h
  | ok a => exact ⟨a, rfl, h⟩

/-- A text that is read was cut into parts that spell what was read. -/
theorem exists_written_of_parse {text : String} {a : Assessment} (h : parse text = .ok a) :
    ∃ w : Written, w.text = text ∧ w.Spells a := by
  unfold parse at h
  split at h
  case h_2 => cases h
  next rest weightage hat =>
  split at h
  case h_2 => cases h
  next name score hcolon =>
  split at h
  case h_2 => cases h
  next obtained total hslash =>
  obtain ⟨x, hobtained, h⟩ := exists_of_bind_eq_ok h
  obtain ⟨y, htotal, h⟩ := exists_of_bind_eq_ok h
  obtain ⟨z, hweightage, h⟩ := exists_of_bind_eq_ok h
  cases h
  obtain ⟨htext, -⟩ := Text.cutLast?_eq_some_iff.1 hat
  obtain ⟨rfl, -⟩ := Text.cutLast?_eq_some_iff.1 hcolon
  obtain ⟨rfl, -⟩ := Text.cutFirst?_eq_some_iff.1 hslash
  have hread : ∀ {field : List Char} {x : Float}, readField field = .ok x →
      Numeral.read (Text.trim (.ofList field)) = .ok x := fun hx =>
    readField_eq_ok_iff.1 (by rwa [String.toList_ofList])
  refine ⟨⟨.ofList name, .ofList obtained, .ofList total, .ofList weightage⟩, ?_,
    ⟨by rw [Text.trim, String.toList_ofList], hread hobtained, hread htotal, hread hweightage⟩⟩
  rw [← String.toList_inj, htext]
  simp [Written.text]

/-- **A text is read as an assessment exactly if it can be written as one**, and then there is one way
only to write it.  What is read are the trimmed name and the numbers that the other parts spell. -/
theorem parse_iff_written (text : String) :
    ((∃ a, parse text = .ok a) ↔ ∃ w : Written, w.text = text ∧ w.Readable) ∧
      (∀ w v : Written, w.text = text → v.text = text → w.Readable → v.Readable → w = v) ∧
      ∀ (w : Written) a, w.text = text → w.Spells a → parse text = .ok a := by
  refine ⟨⟨?_, ?_⟩, ?_, ?_⟩
  · rintro ⟨a, h⟩
    obtain ⟨w, hw, ha⟩ := exists_written_of_parse h
    exact ⟨w, hw, a, ha⟩
  · rintro ⟨w, rfl, a, ha⟩
    exact ⟨a, parse_of_spells ha⟩
  · rintro w v rfl hv
    exact Written.eq_of_text_eq hv.symm
  · rintro w a rfl
    exact parse_of_spells

/-- A name may look like an assessment; still the text is written in this way only. -/
theorem parse_name_like_assessment :
    let w : Written := ⟨" a:1/2@3", " 7 ", "8", " 9"⟩
    w.text = " a:1/2@3: 7 /8@ 9" ∧ parse w.text = .ok ⟨"a:1/2@3", 7, 8, 9⟩ ∧
      ∀ v : Written, v.text = w.text → v.Readable → v = w := by
  intro w
  have hread : ∀ {field : String} {x : Float},
      (Numeral.read field).toOption = some x → Numeral.read field = .ok x := by
    intro field x h
    cases hfield : Numeral.read field with
    | error e =>
      rw [hfield] at h
      cases h
    | ok y =>
      rw [hfield] at h
      exact congrArg _ (Option.some.inj h)
  have hspells : w.Spells ⟨"a:1/2@3", 7, 8, 9⟩ :=
    ⟨by decide, hread (by decide), hread (by decide), hread (by decide)⟩
  obtain ⟨-, hunique, hparse⟩ := parse_iff_written w.text
  exact ⟨by decide, hparse w _ rfl hspells, fun v hv hread => hunique v w hv rfl hread ⟨_, hspells⟩⟩

end Assessment

end Abacus
