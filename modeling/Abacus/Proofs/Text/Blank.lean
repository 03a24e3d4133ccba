import Abacus.Decimal.Numeral
import Abacus.Text.Blank
import Abacus.Text.Search

/-!
# Texts that trimming leaves alone

Trimming changes nothing about a text that neither begins nor ends with a blank
(`Text.trimChars_of_unblank`), and what is trimmed is such a text.  It takes nothing but blanks away
(`Text.exists_blanks_append`).  Names and numerals have no blanks at all (`Text.unblank_of_isName`,
`Numeral.unblank_of_read`), so they may be trimmed or not before they are read; what else does not
stand in a numeral can be told by `Numeral.numeric_of_read`.
-/

namespace Abacus

namespace Text

/-! ### Blanks at the ends -/

/-- A text does not begin with a blank. -/
def HeadUnblank (cs : List Char) : Prop :=
  ∀ c ∈ cs.head?, isBlank c = false

/-- A text does not end with a blank. -/
def LastUnblank (cs : List Char) : Prop :=
  ∀ c ∈ cs.getLast?, isBlank c = false

theorem LastUnblank.append {cs ds : List Char} (hcs : LastUnblank cs) (hds : LastUnblank ds) :
    LastUnblank (cs ++ ds) := by
  unfold LastUnblank
  rw [List.getLast?_append]
  cases h : ds.getLast? with
  | none => exact hcs
  | some d =>
    rintro c ⟨rfl⟩
    exact hds d h

theorem LastUnblank.suffix {cs ds : List Char} (h : LastUnblank cs) (hsuffix : ds <:+ cs) :
    LastUnblank ds := by
  obtain ⟨before, rfl⟩ := hsuffix
  intro d hd
  refine h d ?_
  rw [List.getLast?_append, Option.mem_def.1 hd]
  rfl

theorem trimChars_of_unblank {cs : List Char} (hhead : HeadUnblank cs) (hlast : LastUnblank cs) :
    trimChars cs = cs := by
  have hstart : cs.dropWhile isBlank = cs := by
    cases cs with
    | nil => rfl
    | cons c rest => exact List.dropWhile_cons_of_neg (by simp [hhead c rfl])
  have hend : cs.reverse.dropWhile isBlank = cs.reverse := by
    unfold LastUnblank at hlast
    rw [List.getLast?_eq_head?_reverse] at hlast
    cases hrev : cs.reverse with
    | nil => rfl
    | cons c rest => exact List.dropWhile_cons_of_neg (by simp [hlast c (by simp [hrev])])
  rw [trimChars, trimEnd, hstart, hend, List.reverse_reverse]

theorem exists_blanks_trimEnd (cs : List Char) :
    ∃ after, after.all isBlank = true ∧ cs = trimEnd cs ++ after := by
  refine ⟨(cs.reverse.takeWhile isBlank).reverse, ?_, ?_⟩
  · rw [List.all_reverse]
    exact List.all_takeWhile
  · rw [trimEnd, ← List.reverse_append, List.takeWhile_append_dropWhile, List.reverse_reverse]

/-- **Trimming takes blanks away, at the ends.** -/
theorem exists_blanks_append (cs : List Char) : ∃ before after,
    before.all isBlank = true ∧ after.all isBlank = true ∧ cs = before ++ trimChars cs ++ after := by
  obtain ⟨after, hafter, hcs⟩ := exists_blanks_trimEnd (cs.dropWhile isBlank)
  refine ⟨cs.takeWhile isBlank, after, List.all_takeWhile, hafter, ?_⟩
  rw [List.append_assoc, trimChars, ← hcs, List.takeWhile_append_dropWhile]

theorem notMem_of_isBlank {c : Char} (hc : isBlank c = false) {blanks : List Char}
    (hblanks : blanks.all isBlank = true) : c ∉ blanks := by
  intro hmem
  rw [List.all_eq_true.1 hblanks c hmem] at hc
  cases hc

theorem mem_trimChars_iff {c : Char} (hc : isBlank c = false) {cs : List Char} :
    c ∈ trimChars cs ↔ c ∈ cs := by
  obtain ⟨before, after, hbefore, hafter, hcs⟩ := exists_blanks_append cs
  conv => rhs; rw [hcs]
  simp [notMem_of_isBlank hc hbefore, notMem_of_isBlank hc hafter]

theorem lastUnblank_trimChars (cs : List Char) : LastUnblank (trimChars cs) := by
  unfold LastUnblank trimChars trimEnd
  rw [List.getLast?_reverse]
  exact head?_dropWhile_isBlank _

theorem headUnblank_trimChars (cs : List Char) : HeadUnblank (trimChars cs) := by
  have hprefix : trimChars cs <+: cs.dropWhile isBlank := by
    unfold trimChars trimEnd
    rw [← List.reverse_suffix, List.reverse_reverse]
    exact List.dropWhile_suffix _
  obtain ⟨rest, hrest⟩ := hprefix
  intro c hc
  refine head?_dropWhile_isBlank cs c ?_
  rw [← hrest, List.head?_append, Option.mem_def.1 hc]
  rfl

theorem trim_trim (s : String) : trim (trim s) = trim s := by
  unfold trim
  rw [String.toList_ofList]
  exact congrArg String.ofList (trimChars_of_unblank (headUnblank_trimChars _) (lastUnblank_trimChars _))

/-! ### Texts without blanks -/

/-- A text has no blanks. -/
def Unblank (cs : List Char) : Prop :=
  ∀ c ∈ cs, isBlank c = false

theorem Unblank.trimChars_eq {cs : List Char} (h : Unblank cs) : trimChars cs = cs :=
  trimChars_of_unblank (fun c hc => h c (List.mem_of_mem_head? hc))
    fun c hc => h c (List.mem_of_getLast? hc)

theorem Unblank.trim_eq {s : String} (h : Unblank s.toList) : trim s = s := by
  rw [trim, h.trimChars_eq, String.ofList_toList]

theorem isDigit_of_isBlank {c : Char} (h : isBlank c = true) : c.isDigit = false := by
  rw [Bool.eq_false_iff, ne_eq, Char.isDigit_iff_toNat]
  simp only [isBlank, Bool.or_eq_true, Bool.and_eq_true, decide_eq_true_eq, beq_iff_eq,
    Char.reduceToNat] at h ⊢
  omega

theorem isAlpha_of_isBlank {c : Char} (h : isBlank c = true) : c.isAlpha = false := by
  simp only [isBlank, Bool.or_eq_true, Bool.and_eq_true, decide_eq_true_eq, beq_iff_eq] at h
  change (decide ('A'.val ≤ c.val ∧ c.val ≤ 'Z'.val) ||
    decide ('a'.val ≤ c.val) && decide (c.val ≤ 'z'.val)) = false
  simp [UInt32.le_iff_toNat_le]
  omega

theorem isBlank_of_inName {c : Char} (h : inName c = true) : isBlank c = false := by
  cases hblank : isBlank c with
  | false => rfl
  | true =>
    simp only [inName, Char.isAlphanum, isAlpha_of_isBlank hblank, isDigit_of_isBlank hblank,
      Bool.or_self, Bool.false_or, beq_iff_eq] at h
    subst h
    exact absurd hblank (by decide)

theorem inName_of_beginsName {c : Char} (h : beginsName c = true) : inName c = true := by
  simp only [beginsName, inName, Char.isAlphanum, Bool.or_eq_true] at h ⊢
  exact h.imp_left .inl

theorem forall_inName_of_isName {cs : List Char} (h : isName cs = true) :
    ∀ c ∈ cs, inName c = true := by
  cases cs with
  | nil => cases h
  | cons c rest =>
    obtain ⟨hc, hrest⟩ := Bool.and_eq_true_iff.1 h
    exact List.forall_mem_cons.2 ⟨inName_of_beginsName hc, List.all_eq_true.1 hrest⟩

theorem unblank_of_isName {cs : List Char} (h : isName cs = true) : Unblank cs :=
  fun c hc => isBlank_of_inName (forall_inName_of_isName h c hc)

end Text

namespace Numeral

open Text

/-! ### Numerals -/

/-- Whether a character may stand in a numeral: a letter, a digit, a sign or a point. -/
def inNumeral (c : Char) : Bool :=
  c.isAlphanum || c == '+' || c == '-' || c == '.'

/-- A text has only characters that may stand in a numeral. -/
def Numeric (cs : List Char) : Prop :=
  ∀ c ∈ cs, inNumeral c = true

theorem numeric_of_isDigit {ds : List Char} (h : ∀ c ∈ ds, c.isDigit = true) : Numeric ds := by
  intro c hc
  simp [inNumeral, Char.isAlphanum, h c hc]

theorem numeric_takeWhile (cs : List Char) : Numeric (cs.takeWhile Char.isDigit) :=
  numeric_of_isDigit (List.all_eq_true.1 List.all_takeWhile)

theorem numeric_of_sign {cs : List Char} (h : Numeric (sign cs).2) : Numeric cs := by
  unfold sign at h
  split at h
  · exact List.forall_mem_cons.2 ⟨by decide, h⟩
  · exact List.forall_mem_cons.2 ⟨by decide, h⟩
  · exact h

theorem numeric_of_integer? {cs : List Char} {k : Int} (h : integer? cs = some k) :
    Numeric cs := by
  unfold integer? at h
  dsimp only at h
  split at h
  · next hdigits => exact numeric_of_sign (numeric_of_isDigit (List.all_eq_true.1 hdigits.2))
  · cases h

theorem numeric_of_exponent? {cs : List Char} {k : Int} (h : exponent? cs = some k) :
    Numeric cs := by
  unfold exponent? at h
  split at h
  · exact fun c hc => absurd hc List.not_mem_nil
  · split at h
    · next hletter =>
      refine List.forall_mem_cons.2 ⟨?_, numeric_of_integer? h⟩
      rcases hletter with rfl | rfl <;> decide
    · cases h

theorem numeric_of_fraction {cs : List Char} (h : Numeric (fraction cs).2) : Numeric cs := by
  unfold fraction at h
  split at h
  · next rest =>
    refine List.forall_mem_cons.2 ⟨by decide, ?_⟩
    rw [← List.takeWhile_append_dropWhile (p := Char.isDigit) (l := rest)]
    exact List.forall_mem_append.2 ⟨numeric_takeWhile rest, h⟩
  · exact h

theorem numeric_of_decimal? {cs : List Char} {d : Nat × Int} (h : decimal? cs = some d) :
    Numeric cs := by
  unfold decimal? at h
  dsimp only at h
  split at h
  · cases h
  · obtain ⟨e, he, -⟩ := Option.map_eq_some_iff.1 h
    rw [← List.takeWhile_append_dropWhile (p := Char.isDigit) (l := cs)]
    exact List.forall_mem_append.2 ⟨numeric_takeWhile cs,
      numeric_of_fraction (numeric_of_exponent? he)⟩

/-- What is a letter in lower case is a letter. -/
theorem isAlpha_of_isAlpha_toLower {c : Char} (h : c.toLower.isAlpha = true) :
    c.isAlpha = true := by
  unfold Char.toLower at h
  split at h
  · next hupper => exact Bool.or_eq_true_iff.2 (.inl (decide_eq_true hupper))
  · exact h

/-- A word in a mixture of cases consists of letters too. -/
theorem numeric_of_map_toLower {cs word : List Char} (h : cs.map Char.toLower = word)
    (hword : word.all Char.isAlpha = true) : Numeric cs := by
  intro c hc
  have hletter : c.toLower.isAlpha = true :=
    List.all_eq_true.1 hword _ (h ▸ List.mem_map_of_mem hc)
  simp [inNumeral, Char.isAlphanum, isAlpha_of_isAlpha_toLower hletter]

theorem numeric_of_magnitude? {cs : List Char} {x : Float} (h : magnitude? cs = some x) :
    Numeric cs := by
  unfold magnitude? at h
  split at h
  · next hdecimal => exact numeric_of_decimal? hdecimal
  · dsimp only at h
    split at h
    · next hword =>
      rcases hword with hinf | hinfinity
      · exact numeric_of_map_toLower hinf (by decide)
      · exact numeric_of_map_toLower hinfinity (by decide)
    · split at h
      · next hnan => exact numeric_of_map_toLower hnan (by decide)
      · cases h

/-- **A numeral consists of letters, digits, signs and points.** -/
theorem numeric_of_read {s : String} {x : Float} (h : read s = .ok x) : Numeric s.toList := by
  unfold read at h
  split at h
  · cases h
  · split at h
    · next hread =>
      obtain ⟨y, hy, -⟩ := Option.map_eq_some_iff.1 hread
      exact numeric_of_sign (numeric_of_magnitude? hy)
    · cases h

theorem isBlank_of_inNumeral {c : Char} (h : inNumeral c = true) : isBlank c = false := by
  simp only [inNumeral, Bool.or_eq_true, beq_iff_eq] at h
  rcases h with ((h | rfl) | rfl) | rfl
  · exact isBlank_of_inName (by simp [inName, h])
  · rfl
  · rfl
  · rfl

theorem unblank_of_read {s : String} {x : Float} (h : read s = .ok x) : Unblank s.toList :=
  fun c hc => isBlank_of_inNumeral (numeric_of_read h c hc)

end Numeral

end Abacus
