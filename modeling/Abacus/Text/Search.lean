/-!
# Searching and cutting text

A text is cut at the first or the last occurrence of a character (`cutFirst?`, `cutLast?`); the
character itself belongs to neither part, and there is one such cut at most
(`cutFirst?_eq_some_iff`, `cutLast?_eq_some_iff`).  The pieces between all occurrences make the text
again (`intercalate_pieces`), and no other texts without the character do (`pieces_intercalate`).
`occurs` looks for a word anywhere in a text.
-/

namespace Abacus

namespace Text

/-- Whether `word` occurs in the text. -/
def occurs (word : List Char) : List Char → Bool
  | [] => word.isEmpty
  | c :: rest => word.isPrefixOf (c :: rest) || occurs word rest

/-- What stands before and after the first `c`. -/
def cutFirst? (c : Char) : List Char → Option (List Char × List Char)
  | [] => none
  | d :: rest =>
    if d = c then some ([], rest)
    else (cutFirst? c rest).map fun (before, after) => (d :: before, after)

/-- What stands before and after the last `c`. -/
def cutLast? (c : Char) : List Char → Option (List Char × List Char)
  | [] => none
  | d :: rest =>
    match cutLast? c rest with
    | some (before, after) => some (d :: before, after)
    | none => if d = c then some ([], rest) else none

theorem eq_of_cutFirst? {c : Char} {cs before after : List Char}
    (h : cutFirst? c cs = some (before, after)) : cs = before ++ c :: after ∧ c ∉ before := by
  induction cs generalizing before with
  | nil => simp [cutFirst?] at h
  | cons d rest ih =>
    unfold cutFirst? at h
    split at h
    · next hd =>
      obtain ⟨rfl, rfl⟩ : before = [] ∧ after = rest := by simpa [eq_comm] using h
      simp [hd]
    · next hd =>
      obtain ⟨⟨b, a⟩, hba, heq⟩ := Option.map_eq_some_iff.1 h
      obtain ⟨rfl, rfl⟩ := Prod.mk.inj heq
      obtain ⟨rfl, hc⟩ := ih hba
      exact ⟨rfl, by simp [hc, Ne.symm hd]⟩

theorem cutFirst?_append {c : Char} {before : List Char} (h : c ∉ before) (after : List Char) :
    cutFirst? c (before ++ c :: after) = some (before, after) := by
  induction before with
  | nil => simp [cutFirst?]
  | cons d rest ih =>
    obtain ⟨hd, hrest⟩ : ¬c = d ∧ c ∉ rest := by simpa using h
    simp [cutFirst?, Ne.symm hd, ih hrest]

/-- A text can be cut in one way only: where `c` occurs first. -/
theorem cutFirst?_eq_some_iff {c : Char} {cs before after : List Char} :
    cutFirst? c cs = some (before, after) ↔ cs = before ++ c :: after ∧ c ∉ before :=
  ⟨eq_of_cutFirst?, fun ⟨h, hc⟩ => h ▸ cutFirst?_append hc after⟩

theorem cutLast?_eq_none_iff {c : Char} {cs : List Char} : cutLast? c cs = none ↔ c ∉ cs := by
  induction cs with
  | nil => simp [cutLast?]
  | cons d rest ih =>
    unfold cutLast?
    split
    · next h => simp [← ih, h]
    · next h =>
      by_cases hd : d = c
      · simp [hd]
      · simp [hd, Ne.symm hd, ih.1 h]

theorem eq_of_cutLast? {c : Char} {cs before after : List Char}
    (h : cutLast? c cs = some (before, after)) : cs = before ++ c :: after ∧ c ∉ after := by
  induction cs generalizing before with
  | nil => simp [cutLast?] at h
  | cons d rest ih =>
    unfold cutLast? at h
    split at h
    · next b a hba =>
      obtain ⟨rfl, rfl⟩ : d :: b = before ∧ a = after := by simpa using h
      obtain ⟨rfl, hc⟩ := ih hba
      exact ⟨rfl, hc⟩
    · next hnone =>
      split at h
      · next hd =>
        obtain ⟨rfl, rfl⟩ : before = [] ∧ after = rest := by simpa [eq_comm] using h
        exact ⟨by simp [hd], cutLast?_eq_none_iff.1 hnone⟩
      · simp at h

theorem cutLast?_append {c : Char} {after : List Char} (h : c ∉ after) (before : List Char) :
    cutLast? c (before ++ c :: after) = some (before, after) := by
  induction before with
  | nil => simp [cutLast?, cutLast?_eq_none_iff.2 h]
  | cons d rest ih => simp [cutLast?, ih]

/-- A text can be cut in one way only: where `c` occurs last. -/
theorem cutLast?_eq_some_iff {c : Char} {cs before after : List Char} :
    cutLast? c cs = some (before, after) ↔ cs = before ++ c :: after ∧ c ∉ after :=
  ⟨eq_of_cutLast?, fun ⟨h, hc⟩ => h ▸ cutLast?_append hc before⟩

/-- The pieces of a text between the occurrences of `c`; there is always one more than of these. -/
def pieces (c : Char) : List Char → List (List Char)
  | [] => [[]]
  | d :: rest =>
    match pieces c rest with
    | [] => [[d]]
    | piece :: others => if d = c then [] :: piece :: others else (d :: piece) :: others

theorem pieces_ne_nil (c : Char) (cs : List Char) : pieces c cs ≠ [] := by
  induction cs with
  | nil => simp [pieces]
  | cons d rest ih =>
    unfold pieces
    split
    · next h => exact absurd h ih
    · split <;> simp

/-- The pieces make the text again with `c` between them. -/
theorem intercalate_pieces (c : Char) (cs : List Char) :
    List.intercalate [c] (pieces c cs) = cs := by
  induction cs with
  | nil => rfl
  | cons d rest ih =>
    unfold pieces
    split
    · next h => exact absurd h (pieces_ne_nil c rest)
    · next piece others h =>
      rw [h] at ih
      split
      · next hd => subst hd; simpa [List.intercalate, List.intersperse] using ih
      · cases others <;> simp_all [List.intercalate, List.intersperse]

theorem not_mem_of_mem_pieces {c : Char} {cs piece : List Char} (h : piece ∈ pieces c cs) :
    c ∉ piece := by
  induction cs generalizing piece with
  | nil => simp_all [pieces]
  | cons d rest ih =>
    unfold pieces at h
    split at h
    · next hnil => exact absurd hnil (pieces_ne_nil c rest)
    · next p others hp =>
      rw [hp] at ih
      split at h
      · rcases List.mem_cons.1 h with rfl | h
        · simp
        · exact ih h
      · next hd =>
        rcases List.mem_cons.1 h with rfl | h
        · simpa [Ne.symm hd] using ih List.mem_cons_self
        · exact ih (List.mem_cons_of_mem _ h)

/-- A text without `c` is in one piece. -/
theorem pieces_eq_singleton {c : Char} {cs : List Char} (h : c ∉ cs) : pieces c cs = [cs] := by
  induction cs with
  | nil => rfl
  | cons d rest ih =>
    obtain ⟨hd, hrest⟩ : ¬c = d ∧ c ∉ rest := by simpa using h
    simp [pieces, ih hrest, Ne.symm hd]

theorem pieces_cons (c d : Char) (cs : List Char) :
    pieces c (d :: cs) =
      if d = c then [] :: pieces c cs else (pieces c cs).modifyHead (d :: ·) := by
  rw [pieces]
  split
  · next h => exact absurd h (pieces_ne_nil c cs)
  · next piece others h =>
    rw [h]
    rfl

/-- A text is cut at each occurrence of `c` by itself. -/
theorem pieces_append (c : Char) (before after : List Char) :
    pieces c (before ++ c :: after) = pieces c before ++ pieces c after := by
  induction before with
  | nil => simp [pieces_cons, pieces]
  | cons d before ih =>
    obtain ⟨piece, others, h⟩ := List.exists_cons_of_ne_nil (pieces_ne_nil c before)
    rw [List.cons_append, pieces_cons, pieces_cons, ih, h]
    split <;> rfl

/-- The pieces are the only texts without `c` that make the text with `c` between them. -/
theorem pieces_intercalate {c : Char} {parts : List (List Char)} (hne : parts ≠ [])
    (h : ∀ part ∈ parts, c ∉ part) : pieces c (List.intercalate [c] parts) = parts := by
  induction parts with
  | nil => exact absurd rfl hne
  | cons part parts ih =>
    have hpart := pieces_eq_singleton (h part List.mem_cons_self)
    cases parts with
    | nil => rw [List.intercalate_singleton, hpart]
    | cons next parts =>
      rw [List.intercalate_cons_cons, List.append_assoc, List.singleton_append, pieces_append, hpart,
        ih (List.cons_ne_nil next parts) fun p hp => h p (List.mem_cons_of_mem part hp)]
      rfl

/-- Whether a character may begin a name: an ASCII letter or an underscore. -/
def beginsName (c : Char) : Bool :=
  c.isAlpha || c == '_'

/-- Whether a character may stand in a name: an ASCII letter or digit or an underscore. -/
def inName (c : Char) : Bool :=
  c.isAlphanum || c == '_'

/-- Whether a text is a name. -/
def isName : List Char → Bool
  | [] => false
  | c :: rest => beginsName c && rest.all inName

/-- The name at the start of a text, empty if there is none, and what follows it. -/
def spanName : List Char → List Char × List Char
  | [] => ([], [])
  | c :: rest =>
    if beginsName c then (c :: rest.takeWhile inName, rest.dropWhile inName) else ([], c :: rest)

end Text

end Abacus
