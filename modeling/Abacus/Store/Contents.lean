/-!
# The contents of a store

A store maps keys to texts.  Its entries are kept in the order of their keys, each key once, so that
contents with the same text under every key are equal (`Contents.ext_get?`).  What an insertion does
is told by `Contents.get?_insert`.
-/

namespace Abacus

namespace Store

/-- Puts an entry into a sorted list of entries. -/
def insertEntry (key value : String) : List (String × String) → List (String × String)
  | [] => [(key, value)]
  | (k, v) :: rest =>
    if key < k then (key, value) :: (k, v) :: rest
    else if key = k then (key, value) :: rest
    else (k, v) :: insertEntry key value rest

theorem mem_insertEntry {key value : String} {es : List (String × String)} {e : String × String}
    (h : e ∈ insertEntry key value es) : e = (key, value) ∨ e ∈ es := by
  induction es with
  | nil => simpa [insertEntry] using h
  | cons p rest ih =>
    unfold insertEntry at h
    split at h
    · simpa using h
    · split at h
      · rcases List.mem_cons.1 h with h | h
        · exact .inl h
        · exact .inr (List.mem_cons_of_mem _ h)
      · rcases List.mem_cons.1 h with h | h
        · exact .inr (h ▸ List.mem_cons_self)
        · exact (ih h).imp_right (List.mem_cons_of_mem _)

theorem pairwise_insertEntry (key value : String) {es : List (String × String)}
    (h : es.Pairwise fun a b => a.1 < b.1) :
    (insertEntry key value es).Pairwise fun a b => a.1 < b.1 := by
  induction es with
  | nil => simp [insertEntry]
  | cons p rest ih =>
    obtain ⟨k, v⟩ := p
    obtain ⟨hk, hrest⟩ := List.pairwise_cons.1 h
    unfold insertEntry
    split
    · next hlt =>
      refine List.pairwise_cons.2 ⟨fun e he => ?_, h⟩
      rcases List.mem_cons.1 he with rfl | he
      · exact hlt
      · exact String.lt_trans hlt (hk e he)
    · next hnlt =>
      split
      · next heq =>
        subst heq
        exact List.pairwise_cons.2 ⟨hk, hrest⟩
      · next hne =>
        refine List.pairwise_cons.2 ⟨fun e he => ?_, ih hrest⟩
        rcases mem_insertEntry he with rfl | he
        · exact Std.lt_of_le_of_ne (Std.not_lt.1 hnlt) (Ne.symm hne)
        · exact hk e he

theorem lookup_entry (key value k : String) (es : List (String × String)) :
    ((key, value) :: es).lookup k = if k = key then some value else es.lookup k := by
  by_cases h : k = key
  · simp [h]
  · have hb : (k == key) = false := by simpa using h
    rw [List.lookup_cons, hb, if_neg h]

theorem lookup_insertEntry (key value k : String) (es : List (String × String)) :
    (insertEntry key value es).lookup k = if k = key then some value else es.lookup k := by
  induction es with
  | nil => exact lookup_entry key value k []
  | cons e rest ih =>
    obtain ⟨j, v⟩ := e
    unfold insertEntry
    split
    · exact lookup_entry key value k _
    · split
      · next hj => subst hj; simp only [lookup_entry]; split <;> rfl
      · next hj =>
        simp only [lookup_entry, ih]
        by_cases hk : k = j
        · simp [hk, Ne.symm hj]
        · simp [hk]

theorem lookup_eq_none {k : String} {es : List (String × String)} (h : ∀ e ∈ es, k < e.1) :
    es.lookup k = none := by
  induction es with
  | nil => rfl
  | cons e rest ih =>
    obtain ⟨j, v⟩ := e
    have hj : k ≠ j := fun heq => String.lt_irrefl j (heq ▸ h _ List.mem_cons_self)
    rw [lookup_entry, if_neg hj]
    exact ih fun e he => h e (List.mem_cons_of_mem _ he)

/-- Sorted entries are determined by what is found under each key. -/
theorem eq_of_lookup {es fs : List (String × String)} (hes : es.Pairwise fun a b => a.1 < b.1)
    (hfs : fs.Pairwise fun a b => a.1 < b.1) (h : ∀ k, es.lookup k = fs.lookup k) : es = fs := by
  induction es generalizing fs with
  | nil =>
    cases fs with
    | nil => rfl
    | cons f fs =>
      have := h f.1
      rw [show f = (f.1, f.2) from rfl, lookup_entry] at this
      simp at this
  | cons e es ih =>
    cases fs with
    | nil =>
      have := h e.1
      rw [show e = (e.1, e.2) from rfl, lookup_entry] at this
      simp at this
    | cons f fs =>
      obtain ⟨j, v⟩ := e
      obtain ⟨l, w⟩ := f
      obtain ⟨hj, hes'⟩ := List.pairwise_cons.1 hes
      obtain ⟨hl, hfs'⟩ := List.pairwise_cons.1 hfs
      have hjl : j = l := by
        rcases Std.lt_trichotomy j l with hlt | heq | hlt
        · have := h j
          rw [lookup_entry, if_pos rfl, lookup_eq_none] at this
          · simp at this
          · intro e he
            rcases List.mem_cons.1 he with rfl | he
            · exact hlt
            · exact String.lt_trans hlt (hl e he)
        · exact heq
        · have := h l
          rw [lookup_entry l w, if_pos rfl, lookup_eq_none] at this
          · simp at this
          · intro e he
            rcases List.mem_cons.1 he with rfl | he
            · exact hlt
            · exact String.lt_trans hlt (hj e he)
      subst hjl
      have hv : v = w := by simpa [lookup_entry] using h j
      subst hv
      congr 1
      refine ih hes' hfs' fun k => ?_
      by_cases hk : k = j
      · subst hk
        rw [lookup_eq_none hj, lookup_eq_none hl]
      · simpa [lookup_entry, hk] using h k

theorem pairwise_nil : ([] : List (String × String)).Pairwise fun a b => a.1 < b.1 := .nil

/-- Keys and their texts. -/
structure Contents where
  entries : List (String × String) := []
  sorted : (entries.Pairwise fun a b => a.1 < b.1) := by exact pairwise_nil
deriving DecidableEq

namespace Contents

instance : Inhabited Contents := ⟨{}⟩

/-- The text under a key. -/
def get? (c : Contents) (key : String) : Option String :=
  c.entries.lookup key

/-- Puts a text under a key. -/
def insert (c : Contents) (key value : String) : Contents where
  entries := insertEntry key value c.entries
  sorted := pairwise_insertEntry key value c.sorted

@[simp] theorem get?_insert (c : Contents) (key value k : String) :
    (c.insert key value).get? k = if k = key then some value else c.get? k :=
  lookup_insertEntry key value k c.entries

/-- Contents with the same text under every key are equal. -/
theorem ext_get? {c d : Contents} (h : ∀ key, c.get? key = d.get? key) : c = d := by
  cases c; cases d
  simpa using eq_of_lookup ‹_› ‹_› h

/-- The contents made of some entries; of two with the same key the last one counts. -/
def ofList (es : List (String × String)) : Contents :=
  es.foldl (fun c e => c.insert e.1 e.2) {}

end Contents

end Store

end Abacus
