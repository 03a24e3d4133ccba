import Abacus.Proofs.Json.RoundTrip

/-!
# Values stored as JSON

A value is stored as the text of a JSON value that is made of it, and a reader of JSON values gets
it back.  `ReadsBack encode decode? a` says that this works for `a`; texts, small natural numbers
and lists read back (`readsBack_text`, `readsBack_nat`, `ReadsBack.list`), and the fields of a
record are found under their names if these are different (`record?_record`).
-/

namespace Abacus

namespace Json

variable {α : Type}

/-- What is written of a value is read back as that value. -/
structure ReadsBack (encode : α → Json) (decode? : Json → Option α) (a : α) : Prop where
  printable : Printable (encode a)
  decode?_encode : decode? (encode a) = some a

/-- **A stored value is read back from its text.** -/
theorem ReadsBack.parse {encode : α → Json} {decode? : Json → Option α} {a : α}
    (h : ReadsBack encode decode? a) : (Json.parse (encode a).render).bind decode? = some a := by
  rw [parse_render h.printable, Option.bind_some, h.decode?_encode]

theorem readsBack_text (s : String) : ReadsBack text text? s :=
  ⟨.text s, rfl⟩

theorem readsBack_nat {n : Nat} (h : n < 256) : ReadsBack nat byte? n := by
  refine ⟨.nat n, ?_⟩
  have hdigits : n.repr.toList.all Char.isDigit = true :=
    List.all_eq_true.2 fun c => isDigit_of_mem_repr
  have hvalue : Nat.ofDigitChars 10 n.repr.toList 0 = n := by
    rw [Nat.toList_repr]
    exact Nat.ofDigitChars_toDigits (by decide) (by decide)
  simp only [nat, byte?, hdigits, hvalue, h, decide_true, Bool.and_self, ↓reduceIte]

/-! ### Lists -/

theorem mapM_map_eq_some {encode : α → Json} {decode? : Json → Option α} {as : List α}
    (h : ∀ a ∈ as, decode? (encode a) = some a) : (as.map encode).mapM decode? = some as := by
  induction as with
  | nil => rfl
  | cons a as ih =>
    have hrest := ih fun b hb => h b (List.mem_cons_of_mem a hb)
    simp only [List.map_cons, List.mapM_cons, h a List.mem_cons_self, hrest]
    rfl

/-- A list reads back if its items do. -/
theorem ReadsBack.list {encode : α → Json} {decode? : Json → Option α} {as : List α}
    (h : ∀ a ∈ as, ReadsBack encode decode? a) :
    ReadsBack (fun as => array (as.map encode)) (list? decode?) as where
  printable := by
    refine .array fun j hj => ?_
    obtain ⟨a, ha, rfl⟩ := List.mem_map.1 hj
    exact (h a ha).printable
  decode?_encode := mapM_map_eq_some fun a ha => (h a ha).decode?_encode

/-! ### Records -/

variable {fields : List (String × Json)}

theorem printable_record (h : ∀ p ∈ fields, Printable p.2) : Printable (record fields) := by
  refine .object ?_ ?_
  · intro p hp
    obtain ⟨q, -, rfl⟩ := List.mem_map.1 hp
    rfl
  · intro p hp
    obtain ⟨q, hq, rfl⟩ := List.mem_map.1 hp
    exact h q hq

/-- The fields of a record with a name that is not there. -/
theorem filter_record_eq_nil {name : String} (h : name ∉ fields.map (·.1)) :
    (fields.map fun (name, v) => (some name, v)).filter (·.1 == some name) = [] := by
  rw [List.filter_eq_nil_iff]
  rintro p hp
  obtain ⟨q, hq, rfl⟩ := List.mem_map.1 hp
  have hne : q.1 ≠ name := fun he => h (he ▸ List.mem_map_of_mem hq)
  simpa using hne

/-- The fields of a record with a name that is there once. -/
theorem filter_record (h : (fields.map (·.1)).Nodup) {p : String × Json} (hp : p ∈ fields) :
    (fields.map fun (name, v) => (some name, v)).filter (·.1 == some p.1) = [(some p.1, p.2)] := by
  induction fields with
  | nil => cases hp
  | cons q fields ih =>
    rw [List.map_cons, List.nodup_cons] at h
    rw [List.map_cons]
    rcases List.mem_cons.1 hp with rfl | hp
    · rw [List.filter_cons_of_pos (by simp), filter_record_eq_nil h.1]
    · have hne : q.1 ≠ p.1 := fun he => h.1 (he ▸ List.mem_map_of_mem hp)
      rw [List.filter_cons_of_neg (by simpa using hne)]
      exact ih h.2 hp

/-- The fields of a record under some of its names. -/
theorem mapM_field? (h : (fields.map (·.1)).Nodup) {ps : List (String × Json)} (hps : ps ⊆ fields) :
    (ps.map (·.1)).mapM (field? (fields.map fun (name, v) => (some name, v))) =
      some (ps.map (·.2)) := by
  induction ps with
  | nil => rfl
  | cons p ps ih =>
    obtain ⟨hp, hps⟩ := List.cons_subset.1 hps
    have hfield : field? (fields.map fun (name, v) => (some name, v)) p.1 = some p.2 := by
      rw [field?, filter_record h hp]
    simp only [List.map_cons, List.mapM_cons, hfield, ih hps]
    rfl

variable (fields) in
/-- **A record is read as the values of its fields.** -/
theorem record?_record (h : (fields.map (·.1)).Nodup) :
    (record fields).record? (fields.map (·.1)) = some (fields.map (·.2)) := by
  have hall : (fields.map fun (name, v) => (some name, v)).all (·.1.isSome) = true := by
    simp
  rw [record, record?, if_pos hall]
  exact mapM_field? h (List.Subset.refl fields)

end Json

end Abacus
