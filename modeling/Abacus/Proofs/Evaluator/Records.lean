import Abacus.Proofs.Json.Codec
import Abacus.Proofs.Store.Saves

/-!
# Loading what was saved

History and settings read back from their stored form, whatever texts the history holds
(`Records.readsBack_history`, `Records.readsBack_settings`).  Loading also accepts what the program
would not write and cuts it to size (`Records.bounded_load`).

The records in memory agree with a store if loading gives just these records
(`Records.StoredIn`).  Loaded records agree with the store they come from, and every change keeps
the agreement by what it saves.
-/

namespace Abacus

open Json

/-! ### Stored forms -/

theorem HistoryItem.readsBack (i : HistoryItem) : ReadsBack toJson ofJson? i where
  printable := by
    refine printable_record ?_
    simp only [List.forall_mem_cons, List.not_mem_nil, false_implies, implies_true, and_true]
    exact ⟨.text i.input, .text i.result⟩
  decode?_encode := by
    have hfields := record?_record [("expression", .text i.input), ("result", .text i.result)]
      (by simp)
    simp only [List.map_cons, List.map_nil] at hfields
    simp only [toJson, ofJson?, hfields]
    rfl

namespace Records

theorem readsBack_history (history : List HistoryItem) :
    ReadsBack historyJson history? history :=
  ReadsBack.list fun i _ => i.readsBack

theorem readsBack_settings {precision : Nat} (h : precision < 256) :
    ReadsBack settingsJson settings? precision where
  printable := by
    refine printable_record ?_
    simpa using Printable.nat precision
  decode?_encode := by
    have hfields := record?_record [("precision", .nat precision)] (by simp)
    simp only [List.map_cons, List.map_nil] at hfields
    simp only [settingsJson, settings?, hfields]
    exact (readsBack_nat h).decode?_encode

/-! ### Loading -/

theorem value_load (get? : String → Option String) :
    (load get?).value = {
      history := (((get? Store.historyKey).bind fun text =>
        (parse text).bind history?).getD []).take historyLimit
      precision := min (((get? Store.settingsKey).bind fun text =>
        (parse text).bind settings?).getD maxPrecision) maxPrecision } := by
  simp only [load, Traced.value_bind, Traced.value_pure, Store.value_load]

/-- **Loading saves nothing.** -/
theorem saves_load (get? : String → Option String) : (load get?).saves = [] := by
  simp only [load, Traced.saves_bind, Traced.saves_pure, Store.saves_load, List.append_nil]

/-- The history is not too long and the precision not too great. -/
structure Bounded (r : Records) : Prop where
  length_history : r.history.length ≤ historyLimit
  precision_le : r.precision ≤ maxPrecision

/-- Loading cuts what is stored to size. -/
theorem bounded_load (get? : String → Option String) : (load get?).value.Bounded := by
  rw [value_load]
  refine ⟨?_, ?_⟩
  · exact List.length_take_le _ _
  · exact Nat.min_le_right _ _

/-- The records are what would be loaded. -/
def StoredIn (get? : String → Option String) (r : Records) : Prop :=
  (load get?).value = r

/-! ### Changes -/

/-- Puts an item into the history, if there is one. -/
def note (r : Records) : Option HistoryItem → Traced Records
  | none => .ok r
  | some item => r.record item

variable {get? : String → Option String} {r : Records}

theorem load_overlay_history (h : r.StoredIn get?) {history : List HistoryItem}
    (hlen : history.length ≤ historyLimit) :
    StoredIn (Store.overlay get? [(Store.historyKey, (historyJson history).render)])
      { r with history } := by
  -- the settings are under another key, so they are loaded as before
  have hother : Store.settingsKey ≠ Store.historyKey := by decide
  have hprecision : (load get?).value.precision = r.precision := congrArg Records.precision h
  rw [value_load] at hprecision
  rw [StoredIn, value_load]
  simp only [Store.overlay_singleton, ↓reduceIte, hother, Option.bind_some,
    (readsBack_history history).parse, Option.getD_some, List.take_of_length_le hlen]
  rw [← hprecision]

theorem load_overlay_settings (h : r.StoredIn get?) {precision : Nat}
    (hle : precision ≤ maxPrecision) :
    StoredIn (Store.overlay get? [(Store.settingsKey, (settingsJson precision).render)])
      { r with precision } := by
  have hother : Store.historyKey ≠ Store.settingsKey := by decide
  have hsmall : precision < 256 := by
    rw [maxPrecision] at hle
    omega
  have hhistory : (load get?).value.history = r.history := congrArg Records.history h
  rw [value_load] at hhistory
  rw [StoredIn, value_load]
  simp only [Store.overlay_singleton, ↓reduceIte, hother, Option.bind_some,
    (readsBack_settings hsmall).parse, Option.getD_some, Nat.min_eq_left hle]
  rw [← hhistory]

theorem StoredIn.record (h : r.StoredIn get?) (item : HistoryItem) :
    (r.record item).value.StoredIn (Store.overlay get? (r.record item).saves) :=
  load_overlay_history h (List.length_take_le _ _)

theorem StoredIn.note (h : r.StoredIn get?) (item? : Option HistoryItem) :
    (r.note item?).value.StoredIn (Store.overlay get? (r.note item?).saves) := by
  cases item? with
  | none => exact h
  | some item => exact h.record item

theorem StoredIn.clear (h : r.StoredIn get?) :
    r.clear.value.StoredIn (Store.overlay get? r.clear.saves) :=
  load_overlay_history h (Nat.zero_le _)

theorem StoredIn.setPrecision (h : r.StoredIn get?) (precision : Nat) :
    (r.setPrecision precision).value.StoredIn
      (Store.overlay get? (r.setPrecision precision).saves) :=
  load_overlay_settings h (Nat.min_le_right _ _)

end Records

end Abacus
