import Abacus.CommandLine.Program

/-!
# What a store holds after some effects

A value is loaded from the text under its key (`Store.value_load`), and this saves nothing.  Only
saves change what a store answers, and each changes the answer for its own key
(`Machine.get?_performAll`).  This holds in memory and in files alike, and in a file whether it
could be written or not, since the store answers from memory.
-/

namespace Abacus

namespace Store

/-! ### Loading -/

@[simp] theorem value_load {α : Type} (get? : String → Option String) (decode? : Json → Option α)
    (key : String) :
    (load get? decode? key).value = (get? key).bind fun text => (Json.parse text).bind decode? := by
  unfold load
  cases get? key with
  | none => rfl
  | some text =>
    simp only [Option.bind_some]
    cases (Json.parse text).bind decode? <;> rfl

@[simp] theorem saves_load {α : Type} (get? : String → Option String) (decode? : Json → Option α)
    (key : String) : (load get? decode? key).saves = [] := by
  unfold load
  split
  · rfl
  · split <;> rfl

/-! ### Saving -/

/-- The answers of a store after some values were saved. -/
def overlay (get? : String → Option String) (saves : List (String × String)) :
    String → Option String :=
  saves.foldl (fun get? save key => if key = save.1 then some save.2 else get? key) get?

@[simp] theorem overlay_singleton (get? : String → Option String) (key value k : String) :
    overlay get? [(key, value)] k = if k = key then some value else get? k := rfl

theorem overlay_cons (get? : String → Option String) (save : String × String)
    (saves : List (String × String)) :
    overlay get? (save :: saves) = overlay (overlay get? [save]) saves := rfl

/-- Saves leave the other keys alone. -/
theorem overlay_of_forall_ne (get? : String → Option String) {saves : List (String × String)}
    {key : String} (h : ∀ save ∈ saves, save.1 ≠ key) : overlay get? saves key = get? key := by
  induction saves generalizing get? with
  | nil => rfl
  | cons save saves ih =>
    obtain ⟨hsave, hrest⟩ := List.forall_mem_cons.1 h
    rw [overlay_cons, ih _ hrest, overlay_singleton, if_neg hsave.symm]

/-- What is found under a key after some saves depends on what was there before under this key
only. -/
theorem overlay_congr {get? get?' : String → Option String} {key : String}
    (h : get? key = get?' key) (saves : List (String × String)) :
    overlay get? saves key = overlay get?' saves key := by
  induction saves generalizing get? get?' with
  | nil => exact h
  | cons save saves ih =>
    have hone : overlay get? [save] key = overlay get?' [save] key := by
      rw [overlay_singleton, overlay_singleton, h]
    exact ih hone

theorem get?_set (s : Store) (tree : FileTree) (key value : String) :
    (s.set tree key value).1.get? = overlay s.get? [(key, value)] := by
  funext k
  rw [overlay_singleton]
  cases s with
  | memory m => exact m.contents.get?_insert key value k
  | file f =>
    have hcontents : (f.set tree key value).1.contents = f.contents.insert key value := by
      simp only [File.set]
      split <;> rfl
    simp only [set, get?, File.get?, hcontents]
    exact f.contents.get?_insert key value k

/-- Saving a value puts it there; what else it does is for the log. -/
theorem store_save (s : Store) (tree : FileTree) (key value : String) :
    (s.save tree key value).1 = (s.set tree key value).1 ∧
      (s.save tree key value).2.1 = (s.set tree key value).2.1 := by
  unfold save
  split
  · next heq =>
    rw [heq]
    exact ⟨rfl, rfl⟩
  · next heq =>
    rw [heq]
    exact ⟨rfl, rfl⟩

theorem get?_save (s : Store) (tree : FileTree) (key value : String) :
    (s.save tree key value).1.get? = overlay s.get? [(key, value)] := by
  rw [(s.store_save tree key value).1, get?_set]

end Store

namespace Machine

theorem get?_perform_save (m : Machine) (key value : String) :
    (m.perform (.save key value)).store.get? = Store.overlay m.store.get? [(key, value)] :=
  m.store.get?_save m.files key value

/-- **After a step a store answers as if only its saves had been carried out.** -/
theorem get?_performAll {α : Type} (m : Machine) (x : Traced α) :
    (m.performAll x.effects).store.get? = Store.overlay m.store.get? x.saves := by
  unfold Traced.saves
  -- a log record, a print and a note change other parts of the machine
  generalize x.effects = effects
  induction effects generalizing m with
  | nil => rfl
  | cons effect effects ih =>
    have hrest := ih (m.perform effect)
    cases effect with
    | log record => exact hrest
    | print text => exact hrest
    | note line => exact hrest
    | save key value =>
      rw [get?_perform_save] at hrest
      exact hrest

/-- A step leaves a key alone under which it saves nothing. -/
theorem get?_performAll_of_forall_ne {α : Type} (m : Machine) {x : Traced α} {key : String}
    (h : ∀ save ∈ x.saves, save.1 ≠ key) :
    (m.performAll x.effects).store.get? key = m.store.get? key := by
  rw [get?_performAll]
  exact Store.overlay_of_forall_ne m.store.get? h

/-- What is found under a key after a step depends on what was there before under this key only. -/
theorem get?_performAll_congr {α : Type} {m m' : Machine} {key : String}
    (h : m.store.get? key = m'.store.get? key) (x : Traced α) :
    (m.performAll x.effects).store.get? key = (m'.performAll x.effects).store.get? key := by
  rw [get?_performAll, get?_performAll]
  exact Store.overlay_congr h x.saves

/-- A step that saves nothing leaves the store and the files as they are. -/
theorem performAll_of_saves_eq_nil {α : Type} (m : Machine) {x : Traced α} (h : x.saves = []) :
    (m.performAll x.effects).store = m.store ∧ (m.performAll x.effects).files = m.files := by
  unfold Traced.saves at h
  revert h
  generalize x.effects = effects
  induction effects generalizing m with
  | nil => exact fun _ => ⟨rfl, rfl⟩
  | cons effect effects ih =>
    intro h
    cases effect with
    | save key value => simp at h
    | log record => exact ih (m.perform (.log record)) h
    | print text => exact ih (m.perform (.print text)) h
    | note line => exact ih (m.perform (.note line)) h

end Machine

end Abacus
