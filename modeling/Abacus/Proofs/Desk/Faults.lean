import Abacus.Proofs.Desk.Sharing
import Mathlib.Data.List.Infix

/-!
# Stores that fail

A store may fail to write.  An evaluator and a library do not notice: all that is seen of them, the
answers, the history, the precision and the formulas, is after each request the same as with any
other store that held the same at first, be it one that never fails (`Clients.failures_unseen`).

Nor do they lose anything by it.  They change what they have in memory first and then write the
whole of it, so a write that succeeds makes up for all those before it that failed
(`Clients.storedAt_moment`).

Nothing is assumed of a store but that a text that was written is found (`Store.Backend`).  A store
may fail when it likes, and a write that fails may do anything to it.  So this covers one that fails
by a script (`Store.Backend.scripted`) as well as the stores of the program
(`Store.Backend.program`), on which a run is that of a desk (`Clients.trail_program`).
-/

namespace Abacus

namespace Store

/-! ### Stores of any kind -/

/-- A store of some kind.  It answers with the text under a key, and it puts a text under a key and
tells whether that succeeded; if so, the text is found. -/
structure Backend (σ : Type) where
  get? : σ → String → Option String
  set : σ → String → String → σ × Bool
  get?_set : ∀ s key value, (set s key value).2 = true → get? (set s key value).1 key = some value

namespace Backend

variable {σ τ : Type}

/-- The stores of the program, with the files. -/
def program : Backend (Store × FileTree) where
  get? s := s.1.get?
  set s key value :=
    let (store, files, success) := s.1.set s.2 key value
    ((store, files), success)
  get?_set s key value _ := by
    dsimp only
    rw [Store.get?_set, overlay_singleton, if_pos rfl]

/-- A store in memory that fails by a script, which tells for each write whether it succeeds; after
its end all of them do.  A text that could not be written is lost. -/
def scripted : Backend (Contents × List Bool) where
  get? s := s.1.get?
  set s key value :=
    if s.2.headD true then ((s.1.insert key value, s.2.tail), true) else ((s.1, s.2.tail), false)
  get?_set s key value h := by
    split at h
    · next hsuccess =>
      rw [if_pos hsuccess]
      exact (s.1.get?_insert key value key).trans (if_pos rfl)
    · cases h

/-- The store after some writes, and for each of them its key and whether it succeeded. -/
def setAll (B : Backend σ) (s : σ) : List (String × String) → σ × List (String × Bool)
  | [] => (s, [])
  | (key, value) :: saves =>
    let (s, success) := B.set s key value
    let (s, writes) := setAll B s saves
    (s, (key, success) :: writes)

theorem map_fst_setAll (B : Backend σ) (s : σ) (saves : List (String × String)) :
    (B.setAll s saves).2.map Prod.fst = saves.map Prod.fst := by
  induction saves generalizing s with
  | nil => rfl
  | cons save saves ih => exact congrArg (save.1 :: ·) (ih _)

/-- A text is found if it was the only one to be written and this succeeded. -/
theorem get?_setAll_singleton {B : Backend σ} {s : σ} {key value k : String}
    (h : (k, true) ∈ (B.setAll s [(key, value)]).2) :
    k = key ∧ B.get? (B.setAll s [(key, value)]).1 k = some value := by
  have heq : (k, true) = (key, (B.set s key value).2) := List.mem_singleton.1 h
  obtain ⟨rfl, hsuccess⟩ := Prod.mk.inj heq
  exact ⟨rfl, B.get?_set s k value hsuccess.symm⟩

/-- A store is honest if all that is found after a write was written by it or was found before. -/
def Honest (B : Backend σ) : Prop :=
  ∀ s key value k text, B.get? (B.set s key value).1 k = some text →
    (k = key ∧ text = value) ∨ B.get? s k = some text

theorem honest_program : Honest program := by
  intro s key value k text h
  simp only [program, Store.get?_set, overlay_singleton] at h
  split at h
  · next hk => exact .inl ⟨hk, (Option.some.inj h).symm⟩
  · exact .inr h

theorem honest_scripted : Honest scripted := by
  intro s key value k text h
  simp only [scripted] at h
  split at h
  · rw [Contents.get?_insert] at h
    split at h
    · next hk => exact .inl ⟨hk, (Option.some.inj h).symm⟩
    · exact .inr h
  · exact .inr h

/-- What is found after some writes was written by one of them or was found before. -/
theorem Honest.found_setAll {B : Backend σ} (hB : B.Honest) {s : σ}
    {saves : List (String × String)} {k text : String}
    (h : B.get? (B.setAll s saves).1 k = some text) :
    (k, text) ∈ saves ∨ B.get? s k = some text := by
  induction saves generalizing s with
  | nil => exact .inr h
  | cons save saves ih =>
    rcases ih h with hmem | hfound
    · exact .inl (List.mem_cons_of_mem save hmem)
    · refine (hB s save.1 save.2 k text hfound).imp_left ?_
      rintro ⟨rfl, rfl⟩
      exact List.mem_cons_self

end Backend

end Store

/-- A machine carries out the writes of a step on its store. -/
theorem Machine.setAll_performAll {α : Type} (m : Machine) (x : Traced α) :
    (Store.Backend.program.setAll (m.store, m.files) x.saves).1 =
      ((m.performAll x.effects).store, (m.performAll x.effects).files) := by
  unfold Traced.saves
  generalize x.effects = effects
  induction effects generalizing m with
  | nil => rfl
  | cons effect effects ih =>
    have hrest := ih (m.perform effect)
    cases effect with
    | log record => exact hrest
    | print text => exact hrest
    | note line => exact hrest
    | save key value =>
      have hsave := m.store.store_save m.files key value
      have hstore : ((m.perform (.save key value)).store, (m.perform (.save key value)).files) =
          (Store.Backend.program.set (m.store, m.files) key value).1 :=
        Prod.ext hsave.1 hsave.2
      rw [hstore] at hrest
      exact hrest

/-- An evaluator and a library. -/
structure Clients where
  evaluator : Evaluator
  library : Library

namespace Clients

/-! ### Requests -/

/-- The clients of a store. -/
def load (variableMatch : VariableMatch) (celebrationTime : Nat) (get? : String → Option String) :
    Traced Clients := do
  return { evaluator := ← Evaluator.load variableMatch celebrationTime get?
           library := ← Library.load get? }

/-- What may be asked of the clients of a store. -/
inductive Request
  | evaluator (q : Evaluator.Request)
  | library (q : Library.Request)
deriving DecidableEq, Repr

/-- What one of them replies. -/
inductive Reply
  | outcome (outcome? : Option Outcome)
  | answer (a : Library.Answer)

/-- Serves a request. -/
def serve (c : Clients) : Request → Traced (Clients × Reply)
  | .evaluator q => do
    let (evaluator, outcome?) ← c.evaluator.serve q
    return ({ c with evaluator }, .outcome outcome?)
  | .library q => do
    let (library, answer) ← c.library.serve q
    return ({ c with library }, .answer answer)

theorem saves_serve_evaluator (c : Clients) (q : Evaluator.Request) :
    (c.serve (.evaluator q)).saves = (c.evaluator.serve q).saves := by
  simp [serve]

theorem saves_serve_library (c : Clients) (q : Library.Request) :
    (c.serve (.library q)).saves = (c.library.serve q).saves := by
  simp [serve]

/-! ### What is kept -/

/-- What clients keep in a store. -/
structure Kept where
  history : List HistoryItem
  precision : Nat
  formulas : List Formula

/-- What clients have in memory of what they keep. -/
def kept (c : Clients) : Kept where
  history := c.evaluator.history
  precision := c.evaluator.precision
  formulas := c.library.formulas

namespace Kept

/-- The keys of what was changed. -/
def changed (before after : Kept) : List String :=
  (if before.history = after.history then [] else [Store.historyKey]) ++
    (if before.precision = after.precision then [] else [Store.settingsKey]) ++
      if before.formulas = after.formulas then [] else [Store.formulasKey]

/-- From the text under a key is read all that is kept there. -/
def StoredAt (k : Kept) (get? : String → Option String) (key : String) : Prop :=
  let json? := (get? key).bind Json.parse
  (key = "calcHistory" ∧ json?.bind Records.history? = some k.history) ∨
    (key = "calcSettings" ∧ json?.bind Records.settings? = some k.precision) ∨
    (key = "custom-formulas" ∧ json?.bind (Json.list? Formula.ofJson?) = some k.formulas)

theorem changed_subset {before after : Kept} {keys : List String}
    (hhistory : before.history = after.history ∨ Store.historyKey ∈ keys)
    (hprecision : before.precision = after.precision ∨ Store.settingsKey ∈ keys)
    (hformulas : before.formulas = after.formulas ∨ Store.formulasKey ∈ keys) :
    before.changed after ⊆ keys := by
  have hone : ∀ {p : Prop} [Decidable p] {key : String}, p ∨ key ∈ keys →
      (if p then [] else [key]) ⊆ keys := by
    intro p _ key h
    split
    · exact List.nil_subset keys
    · next hp => exact List.cons_subset.2 ⟨h.resolve_left hp, List.nil_subset keys⟩
  exact List.append_subset.2
    ⟨List.append_subset.2 ⟨hone hhistory, hone hprecision⟩, hone hformulas⟩

variable {k : Kept} {get? : String → Option String}

theorem storedAt_history (h : get? Store.historyKey = some (Records.historyJson k.history).render) :
    k.StoredAt get? Store.historyKey := by
  refine .inl ⟨rfl, ?_⟩
  rw [h, Option.bind_some]
  exact (Records.readsBack_history k.history).parse

theorem storedAt_settings
    (h : get? Store.settingsKey = some (Records.settingsJson k.precision).render)
    (hle : k.precision ≤ maxPrecision) : k.StoredAt get? Store.settingsKey := by
  have hsmall : k.precision < 256 := Nat.lt_of_le_of_lt hle (by decide)
  refine .inr (.inl ⟨rfl, ?_⟩)
  rw [h, Option.bind_some]
  exact (Records.readsBack_settings hsmall).parse

theorem storedAt_formulas (h : get? Store.formulasKey = some (Library.toJson ⟨k.formulas⟩).render) :
    k.StoredAt get? Store.formulasKey := by
  refine .inr (.inr ⟨rfl, ?_⟩)
  rw [h, Option.bind_some]
  exact (Json.ReadsBack.list fun f _ => f.readsBack).parse

end Kept

/-! ### One request -/

/-- How a request was served. -/
structure Moment (σ : Type) where
  /-- What was in memory before. -/
  before : Kept
  reply : Reply
  /-- What is in memory afterwards. -/
  after : Kept
  /-- The keys that were to be written, and whether this succeeded. -/
  writes : List (String × Bool)
  /-- The store afterwards. -/
  store : σ

variable {σ τ : Type}

/-- What is seen of how a request was served. -/
def Moment.view (x : Moment σ) : Reply × Kept :=
  (x.reply, x.after)

/-- How a request is served, with the writes that it asks for. -/
def moment (B : Store.Backend σ) (s : σ) (c : Clients) (q : Request) : Moment σ :=
  let x := c.serve q
  let (s, writes) := B.setAll s x.saves
  { before := c.kept, reply := x.value.2, after := x.value.1.kept, writes, store := s }

/-- **What is changed is written**, or at least this is tried. -/
theorem changed_subset_writes (B : Store.Backend σ) (s : σ) (c : Clients) (q : Request) :
    (c.moment B s q).before.changed (c.moment B s q).after ⊆
      (c.moment B s q).writes.map Prod.fst := by
  simp only [moment, Store.Backend.map_fst_setAll]
  cases q with
  | evaluator q =>
    rw [saves_serve_evaluator]
    rcases c.evaluator.saves_serve q with ⟨hs, hrecords⟩ | ⟨hs, hprecision⟩ | ⟨hs, hhistory⟩ <;>
      rw [hs]
    · exact Kept.changed_subset (.inl (congrArg Records.history hrecords.symm))
        (.inl (congrArg Records.precision hrecords.symm)) (.inl rfl)
    · exact Kept.changed_subset (.inr List.mem_cons_self) (.inl hprecision.symm) (.inl rfl)
    · exact Kept.changed_subset (.inl hhistory.symm) (.inr List.mem_cons_self) (.inl rfl)
  | library q =>
    rw [saves_serve_library, Library.saves_serve]
    cases hchange : (c.library.serve q).value.2.isChange with
    | true => exact Kept.changed_subset (.inl rfl) (.inl rfl) (.inr List.mem_cons_self)
    | false =>
      have hlibrary := Library.serve_of_not_isChange hchange
      exact Kept.changed_subset (.inl rfl) (.inl rfl)
        (.inl (congrArg Library.formulas hlibrary.symm))

/-- **A write that succeeds makes up for those before it that failed**: what is stored then is all
that is in memory. -/
theorem storedAt_moment {B : Store.Backend σ} {s : σ} {c : Clients} {q : Request}
    (hle : c.evaluator.precision ≤ maxPrecision) {key : String}
    (h : (key, true) ∈ (c.moment B s q).writes) :
    (c.moment B s q).after.StoredAt (B.get? (c.moment B s q).store) key := by
  cases q with
  | evaluator q =>
    simp only [moment, saves_serve_evaluator] at h ⊢
    rcases c.evaluator.saves_serve q with ⟨hs, -⟩ | ⟨hs, -⟩ | ⟨hs, -⟩ <;> rw [hs] at h ⊢
    · cases h
    · obtain ⟨rfl, hget⟩ := Store.Backend.get?_setAll_singleton h
      exact Kept.storedAt_history hget
    · obtain ⟨rfl, hget⟩ := Store.Backend.get?_setAll_singleton h
      exact Kept.storedAt_settings hget (Evaluator.precision_serve_le hle q)
  | library q =>
    simp only [moment, saves_serve_library, c.library.saves_serve q] at h ⊢
    split at h
    · next hchange =>
      obtain ⟨rfl, hget⟩ := Store.Backend.get?_setAll_singleton h
      rw [if_pos hchange]
      exact Kept.storedAt_formulas hget
    · cases h

theorem precision_serve_le {c : Clients} (h : c.evaluator.precision ≤ maxPrecision) (q : Request) :
    (c.serve q).value.1.evaluator.precision ≤ maxPrecision := by
  cases q with
  | evaluator q => exact Evaluator.precision_serve_le h q
  | library q => exact h

/-! ### Runs -/

/-- How some requests are served. -/
def trail (B : Store.Backend σ) (s : σ) (c : Clients) : List Request → List (Moment σ)
  | [] => []
  | q :: requests =>
    c.moment B s q :: (c.serve q).value.1.trail B (c.moment B s q).store requests

/-- How some requests are served by clients that are loaded from a store. -/
def session (B : Store.Backend σ) (s : σ) (variableMatch : VariableMatch) (celebrationTime : Nat)
    (requests : List Request) : List (Moment σ) :=
  (load variableMatch celebrationTime (B.get? s)).value.trail B s requests

/-- What holds of each request holds in a run; the precision is never too great. -/
theorem forall_mem_trail {B : Store.Backend σ} {P : Moment σ → Prop}
    (hone : ∀ s (c : Clients) q, c.evaluator.precision ≤ maxPrecision → P (c.moment B s q))
    (s : σ) {c : Clients} (hle : c.evaluator.precision ≤ maxPrecision) (requests : List Request) :
    ∀ x ∈ c.trail B s requests, P x := by
  induction requests generalizing s c with
  | nil => simp [trail]
  | cons q requests ih =>
    rw [trail, List.forall_mem_cons]
    exact ⟨hone s c q hle, ih _ (precision_serve_le hle q)⟩

/-- What is seen in a run does not depend on the store. -/
theorem map_view_trail (B : Store.Backend σ) (C : Store.Backend τ) (s : σ) (t : τ) (c : Clients)
    (requests : List Request) :
    (c.trail B s requests).map Moment.view = (c.trail C t requests).map Moment.view := by
  induction requests generalizing s t c with
  | nil => rfl
  | cons q requests ih =>
    rw [trail, trail, List.map_cons, List.map_cons, ih _ (c.moment C t q).store]
    rfl

/-! ### Desks -/

/-- The step of a desk that serves a request. -/
def Request.step : Request → Desk.Step
  | evaluator q => .evaluator (.request q)
  | library q => .library (.request q)

/-- The clients at a desk. -/
def ofDesk (d : Desk) : Clients :=
  ⟨d.evaluator, d.library⟩

/-- A desk serves a request as its clients do with the store of the program. -/
theorem moment_program (d : Desk) (q : Request) :
    let x := (ofDesk d).moment .program (d.machine.store, d.machine.files) q
    let e := d.step q.step
    x.after = (ofDesk e).kept ∧ x.store = (e.machine.store, e.machine.files) ∧
      ((ofDesk d).serve q).value.1 = ofDesk e := by
  cases q with
  | evaluator q =>
    refine ⟨rfl, ?_, rfl⟩
    rw [moment, saves_serve_evaluator]
    exact d.machine.setAll_performAll (d.evaluator.serve q)
  | library q =>
    refine ⟨rfl, ?_, rfl⟩
    rw [moment, saves_serve_library]
    exact d.machine.setAll_performAll (d.library.serve q)

/-- **A run with the store of the program is a run of a desk.** -/
theorem trail_program (d : Desk) (requests : List Request) :
    ∀ x ∈ (ofDesk d).trail .program (d.machine.store, d.machine.files) requests,
      ∃ steps, steps <+: requests.map Request.step ∧
        x.after = (ofDesk (d.run steps)).kept ∧
        x.store = ((d.run steps).machine.store, (d.run steps).machine.files) := by
  induction requests generalizing d with
  | nil => simp [trail]
  | cons q requests ih =>
    obtain ⟨hafter, hstore, hclients⟩ := moment_program d q
    rw [trail, List.forall_mem_cons]
    refine ⟨⟨[q.step], (List.prefix_cons_inj _).2 List.nil_prefix, hafter, hstore⟩, ?_⟩
    · intro x hx
      rw [hclients, hstore] at hx
      obtain ⟨steps, hprefix, hlater⟩ := ih (d.step q.step) x hx
      exact ⟨q.step :: steps, (List.prefix_cons_inj _).2 hprefix, hlater⟩

/-! ### Failures -/

/-- **Failures of the store are not seen.**  Let two stores of any kind hold the same at first, and
let an evaluator and a library be loaded from each and serve the same requests.  Whichever writes
succeed here and there, after each request the reply, the history, the precision and the formulas are
the same; so they are the same as with a store that never fails.  What is changed is always to be
written, and whenever a write succeeds, the text that is then under its key is all that is in memory
of what is kept there, whatever became of the writes before. -/
theorem failures_unseen {B : Store.Backend σ} {C : Store.Backend τ} {s : σ} {t : τ}
    (h : B.get? s = C.get? t) (variableMatch : VariableMatch) (celebrationTime : Nat)
    (requests : List Request) :
    let x := session B s variableMatch celebrationTime requests
    let y := session C t variableMatch celebrationTime requests
    x.map Moment.view = y.map Moment.view ∧
      ∀ moment ∈ x, moment.before.changed moment.after ⊆ moment.writes.map Prod.fst ∧
        ∀ key, (key, true) ∈ moment.writes →
          moment.after.StoredAt (B.get? moment.store) key := by
  intro x y
  have hle : (load variableMatch celebrationTime (B.get? s)).value.evaluator.precision ≤
      maxPrecision := (Records.bounded_load (B.get? s)).precision_le
  refine ⟨?_, forall_mem_trail (fun s c q hle => ⟨?_, fun key hwrite => ?_⟩) s hle requests⟩
  · simp only [x, y, session, h]
    exact map_view_trail B C s t _ requests
  · exact c.changed_subset_writes B s q
  · exact storedAt_moment hle hwrite

/-- A greeting is lost in the store, and so is a precision; the next greeting brings the first one
back, and with a store of the program the same is seen. -/
theorem greeting_after_failures :
    let requests : List Request := [.evaluator (.submit 0 "hello"), .evaluator (.setPrecision 3),
      .evaluator (.submit 1 "hello")]
    let x := session Store.Backend.scripted (.ofList [], [false, false, true]) .token 5000 requests
    let y := session Store.Backend.program (.memory {}, {}) .token 5000 requests
    x.map Moment.view = y.map Moment.view ∧
      x.map Moment.writes =
        [[("calcHistory", false)], [("calcSettings", false)], [("calcHistory", true)]] ∧
      ∃ moment ∈ x, moment.writes = [("calcHistory", true)] ∧
        moment.after.history = [⟨"hello", "Hello there!"⟩, ⟨"hello", "Hello there!"⟩] ∧
        moment.after.StoredAt (Store.Backend.scripted.get? moment.store) "calcHistory" := by
  intro requests x y
  have hfirst : Store.Backend.scripted.get? (.ofList [], [false, false, true]) =
      Store.Backend.program.get? (.memory {}, {}) := rfl
  obtain ⟨hviews, hmoments⟩ := failures_unseen hfirst .token 5000 requests
  obtain ⟨moment, hmem, hwrites, hhistory⟩ : ∃ moment ∈ x,
      moment.writes = [("calcHistory", true)] ∧
      moment.after.history = [⟨"hello", "Hello there!"⟩, ⟨"hello", "Hello there!"⟩] := by
    decide +kernel
  refine ⟨hviews, by decide +kernel, moment, hmem, hwrites, hhistory, ?_⟩
  exact (hmoments moment hmem).2 "calcHistory" (hwrites ▸ List.mem_singleton_self _)

end Clients

end Abacus
