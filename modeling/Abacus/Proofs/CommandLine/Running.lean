import Abacus.Proofs.Desk.Faults

/-!
# What a run prints and writes

A machine prints the texts that a step asks for (`Machine.output_performAll`) and writes its files by
what the step saves, whatever else it asks for (`Machine.performAll_congr`).

A program that starts reads its settings and opens its store, and it writes nothing
(`Program.files_start`).  From there on a run is the one step of its command
(`Program.run_of_start`).
-/

namespace Abacus

/-! ### Printing -/

/-- The text that an effect prints. -/
def Effect.printed : Effect → String
  | print text => text
  | log _ | save .. | note _ => ""

namespace Traced

variable {α β : Type}

/-- The text that a step prints. -/
def prints (x : Traced α) : String :=
  .join (x.effects.map Effect.printed)

@[simp] theorem prints_pure (a : α) : (pure a : Traced α).prints = "" := rfl

@[simp] theorem prints_ok (a : α) : (ok a).prints = "" := rfl

@[simp] theorem prints_bind (x : Traced α) (next : α → Traced β) :
    (x >>= next).prints = x.prints ++ (next x.value).prints := by
  simp [prints]

@[simp] theorem prints_map (f : α → β) (x : Traced α) : (f <$> x).prints = x.prints := by
  simp [prints]

@[simp] theorem prints_log (level : Log.Level) (target : String) :
    (log level target).prints = "" := rfl

@[simp] theorem prints_save (key value : String) : (save key value).prints = "" := rfl

@[simp] theorem prints_print (text : String) : (print text).prints = text :=
  String.empty_append

@[simp] theorem prints_printLine (text : String) : (printLine text).prints = text ++ "\n" :=
  prints_print _

@[simp] theorem saves_printLine (text : String) : (printLine text).saves = [] := rfl

@[simp] theorem saves_printLines (lines : List String) : (printLines lines).saves = [] := by
  induction lines with
  | nil => rfl
  | cons line lines ih => simp only [printLines, saves_bind, saves_printLine, ih, List.nil_append]

@[simp] theorem prints_notes (lines : List String) : (notes lines).prints = "" := by
  induction lines with
  | nil => rfl
  | cons line lines ih =>
    simp only [prints, notes, List.map_cons, String.join_cons] at ih ⊢
    rw [ih]
    rfl

end Traced

namespace Machine

variable {α β : Type}

/-- **After a step a machine has printed what the step prints.** -/
theorem output_performAll (m : Machine) (x : Traced α) :
    (m.performAll x.effects).output = m.output ++ x.prints := by
  unfold Traced.prints
  generalize x.effects = effects
  induction effects generalizing m with
  | nil => exact String.append_empty.symm
  | cons effect effects ih =>
    have hone : (m.perform effect).output = m.output ++ effect.printed := by
      cases effect with
      | print text => rfl
      | log _ | save _ _ | note _ => exact String.append_empty.symm
    rw [List.map_cons, String.join_cons, ← String.append_assoc, ← hone]
    exact ih _

/-- Steps that save the same leave the same store and the same files. -/
theorem performAll_congr {m n : Machine} (hstore : m.store = n.store) (hfiles : m.files = n.files)
    {x : Traced α} {y : Traced β} (h : x.saves = y.saves) :
    (m.performAll x.effects).store = (n.performAll y.effects).store ∧
      (m.performAll x.effects).files = (n.performAll y.effects).files := by
  have hx := m.setAll_performAll x
  have hy := n.setAll_performAll y
  rw [hstore, hfiles, h, hy] at hx
  exact ⟨(congrArg Prod.fst hx).symm, (congrArg Prod.snd hx).symm⟩

end Machine

/-! ### Quiet steps -/

/-- A step that prints nothing and saves nothing. -/
structure Traced.Quiet {α : Type} (x : Traced α) : Prop where
  prints_eq : x.prints = ""
  saves_eq : x.saves = []

/-- Two machines have the same store and the same files, and have printed the same. -/
structure Machine.SameHoldings (m n : Machine) : Prop where
  store_eq : m.store = n.store
  files_eq : m.files = n.files
  output_eq : m.output = n.output

theorem Machine.SameHoldings.trans {l m n : Machine} (h : l.SameHoldings m)
    (h' : m.SameHoldings n) : l.SameHoldings n where
  store_eq := h.store_eq.trans h'.store_eq
  files_eq := h.files_eq.trans h'.files_eq
  output_eq := h.output_eq.trans h'.output_eq

/-- A quiet step leaves a machine with what it had. -/
theorem Traced.Quiet.performAll {α : Type} {x : Traced α} (h : x.Quiet) (m : Machine) :
    (m.performAll x.effects).SameHoldings m := by
  obtain ⟨hstore, hfiles⟩ := m.performAll_of_saves_eq_nil h.saves_eq
  refine ⟨hstore, hfiles, ?_⟩
  rw [m.output_performAll, h.prints_eq, String.append_empty]

/-! ### Starting -/

namespace Store

theorem quiet_ofFileText (text : String) : (Contents.ofFileText text).Quiet := by
  unfold Contents.ofFileText
  split
  · exact ⟨rfl, rfl⟩
  · split
    · exact ⟨rfl, rfl⟩
    · exact ⟨rfl, rfl⟩

theorem File.quiet_open (files : FileTree) (path : String) : (File.open files path).Quiet := by
  unfold File.open
  dsimp only
  split
  · exact ⟨rfl, rfl⟩
  · next text heq =>
    have htext := quiet_ofFileText text
    refine ⟨?_, ?_⟩
    · simp [htext.prints_eq]
    · simp [htext.saves_eq]

theorem quiet_open (files : FileTree) (path? : Option String) :
    (Store.open files path?).Quiet := by
  cases path? with
  | none => exact ⟨rfl, rfl⟩
  | some path =>
    have hfile := File.quiet_open files path
    unfold Store.open
    refine ⟨?_, ?_⟩
    · rw [Traced.prints_bind, hfile.prints_eq]
      cases (File.open files path).value <;> rfl
    · rw [Traced.saves_bind, hfile.saves_eq]
      cases (File.open files path).value <;> rfl

/-- A store that can be opened is open. -/
theorem value_open_file {files : FileTree} {path : String} {f : File}
    (h : (File.open files path).value = .ok f) :
    (Store.open files (some path)).value = .ok (.file f) := by
  unfold Store.open
  rw [Traced.value_bind, h]
  rfl

end Store

namespace Program

variable {env : Environment} {files : FileTree} {options : Options}

/-- A start that has read its settings opens its store and does nothing else. -/
theorem start_of_load {c : Config} (h : Config.load files (env.configPath options) = .ok c) :
    ∃ m : Machine, m.SameHoldings { files } ∧
      start env files options =
        match (Store.open files (env.storePath options c)).value with
        | .error failure => (m, .error failure)
        | .ok store => ({ m with store }, .ok c) := by
  let filterText := env.logFilter.getD c.logFilter
  let m : Machine := { files, filter := .parse filterText }
  let complaints := Traced.notes (Log.Filter.complaints filterText)
  let opened := Store.open files (env.storePath options c)
  have hcomplaints : complaints.Quiet := ⟨Traced.prints_notes _, Traced.saves_notes _⟩
  have hopened : opened.Quiet := Store.quiet_open files (env.storePath options c)
  have hm : ((m.performAll complaints.effects).performAll opened.effects).SameHoldings m :=
    (hopened.performAll _).trans (hcomplaints.performAll m)
  refine ⟨_, ⟨hm.store_eq, hm.files_eq, hm.output_eq⟩, ?_⟩
  rw [start, h]
  rfl

/-- **A start writes nothing.** -/
theorem files_start (env : Environment) (files : FileTree) (options : Options) :
    (start env files options).1.files = files := by
  cases hload : Config.load files (env.configPath options) with
  | error failure => rw [start, hload]
  | ok c =>
    obtain ⟨m, hm, hstart⟩ := start_of_load hload
    rw [hstart]
    cases (Store.open files (env.storePath options c)).value with
    | error failure => exact hm.files_eq
    | ok store => exact hm.files_eq

/-- A program whose settings can be read and whose store can be opened starts. -/
theorem start_of_open {c : Config} {store : Store}
    (hload : Config.load files (env.configPath options) = .ok c)
    (hopen : (Store.open files (env.storePath options c)).value = .ok store) :
    ∃ m, start env files options = (m, .ok c) ∧
      m.store = store ∧ m.files = files ∧ m.output = "" := by
  obtain ⟨m, hm, hstart⟩ := start_of_load hload
  rw [hopen] at hstart
  exact ⟨_, hstart, rfl, hm.files_eq, hm.output_eq⟩

/-! ### Running -/

variable {m : Machine} {c : Config}

/-- **A run is the step of its command** on the machine that has started. -/
theorem run_of_start (h : start env files options = (m, .ok c)) (now : Nat)
    (lines : List (Nat × String)) (command : Command) :
    let x := command.run c m.store.get? now lines
    let r := run env files options now lines command
    r.1.files = (m.performAll x.effects).files ∧ r.1.output = m.output ++ x.prints ∧
      r.2 = x.value := by
  intro x r
  have hx : command.run c m.store.get? now lines = x := rfl
  rw [← m.output_performAll x]
  cases hvalue : x.value with
  | error failure =>
    have hr : r = ((m.performAll x.effects).report failure, .error failure) := by
      simp only [r, run, h, hx, hvalue]
    rw [hr]
    exact ⟨rfl, rfl, rfl⟩
  | ok =>
    have hr : r = (m.performAll x.effects, .ok ()) := by
      simp only [r, run, h, hx, hvalue]
    rw [hr]
    exact ⟨rfl, rfl, rfl⟩

end Program

/-! ### Answering -/

namespace Store

@[simp] theorem prints_load {α : Type} (get? : String → Option String)
    (decode? : Json → Option α) (key : String) : (load get? decode? key).prints = "" := by
  unfold load
  split
  · rfl
  · split <;> rfl

end Store

namespace Evaluator

@[simp] theorem prints_record (e : Evaluator) (input result : String) :
    (e.record input result).prints = "" := rfl

@[simp] theorem prints_probe (normalized : String) : (probe normalized).prints = "" := by
  unfold probe
  split
  · rfl
  · simp only [Traced.prints_bind, Traced.prints_notes]
    split <;> rfl

@[simp] theorem prints_traceSamples (samples : List Plot.Sample) :
    (traceSamples samples).prints = "" := by
  induction samples with
  | nil => rfl
  | cons s samples ih =>
    simp only [traceSamples, traceSample, Traced.prints_bind, Traced.prints_notes, ih]
    split <;> rfl

@[simp] theorem prints_plot (label text : String) : (plot label text).prints = "" := by
  unfold plot
  split
  · rfl
  · simp

@[simp] theorem prints_answerGraph (e : Evaluator) (q : Question) :
    (e.answerGraph q).prints = "" := by
  simp [answerGraph]

@[simp] theorem prints_answerValue (e : Evaluator) (now : Nat) (q : Question) :
    (e.answerValue now q).prints = "" := by
  unfold answerValue
  split
  · rfl
  · simp only [Traced.prints_bind, Traced.prints_notes]
    split
    · rfl
    · simp
    · rfl

/-- **An evaluator prints nothing**; it is for others to show its answers. -/
theorem prints_submit (e : Evaluator) (now : Nat) (text : String) :
    (e.submit now text).prints = "" := by
  unfold submit answer
  split
  · rfl
  · split
    · simp
    · split
      · simp only [Traced.prints_bind, prints_probe]
        split <;> simp
      · simp

end Evaluator

namespace Command

theorem quiet_evaluator (c : Config) (get? : String → Option String) :
    (evaluator c get?).Quiet where
  prints_eq := by simp [evaluator, Evaluator.load, Records.load]
  saves_eq := Service.saves_load c.variableMatch c.celebrationTime get?

/-- **To answer a text is to submit it** and to print the answer. -/
theorem runEval_eq (c : Config) (get? : String → Option String) (now : Nat)
    (words : List String) :
    let x := (evaluator c get?).value.submit now (joinWords words)
    (runEval c get? now words).saves = x.saves ∧
      (runEval c get? now words).prints = x.value.2.description ++ "\n" := by
  obtain ⟨hprints, hsaves⟩ := quiet_evaluator c get?
  refine ⟨?_, ?_⟩
  · simp [runEval, hsaves]
  · simp [runEval, hprints, Evaluator.prints_submit]

end Command

end Abacus
