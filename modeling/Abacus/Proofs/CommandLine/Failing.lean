import Abacus.Proofs.CommandLine.Running

/-!
# What a failing program leaves

A program that stops with the exit status 1 has found fault with its settings, its store, its input
or what it was told to do.  Nearly always it does so before it saves anything, and then all files are
as they were.

There are two exceptions (`Program.files_of_failure`).  To be plotted a text is answered first, like
any other text, and the answer goes into the history even if it turns out to be no plot.  And a
session that comes to a line that is no text has answered the lines before.
-/

namespace Abacus

/-! ### Commands that fail -/

namespace FormulaCommand

variable {l : Library} {failure : Failure}

theorem saves_runAdd_of_error {name expression declaration : String}
    (h : (runAdd l name expression declaration).value = .error failure) :
    (runAdd l name expression declaration).saves = [] := by
  unfold runAdd Library.add at h ⊢
  cases hdefine : Formula.define name expression declaration with
  | error e => rfl
  | ok f =>
    rw [hdefine] at h
    dsimp only at h ⊢
    cases hparse : Calculation.parse f.expression with
    | error e => rfl
    | ok _ =>
      -- a formula that can be parsed is added
      rw [hparse] at h
      cases h

theorem saves_runRemove_of_error {position : Nat}
    (h : (runRemove l position).value = .error failure) : (runRemove l position).saves = [] := by
  unfold runRemove Library.remove at h ⊢
  cases hget : l.get? position with
  | none => rfl
  | some f =>
    rw [hget] at h
    cases h

/-- An evaluation saves nothing. -/
theorem saves_runEval (l : Library) (position : Nat) (values : List String) :
    (runEval l position values).saves = [] := by
  unfold runEval
  cases inputs values with
  | error failure => rfl
  | ok inputs =>
    have hevaluate : (l.evaluate position inputs).saves = [] := by
      unfold Library.evaluate
      cases l.get? position with
      | none => rfl
      | some f => exact Library.saves_evaluate f inputs
    dsimp only
    rw [Traced.saves_bind, hevaluate]
    cases (l.evaluate position inputs).value <;> rfl

theorem saves_of_error {get? : String → Option String} {command : FormulaCommand}
    (h : (command.run get?).value = .error failure) : (command.run get?).saves = [] := by
  have hload : (Library.load get?).saves = [] := Archive.saves_load get?
  unfold run at h ⊢
  rw [Traced.value_bind] at h
  rw [Traced.saves_bind, hload, List.nil_append]
  cases command with
  | add name expression declaration => exact saves_runAdd_of_error h
  | list => cases h
  | remove position => exact saves_runRemove_of_error h
  | eval position values => exact saves_runEval _ position values

end FormulaCommand

namespace Command

variable {c : Config} {get? : String → Option String} {now : Nat} {lines : List (Nat × String)}
  {failure : Failure}

theorem saves_runKeypad (scientific : Bool) (keys : List String) :
    (runKeypad scientific keys).saves = [] := by
  unfold runKeypad
  generalize (if scientific then Keypad.Variant.scientific else .basic) = variant
  cases h : pressTokens { variant } keys with
  | error failure => simp [h]
  | ok k => simp [h]

theorem saves_runMarks_of_error {words : List String}
    (h : (runMarks words).value = .error failure) : (runMarks words).saves = [] := by
  unfold runMarks at h ⊢
  split at h
  · rfl
  · cases h

/-- **A text that is to be plotted is recorded like a text that is to be answered.** -/
theorem saves_runPlot (c : Config) (get? : String → Option String) (now : Nat)
    (words : List String) : (runPlot c get? now words).saves = (runEval c get? now words).saves := by
  rw [(runEval_eq c get? now words).1]
  simp only [runPlot, Traced.saves_bind, (quiet_evaluator c get?).saves_eq, List.nil_append]
  refine List.append_right_eq_self.2 ?_
  split
  · rw [Traced.saves_bind, Traced.saves_printLines]
    rfl
  · rfl

/-- **A command that fails saves nothing**, unless it plots. -/
theorem saves_of_error {command : Command} (hplot : ∀ words, command ≠ .plot words)
    (h : (command.run c get? now lines).value = .error failure) :
    (command.run c get? now lines).saves = [] := by
  cases command with
  | eval words => cases h
  | repl => cases h
  | keypad scientific keys => exact saves_runKeypad scientific keys
  | plot words => exact absurd rfl (hplot words)
  | history clear => cases h
  | precision value => cases h
  | suggestions => cases h
  | formula command => exact FormulaCommand.saves_of_error h
  | marks words => exact saves_runMarks_of_error h

end Command

/-! ### Runs that fail -/

namespace Program

variable {env : Environment} {files : FileTree} {options : Options} {now : Nat}
  {reading : Reading} {arguments : List String}

/-- Whether some words, if they were to be answered, would be recorded. -/
def isRecorded (env : Environment) (files : FileTree) (options : Options) (now : Nat)
    (words : List String) : Bool :=
  match start env files options with
  | (_, .error _) => false
  | (m, .ok c) =>
    let e := (Command.evaluator c m.store.get?).value
    (e.submit now (Command.joinWords words)).value.2.isRecorded

/-- What a program that fails leaves of its files: what they were, but for what was recorded before
the failure. -/
def remains (env : Environment) (files : FileTree) (options : Options) (now : Nat)
    (reading : Reading) : Command → FileTree
  | .plot words =>
    if isRecorded env files options now words then
      (run env files options now [] (.eval words)).1.files
    else files
  | .repl =>
    if reading.breaksOff then (run env files options now reading.lines .repl).1.files else files
  | _ => files

/-- A run that does not plot and fails leaves the files as they were. -/
theorem files_run_of_error {lines : List (Nat × String)} {command : Command} {failure : Failure}
    (hplot : ∀ words, command ≠ .plot words)
    (h : (run env files options now lines command).2 = .error failure) :
    (run env files options now lines command).1.files = files := by
  have hfiles := files_start env files options
  cases hstart : start env files options with
  | mk m outcome =>
    rw [hstart] at hfiles
    cases outcome with
    | error failure =>
      rw [run, hstart]
      exact hfiles
    | ok c =>
      obtain ⟨hafter, -, hvalue⟩ := run_of_start hstart now lines command
      rw [hvalue] at h
      rw [hafter, (m.performAll_of_saves_eq_nil (Command.saves_of_error hplot h)).2]
      exact hfiles

/-- A run that plots leaves the files as a run that answers does, if the answer is recorded. -/
theorem files_run_plot (env : Environment) (files : FileTree) (options : Options) (now : Nat)
    (reading : Reading) (words : List String) :
    (run env files options now reading.lines (.plot words)).1.files =
      remains env files options now reading (.plot words) := by
  have hfiles := files_start env files options
  unfold remains isRecorded
  cases hstart : start env files options with
  | mk m outcome =>
    rw [hstart] at hfiles
    cases outcome with
    | error failure =>
      rw [run, hstart]
      exact hfiles
    | ok c =>
      obtain ⟨hplot, -⟩ := run_of_start hstart now reading.lines (.plot words)
      obtain ⟨heval, -⟩ := run_of_start hstart now [] (.eval words)
      have hsaves : ((Command.plot words).run c m.store.get? now reading.lines).saves =
          ((Command.eval words).run c m.store.get? now []).saves := by
        simp only [Command.run, Traced.saves_map, Command.saves_runPlot]
      rw [hplot, (Machine.performAll_congr rfl rfl hsaves).2]
      dsimp only
      split
      · exact heval.symm
      · next hnot =>
        -- an answer that is not recorded is not saved
        have hnone : ((Command.eval words).run c m.store.get? now []).saves = [] := by
          obtain ⟨-, -, hsubmit, -⟩ := Evaluator.saves_submit
            (Command.evaluator c m.store.get?).value now (Command.joinWords words)
          rw [Command.run, Traced.saves_map, (Command.runEval_eq ..).1, hsubmit, if_neg hnot]
        rw [(m.performAll_of_saves_eq_nil hnone).2]
        exact hfiles

/-- A run that fails on what there is to be read fails as on the lines alone, or it is a session that
comes to a line that is no text. -/
theorem runOn_of_error {command : Command} {failure : Failure}
    (h : (runOn env files options now reading command).2 = .error failure) :
    (runOn env files options now reading command).1.files =
        (run env files options now reading.lines command).1.files ∧
      ((run env files options now reading.lines command).2 = .error failure ∨
        command = .repl ∧ reading.breaksOff = true) := by
  unfold runOn at h ⊢
  cases hrun : run env files options now reading.lines command with
  | mk m outcome =>
    rw [hrun] at h
    cases outcome with
    | error other => exact ⟨rfl, .inl h⟩
    | ok =>
      dsimp only at h ⊢
      split at h
      · next hbreak =>
        rw [if_pos hbreak]
        exact ⟨rfl, .inr ⟨hbreak.1, hbreak.2.1⟩⟩
      · cases h

/-- With the exit status 1 stops a command that fails. -/
theorem runOn_of_exit (h : (invoke env files now reading arguments).2 = 1) :
    ∃ options command failure, Request.ofArguments? arguments = some (.run options command) ∧
      (runOn env files options now reading command).2 = .error failure ∧
      (invoke env files now reading arguments).1 =
        (runOn env files options now reading command).1 := by
  unfold invoke at h ⊢
  split at h
  · cases h
  · cases h
  · cases h
  · next options command hrequest =>
    cases hrun : runOn env files options now reading command with
    | mk m outcome =>
      rw [hrun] at h
      cases outcome with
      | ok => cases h
      | error failure =>
        rw [hrequest]
        exact ⟨options, command, failure, rfl, by rw [hrun], by simp only [hrun]⟩

/-- **A program that fails leaves its files alone**, but for what it has recorded by then.  If the exit
status is 1, all files are as they were, and a file that was absent still is.  Only a text that was to
be plotted may have been recorded, if it has an answer that is no plot: then the files are those that
answering it leaves.  And a session that comes to a line that is no text leaves the files that it
would leave if its input ended there. -/
theorem files_of_failure (h : (invoke env files now reading arguments).2 = 1) :
    ∃ options command, Request.ofArguments? arguments = some (.run options command) ∧
      (invoke env files now reading arguments).1.files =
        remains env files options now reading command := by
  obtain ⟨options, command, failure, hrequest, hfailure, hinvoke⟩ := runOn_of_exit h
  obtain ⟨hfiles, hcause⟩ := runOn_of_error hfailure
  refine ⟨options, command, hrequest, ?_⟩
  rw [hinvoke, hfiles]
  cases command with
  | plot words => exact files_run_plot env files options now reading words
  | repl =>
    rw [remains]
    split
    · rfl
    · next hwhole =>
      have hrun := hcause.resolve_right fun hbreak => hwhole hbreak.2
      exact files_run_of_error (fun _ => Command.noConfusion) hrun
  | eval _ | keypad _ _ | history _ | precision _ | suggestions | formula _ | marks _ =>
    have hrun := hcause.resolve_right fun hbreak => Command.noConfusion hbreak.1
    exact files_run_of_error (fun _ => Command.noConfusion) hrun

/-- A greeting is no plot, so the program fails; but the greeting has been recorded. -/
theorem greeting_recorded_by_plot :
    let files : FileTree := {}
    let plotted := invoke {} files 0 {} ["--store", "s.json", "plot", "hello"]
    plotted.2 = 1 ∧ files.contains "s.json" = false ∧
      plotted.1.files.contains "s.json" = true := by
  decide +kernel

/-- A greeting that was to be plotted is kept just as if it was to be answered. -/
theorem greeting_plotted_as_answered :
    let options : Options := { store := some "s.json" }
    let plotted := invoke {} {} 0 {} ["--store", "s.json", "plot", "hello"]
    plotted.2 = 1 ∧ plotted.1.files = (run {} {} options 0 [] (.eval ["hello"])).1.files := by
  intro options plotted
  have hstatus : plotted.2 = 1 := by decide +kernel
  have hrequest : Request.ofArguments? ["--store", "s.json", "plot", "hello"] =
      some (.run options (.plot ["hello"])) := by
    decide +kernel
  have hrecorded : isRecorded {} {} options 0 ["hello"] = true := by
    decide +kernel
  obtain ⟨options', command, hrequest', hfiles⟩ := files_of_failure hstatus
  rw [hrequest] at hrequest'
  cases hrequest'
  refine ⟨hstatus, ?_⟩
  rw [hfiles, remains, if_pos hrecorded]

end Program

end Abacus
