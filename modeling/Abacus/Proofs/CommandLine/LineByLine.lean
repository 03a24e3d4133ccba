import Abacus.Proofs.CommandLine.Arguments
import Abacus.Proofs.CommandLine.Running
import Abacus.Proofs.Evaluator.Classification
import Abacus.Proofs.Session.Console
import Abacus.Proofs.Store.Reopening

/-!
# One session or many runs

Lines may be fed to one session, or the program may be run anew for each of them, so that it loads
from its store what the run before has saved there.  Either way the lines have the same answers, and
the files are the same in the end (`Program.session_eq_runs`).

The runs are those of the whole program, given the line on its command line behind `eval --`
(`Program.invokeEach_eq`).

The reason is that a session in memory never differs from what its store holds
(`Program.InStep`): a new run opens the store that the session has open, and finds there the records
of the session.
-/

namespace Abacus

/-! ### Lines that are texts -/

namespace Repl

/-- A line that is no directive. -/
structure IsText (line : String) : Prop where
  notMem : Text.trim line ∉ [":q", ":quit", ":history", ":clear"]
  not_prefix : ¬ ":precision".toList <+: (Text.trim line).toList

instance (line : String) : Decidable (IsText line) :=
  decidable_of_iff (_ ∧ _) ⟨fun h => ⟨h.1, h.2⟩, fun h => ⟨h.1, h.2⟩⟩

theorem parse_of_isText {line : String} (h : IsText line) :
    Line.parse line = .text (Text.trim line) := by
  obtain ⟨hnotMem, hprefix⟩ := h
  unfold Line.parse
  split
  · next heq => exact absurd heq (by simp_all)
  · next heq => exact absurd heq (by simp_all)
  · next heq => exact absurd heq (by simp_all)
  · next heq => exact absurd heq (by simp_all)
  · rw [if_neg (by simpa using hprefix)]

end Repl

/-- Blanks around a text do not matter. -/
theorem Question.ofText_congr {s t : String} (h : Text.trim s = Text.trim t) :
    ofText s = ofText t := by
  have hchars : Text.trimChars s.toList = Text.trimChars t.toList := by
    simpa [Text.trim, String.ofList_inj] using h
  rw [ofText, ofText, hchars]

/-- Evaluators that are alike do alike with the same question. -/
theorem Evaluator.Alike.submit {e f : Evaluator} (h : e.Alike f) {s t : String}
    (hst : Text.trim s = Text.trim t) (now later : Nat) :
    (e.submit now s).value.2 = (f.submit later t).value.2 ∧
      (e.submit now s).saves = (f.submit later t).saves := by
  have he := e.answers_submit now s
  have hf := f.answers_submit later t
  rw [precision, h.records_eq, h.variableMatch_eq, Question.ofText_congr hst] at he
  rw [he.outcome_eq, he.saves_eq, hf.outcome_eq, hf.saves_eq, h.records_eq]
  exact ⟨rfl, rfl⟩

/-! ### Stores in files -/

namespace Store.File

variable {files : FileTree} {path : String} {f : File}

/-- A store that has just been opened. -/
theorem eq_of_open (h : (File.open files path).value = .ok f) :
    f = { path, contents := f.contents } := by
  unfold File.open at h
  dsimp only at h
  split at h
  · cases h
  · cases h
    rfl

/-- What is put into a store is found by the next one who opens it. -/
theorem open_set (h : (File.open files path).value = .ok f) (hw : files.Writable path)
    (key value : String) :
    (File.open (f.set files key value).2.1 path).value = .ok (f.set files key value).1 ∧
      (f.set files key value).2.1.Writable path := by
  obtain ⟨u, hwrite, hcontains, hread, hagain⟩ :=
    hw.write (f.contents.insert key value).fileText
  have hset : f.set files key value =
      ({ path, contents := f.contents.insert key value }, u, .ok ()) := by
    rw [eq_of_open h]
    simp only [File.set, hwrite]
    rfl
  have hholds : Holds u path (some _) := ⟨hcontains, hread⟩
  rw [hset, value_open hholds, Option.bind_some, Contents.decode?_fileText]
  exact ⟨rfl, hagain⟩

/-- What is saved is found by the next one who opens the store. -/
theorem open_setAll (h : (File.open files path).value = .ok f) (saves : List (String × String))
    (hw : saves ≠ [] → files.Writable path) :
    ∃ f' files', (Backend.program.setAll (.file f, files) saves).1 = (.file f', files') ∧
      (File.open files' path).value = .ok f' ∧
      (files.Writable path → files'.Writable path) := by
  induction saves generalizing f files with
  | nil => exact ⟨f, files, rfl, h, id⟩
  | cons save saves ih =>
    have hwritable := hw (List.cons_ne_nil save saves)
    obtain ⟨hopen, hagain⟩ := open_set h hwritable save.1 save.2
    obtain ⟨f', files', hsaved, hopen', hagain'⟩ := ih hopen fun _ => hagain
    refine ⟨f', files', ?_, hopen', fun _ => hagain' hagain⟩
    have hfirst : (Backend.program.set (.file f, files) save.1 save.2).1 =
        (.file (f.set files save.1 save.2).1, (f.set files save.1 save.2).2.1) := by
      simp only [Backend.program, Store.set]
    rw [Backend.setAll]
    dsimp only
    rw [hfirst]
    exact hsaved

end Store.File

/-! ### Sessions -/

namespace Repl

/-- The line that tells of a celebration. -/
def celebrationLine (celebrating : Bool) : String :=
  if celebrating then "  🎉\n" else ""

variable {s : Session} {now : Nat} {text : String} {x : Traced (Evaluator × Outcome)}

/-- What a session does with a text: the evaluator answers it, and the answer is printed. -/
theorem answer_of_submit (h : s.evaluator.submit now text = x) :
    (answer s now text).value.evaluator = x.value.1 ∧ (answer s now text).saves = x.saves ∧
      (answer s now text).prints = x.value.2.description ++ "\n" ++
        celebrationLine (x.value.1.celebrating now) := by
  have hask : s.ask now text = x >>= fun y =>
      pure { evaluator := y.1
             input := if y.2.isRecorded then {} else s.input.setText text
             last := some y.2 } := by
    rw [← h]
    rfl
  have hprints : x.prints = "" := by
    rw [← h]
    exact Evaluator.prints_submit s.evaluator now text
  simp only [answer, hask, Traced.value_bind, Traced.value_pure, Traced.saves_bind,
    Traced.saves_pure, Traced.prints_bind, Traced.prints_pure, hprints]
  by_cases hcelebrating : x.value.1.celebrating now = true
  · simp [hcelebrating, celebrationLine]
  · simp [hcelebrating, celebrationLine]

/-- A line that is a text is answered. -/
theorem step_of_isText {line : String} (hline : IsText line)
    (h : s.evaluator.submit now (Text.trim line) = x) :
    ∃ t celebrating, (step s now line).value = some t ∧ t.evaluator = x.value.1 ∧
      (step s now line).saves = x.saves ∧
      (step s now line).prints = x.value.2.description ++ "\n" ++ celebrationLine celebrating := by
  obtain ⟨hvalue, hsaves, hprints⟩ := answer_of_submit h
  have hstep : step s now line = some <$> answer s now (Text.trim line) := by
    rw [step, parse_of_isText hline]
    rfl
  rw [hstep, Traced.value_map, Traced.saves_map, Traced.prints_map]
  exact ⟨_, _, rfl, hvalue, hsaves, hprints⟩

/-- A session that is not over goes on with the other lines. -/
theorem run_cons_of_value {t : Session} {line : String} (h : (step s now line).value = some t)
    (rest : List (Nat × String)) :
    run s ((now, line) :: rest) =
      Traced.print prompt >>= fun _ => step s now line >>= fun _ => run t rest := by
  refine Traced.ext ?_ ?_
  · simp only [run, Traced.value_bind, h]
  · simp only [run, Traced.effects_bind, h]

theorem saves_run_cons {t : Session} {line : String} (h : (step s now line).value = some t)
    (rest : List (Nat × String)) :
    (run s ((now, line) :: rest)).saves = (step s now line).saves ++ (run t rest).saves := by
  rw [run_cons_of_value h, Traced.saves_bind, Traced.saves_bind, Traced.saves_print,
    List.nil_append]

/-- What a session prints with some answers: a prompt before each line and another one at the end, and
after an answer perhaps the line that tells of a celebration. -/
def transcript (answers : List (String × Bool)) : String :=
  .join (answers.map fun (answer, celebrating) => prompt ++ answer ++ celebrationLine celebrating) ++
    prompt

theorem transcript_cons (answer : String) (celebrating : Bool) (answers : List (String × Bool)) :
    transcript ((answer, celebrating) :: answers) =
      prompt ++ (answer ++ celebrationLine celebrating ++ transcript answers) := by
  simp only [transcript, List.map_cons, String.join_cons, String.append_assoc]

end Repl

/-! ### One line -/

namespace Program

variable {env : Environment} {files : FileTree} {options : Options} {path : String} {c : Config}
  {f : Store.File} {now : Nat} {text line : String} {x : Traced (Evaluator × Outcome)}

/-- A run that answers a line prints the outcome, and its files are those of any machine with the same
store that saves what the answer saves. -/
theorem run_eval (hload : Config.load files (env.configPath options) = .ok c)
    (hpath : env.storePath options c = some path)
    (hopen : (Store.File.open files path).value = .ok f)
    (h : (Command.evaluator c f.get?).value.submit now line = x) :
    (run env files options now [] (.eval [line])).1.output = x.value.2.description ++ "\n" ∧
      (run env files options now [] (.eval [line])).2 = .ok () ∧
      ∀ {α : Type} (m : Machine) (y : Traced α), m.store = .file f → m.files = files →
        y.saves = x.saves →
        (m.performAll y.effects).files = (run env files options now [] (.eval [line])).1.files := by
  obtain ⟨n, hstart, hstore, hfiles, houtput⟩ :=
    start_of_open hload (hpath ▸ Store.value_open_file hopen)
  obtain ⟨hrfiles, hroutput, hrvalue⟩ := run_of_start hstart now [] (.eval [line])
  have hget : n.store.get? = f.get? := by
    rw [hstore]
    rfl
  obtain ⟨hsaves, hprints⟩ := Command.runEval_eq c f.get? now [line]
  have hword : Command.joinWords [line] = line := rfl
  rw [hword, h] at hsaves hprints
  rw [hget, Command.run] at hrfiles hroutput
  refine ⟨?_, hrvalue, fun m y hmstore hmfiles hy => ?_⟩
  · rw [hroutput, houtput, String.empty_append, Traced.prints_map, hprints]
  · rw [hrfiles]
    refine (Machine.performAll_congr (hmstore.trans hstore.symm) (hmfiles.trans hfiles.symm) ?_).2
    rw [hy, Traced.saves_map, hsaves]

/-- A session and its machine hold what a new run finds in the files. -/
structure InStep (path : String) (c : Config) (m : Machine) (s : Session) : Prop where
  exists_file : ∃ f, m.store = .file f ∧ (Store.File.open m.files path).value = .ok f
  storedIn : s.evaluator.records.StoredIn m.store.get?
  variableMatch_eq : s.evaluator.variableMatch = c.variableMatch

variable {m : Machine} {s t : Session}

/-- A session that saves what a submission saves still holds what a new run finds. -/
theorem InStep.submit (h : InStep path c m s) {α : Type} {y : Traced α}
    (hx : s.evaluator.submit now text = x) (ht : t.evaluator = x.value.1)
    (hy : y.saves = x.saves) (hw : y.saves ≠ [] → m.files.Writable path) :
    InStep path c (m.performAll y.effects) t ∧
      (m.files.Writable path → (m.performAll y.effects).files.Writable path) := by
  obtain ⟨⟨f, hstore, hopen⟩, hstored, hmatch⟩ := h
  have hsubmit := s.evaluator.answers_submit now text
  rw [hx] at hsubmit
  obtain ⟨f', files', hset, hopen', hagain⟩ := Store.File.open_setAll hopen y.saves hw
  rw [← hstore, m.setAll_performAll y] at hset
  obtain ⟨hstore', hfiles'⟩ := Prod.mk.inj hset
  rw [← hfiles'] at hopen' hagain
  refine ⟨⟨⟨f', hstore', hopen'⟩, ?_, ?_⟩, hagain⟩
  · rw [m.get?_performAll y, hy, ht, hsubmit.records_eq, hsubmit.saves_eq]
    exact hstored.note _
  · rw [ht, hsubmit.variableMatch_eq, hmatch]

/-- **A line is answered alike** by a session and by a new run, and afterwards both hold the same
again. -/
theorem InStep.step (h : InStep path c m s)
    (hload : Config.load m.files (env.configPath options) = .ok c)
    (hpath : env.storePath options c = some path) {typed line : String}
    (htext : Repl.IsText typed) (hline : Text.trim typed = Text.trim line)
    (hvalue : (Repl.step s now typed).value = some t)
    (hw : (Repl.step s now typed).saves ≠ [] → m.files.Writable path) (later : Nat) :
    let x := Repl.step s now typed
    let r := run env m.files options later [] (.eval [line])
    InStep path c (m.performAll x.effects) t ∧ (m.performAll x.effects).files = r.1.files ∧
      (∃ celebrating, x.prints = r.1.output ++ Repl.celebrationLine celebrating) ∧
      r.2 = .ok () ∧
      (m.files.Writable path → (m.performAll x.effects).files.Writable path) := by
  dsimp only
  obtain ⟨f, hstore, hopen⟩ := h.exists_file
  obtain ⟨x, hx⟩ : ∃ x, s.evaluator.submit now (Text.trim typed) = x := ⟨_, rfl⟩
  obtain ⟨y, hy⟩ : ∃ y, (Command.evaluator c f.get?).value.submit later line = y := ⟨_, rfl⟩
  obtain ⟨t', celebrating, hvalue', ht, hsaves, hprints⟩ := Repl.step_of_isText htext hx
  obtain rfl : t = t' := Option.some.inj (hvalue.symm.trans hvalue')
  obtain ⟨houtput, hr, hfiles⟩ := run_eval hload hpath hopen hy
  -- the new run finds the records of the session
  have halike : s.evaluator.Alike (Command.evaluator c f.get?).value := by
    refine ⟨?_, h.variableMatch_eq⟩
    have hstored := h.storedIn
    rw [hstore] at hstored
    exact hstored.symm
  obtain ⟨houtcome, hsame⟩ := halike.submit ((Text.trim_trim typed).trans hline) now later
  rw [hx, hy] at houtcome hsame
  obtain ⟨hinStep, hagain⟩ := h.submit hx ht hsaves hw
  refine ⟨hinStep, ?_, ⟨celebrating, ?_⟩, hr, hagain⟩
  · exact hfiles m _ hstore rfl (hsaves.trans hsame)
  · rw [hprints, houtcome, houtput]

/-! ### Many lines -/

/-- The program run anew for each line, with the line as the text to be answered; each run finds the
files as the run before has left them.  Beside the runs, the files in the end. -/
def runEach (env : Environment) (options : Options) :
    FileTree → List (Nat × String) → List (Machine × Except Failure Unit) × FileTree
  | files, [] => ([], files)
  | files, (now, line) :: lines =>
    let first := run env files options now [] (.eval [line])
    let (rest, last) := runEach env options first.1.files lines
    (first :: rest, last)

theorem runEach_cons (files : FileTree) (now : Nat) (line : String) (lines : List (Nat × String)) :
    runEach env options files ((now, line) :: lines) =
      let first := run env files options now [] (.eval [line])
      (first :: (runEach env options first.1.files lines).1,
        (runEach env options first.1.files lines).2) := rfl

/-- The whole program invoked anew for each line, which stands on the command line behind `eval --`.
Beside the exit statuses and machines, the files in the end. -/
def invokeEach (env : Environment) (options : Options) :
    FileTree → List (Nat × String) → List (Machine × Nat) × FileTree
  | files, [] => ([], files)
  | files, (now, line) :: lines =>
    let first := invoke env files now {} (options.arguments ++ ["eval", "--", line])
    let (rest, last) := invokeEach env options first.1.files lines
    (first :: rest, last)

/-- **The runs for some lines are those of the whole program.** -/
theorem invokeEach_eq (ho : options.Expressible) (env : Environment) (files : FileTree)
    (lines : List (Nat × String)) :
    invokeEach env options files lines =
      (runEach env options files lines).map (·.map (·.map id exitStatus)) id := by
  induction lines generalizing files with
  | nil => rfl
  | cons first lines ih =>
    obtain ⟨now, line⟩ := first
    obtain ⟨hline, -⟩ := invoke_line ho env files now {} line
    rw [invokeEach, hline, runEach_cons]
    simp only [Prod.map_fst, id_eq, ih, Prod.map_apply, List.map_cons]
    rfl

/-- **Lines are answered alike** by a session and by new runs. -/
theorem InStep.run (h : InStep path c m s) (hpath : env.storePath options c = some path)
    {typed lines : List (Nat × String)}
    (hload : ∀ earlier, earlier <+: lines →
      Config.load (runEach env options m.files earlier).2 (env.configPath options) = .ok c)
    (htext : ∀ line ∈ typed, Repl.IsText line.2)
    (hlines : typed.map (Text.trim ·.2) = lines.map (Text.trim ·.2))
    (hw : (Repl.run s typed).saves ≠ [] → m.files.Writable path) :
    let x := Repl.run s typed
    let runs := runEach env options m.files lines
    (∃ answers, answers.map Prod.fst = runs.1.map (·.1.output) ∧
      x.prints = Repl.transcript answers) ∧
      (m.performAll x.effects).files = runs.2 ∧ ∀ r ∈ runs.1, r.2 = .ok () := by
  dsimp only
  induction typed generalizing m s lines with
  | nil =>
    obtain rfl : lines = [] := List.map_eq_nil_iff.1 hlines.symm
    exact ⟨⟨[], rfl, Traced.prints_print _⟩, rfl, by simp [runEach]⟩
  | cons first typed ih =>
    obtain ⟨now, line⟩ := first
    cases lines with
    | nil => cases hlines
    | cons other lines =>
      obtain ⟨later, word⟩ := other
      obtain ⟨hfirst, hrest⟩ := List.cons.inj hlines
      obtain ⟨htextFirst, htextRest⟩ := List.forall_mem_cons.1 htext
      dsimp only at hfirst htextFirst
      -- the prompt changes nothing that a new run could find
      obtain ⟨n, hprompt, hn, hnfiles⟩ : ∃ n, m.perform (.print Repl.prompt) = n ∧
          InStep path c n s ∧ n.files = m.files :=
        ⟨_, rfl, ⟨h.exists_file, h.storedIn, h.variableMatch_eq⟩, rfl⟩
      obtain ⟨r, hr⟩ : ∃ r, run env m.files options later [] (.eval [word]) = r := ⟨_, rfl⟩
      obtain ⟨t, -, hvalue, -⟩ := Repl.step_of_isText htextFirst rfl
      rw [Repl.saves_run_cons hvalue, ← hnfiles] at hw
      rw [← hnfiles] at hload hr ⊢
      obtain ⟨hnext, hfiles, ⟨celebrating, hprints⟩, hok, hagain⟩ :=
        hn.step (hload [] List.nil_prefix) hpath htextFirst hfirst hvalue
          (fun hne => hw (List.append_ne_nil_of_left_ne_nil hne _)) later
      rw [hr] at hfiles hprints hok
      have hloadRest : ∀ earlier, earlier <+: lines → Config.load
          (runEach env options (n.performAll (Repl.step s now line).effects).files earlier).2
          (env.configPath options) = .ok c := by
        intro earlier hearlier
        have hboth := hload ((later, word) :: earlier) ((List.prefix_cons_inj _).2 hearlier)
        rw [runEach_cons, hr] at hboth
        rw [hfiles]
        exact hboth
      obtain ⟨⟨answers, hanswers, htranscript⟩, hlast, hruns⟩ := ih hnext hloadRest htextRest hrest
        fun hne => hagain (hw (List.append_ne_nil_of_right_ne_nil _ hne))
      rw [hfiles] at hanswers hlast hruns
      rw [Repl.run_cons_of_value hvalue, runEach_cons, hr]
      refine ⟨⟨(r.1.output, celebrating) :: answers, ?_, ?_⟩, ?_, ?_⟩
      · rw [List.map_cons, List.map_cons, hanswers]
      · rw [Traced.prints_bind, Traced.prints_bind, Traced.prints_print, hprints, htranscript,
          Repl.transcript_cons]
      · rw [Traced.effects_bind, Traced.effects_bind, m.performAll_append,
          Machine.performAll_append, ← hlast, ← hprompt]
        rfl
      · exact List.forall_mem_cons.2 ⟨hok, hruns⟩

/-- **One session equals many runs.**  Let the store be in a file that can be opened, and let it be
possible to write there if anything is to be saved; and let every run read the same settings.  Take
any lines that are no directives.  A session that reads them succeeds, and so does every run of the
program that is given one of them as the text to be answered, each on the files that the run before
has left; spaces and line breaks around a line may differ, and so may the times.  The session prints
what these runs print, in the same order, with its prompts and the lines that tell of celebrations
between.  In the end all files are the same, and the file of the store is among them. -/
theorem session_eq_runs {typed lines : List (Nat × String)}
    (hpath : env.storePath options c = some path)
    (hopen : (Store.File.open files path).value = .ok f)
    (hload : ∀ earlier, earlier <+: lines →
      Config.load (runEach env options files earlier).2 (env.configPath options) = .ok c)
    (htext : ∀ line ∈ typed, Repl.IsText line.2)
    (hlines : typed.map (Text.trim ·.2) = lines.map (Text.trim ·.2))
    (now : Nat) (hw : (Command.repl.run c f.get? now typed).saves ≠ [] → files.Writable path) :
    let session := run env files options now typed .repl
    let runs := runEach env options files lines
    session.2 = .ok () ∧ (∀ r ∈ runs.1, r.2 = .ok ()) ∧
      (∃ answers, answers.map Prod.fst = runs.1.map (·.1.output) ∧
        session.1.output = Repl.transcript answers) ∧
      session.1.files = runs.2 := by
  dsimp only
  have hfirst : Config.load files (env.configPath options) = .ok c := hload [] List.nil_prefix
  obtain ⟨m, hstart, hstore, hfiles, houtput⟩ :=
    start_of_open hfirst (hpath ▸ Store.value_open_file hopen)
  obtain ⟨hrfiles, hroutput, hrvalue⟩ := run_of_start hstart now typed .repl
  have hget : m.store.get? = f.get? := by
    rw [hstore]
    rfl
  rw [hget] at hrfiles hroutput
  -- the session begins with what the first new run would find
  obtain ⟨e, he⟩ : ∃ e, Command.evaluator c f.get? = e := ⟨_, rfl⟩
  have hquiet : e.Quiet := he ▸ Command.quiet_evaluator c f.get?
  obtain ⟨n, hn⟩ : ∃ n, m.performAll e.effects = n := ⟨_, rfl⟩
  obtain ⟨hnstore, hnfiles, hnoutput⟩ := hn ▸ hquiet.performAll m
  have hcommand : Command.repl.run c f.get? now typed =
      e >>= fun e => Repl.run { evaluator := e } typed >>= fun _ => pure (.ok ()) := by
    rw [← he]
    rfl
  have hinStep : InStep path c n { evaluator := e.value } := by
    refine ⟨⟨f, hnstore.trans hstore, ?_⟩, ?_, ?_⟩
    · rw [hnfiles, hfiles]
      exact hopen
    · rw [hnstore, hget, ← he]
      rfl
    · rw [← he]
      rfl
  rw [hcommand] at hw hrfiles hroutput
  simp only [Traced.saves_bind, hquiet.saves_eq, Traced.saves_pure, List.nil_append,
    List.append_nil] at hw
  simp only [Traced.prints_bind, hquiet.prints_eq, Traced.prints_pure, String.empty_append,
    String.append_empty, houtput] at hroutput
  simp only [Traced.effects_bind, Traced.effects_pure, List.append_nil, m.performAll_append,
    hn] at hrfiles
  have hstays : n.files = files := hnfiles.trans hfiles
  rw [← hstays] at hw
  have hruns := hinStep.run hpath (hstays ▸ hload) htext hlines hw
  rw [hstays] at hruns
  obtain ⟨⟨answers, hanswers, htranscript⟩, hlast, hok⟩ := hruns
  refine ⟨hrvalue, hok, ⟨answers, hanswers, ?_⟩, ?_⟩
  · rw [hroutput, htranscript]
  · rw [hrfiles, hlast]

/-- A greeting and an empty line, in one session and in two runs. -/
theorem session_of_greeting :
    let options : Options := { store := some "s.json" }
    let session := run {} {} options 0 [(0, "hello\n"), (7, " ")] .repl
    let runs := runEach {} options {} [(3, "hello"), (4, "")]
    (∃ answers, answers.map Prod.fst =
        ["Hello there!\n", "Please enter a calculation or question.\n"] ∧
      session.1.output = Repl.transcript answers) ∧
      session.1.files = runs.2 := by
  intro options session runs
  have hopen : (Store.File.open {} "s.json").value = .ok { path := "s.json" } := by
    have hnone : Store.Holds {} "s.json" none := by
      rw [Store.Holds]
      decide +kernel
    exact Store.value_open hnone
  have hload : ∀ earlier, earlier <+: [(3, "hello"), (4, "")] →
      Config.load (runEach {} options {} earlier).2 (Environment.configPath {} options) = .ok {} :=
    fun _ _ => rfl
  have htext : ∀ line ∈ [(0, "hello\n"), (7, " ")], Repl.IsText line.2 := by
    decide +kernel
  have hwritable : ({} : FileTree).Writable "s.json" :=
    FileTree.writable_of_write "" (by decide +kernel)
  have houtputs : runs.1.map (·.1.output) =
      ["Hello there!\n", "Please enter a calculation or question.\n"] := by
    decide +kernel
  obtain ⟨-, -, hprinted, hfiles⟩ :=
    session_eq_runs rfl hopen hload htext (by decide +kernel) 0 fun _ => hwritable
  exact ⟨houtputs ▸ hprinted, hfiles⟩

end Program

end Abacus
