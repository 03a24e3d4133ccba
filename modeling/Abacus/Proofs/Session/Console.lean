import Abacus.Proofs.Evaluator.Journal
import Abacus.Proofs.Input
import Abacus.Session

/-!
# Sessions at a console

A session and the machine with its store make a console.  The input line is edited and submitted
there, directly, by the equals key or by a suggestion, and the screen shows what became of it.

A submission moves the input line, the history and the store together or not at all
(`Console.submitted_step`).  An outcome that is no answer leaves the line that was submitted, with
its caret and its selection, and nothing else has changed; an answer empties the line and puts one
item in front of the history.

What is on the screen is told by the past alone: it is the outcome of the last submission since the
last clearing (`Console.last_run`).
-/

namespace Abacus

namespace Session

/-! ### Actions -/

/-- What may be done at a console. -/
inductive Action
  | edit (e : Input.Edit)
  | press (key : Input.Key)
  | submit
  /-- Puts a text in the place of the input line and submits it. -/
  | suggest (text : String)
  | clear
  | clearHistory
  | setPrecision (precision : Nat)
deriving DecidableEq, Repr

/-- Whether an action wipes the screen. -/
def Action.isClear : Action → Bool
  | clear | press .clear => true
  | _ => false

/-- What an action does to a session. -/
def act (s : Session) (now : Nat) : Action → Traced Session
  | .edit e => .ok { s with input := s.input.edit e }
  | .press key => s.press now key
  | .submit => s.submit now
  | .suggest text => s.ask now text
  | .clear => .ok s.clear
  | .clearHistory => s.clearHistory
  | .setPrecision precision => s.setPrecision precision

/-- The input line that an action submits, if it is a submission. -/
def submitted? (s : Session) : Action → Option Input
  | .submit | .press .equals => some s.input
  | .suggest text => some (s.input.setText text)
  | _ => none

/-- The outcome of an action, if it is a submission. -/
def outcome? (s : Session) (now : Nat) (a : Action) : Option Outcome :=
  (s.submitted? a).map fun line => (s.evaluator.submit now line.text).value.2

/-- A submission submits its line. -/
theorem act_of_submitted? {s : Session} {a : Action} {line : Input}
    (h : s.submitted? a = some line) (now : Nat) :
    s.act now a = submit { s with input := line } now := by
  unfold submitted? at h
  split at h
  · cases h; rfl
  · cases h; rfl
  · cases h; rfl
  · cases h

theorem value_submit (s : Session) (now : Nat) :
    let x := s.evaluator.submit now s.input.text
    (s.submit now).value =
      { evaluator := x.value.1
        input := if x.value.2.isRecorded then {} else s.input
        last := some x.value.2 } := by
  have hclear : s.input.clear = {} := rfl
  simp only [submit, Traced.value_bind, Traced.value_pure, hclear]

theorem saves_submit (s : Session) (now : Nat) :
    (s.submit now).saves = (s.evaluator.submit now s.input.text).saves := by
  simp [submit]

/-- The screen after an action. -/
theorem last_act (s : Session) (now : Nat) (a : Action) :
    (s.act now a).value.last = if a.isClear then none else (s.outcome? now a).or s.last := by
  cases a with
  | press key =>
    cases key with
    | equals =>
      simp only [act, press, value_submit]
      rfl
    | text _ | clear => rfl
  | submit =>
    simp only [act, value_submit]
    rfl
  | suggest _ =>
    simp only [act, ask, value_submit]
    rfl
  | edit _ | clear | clearHistory | setPrecision _ => rfl

/-- Wiping the screen leaves the evaluator alone and saves nothing. -/
theorem act_of_isClear {s : Session} {a : Action} (h : a.isClear = true) (now : Nat) :
    s.act now a = .ok s.clear := by
  unfold Action.isClear at h
  split at h
  · rfl
  · rfl
  · cases h

end Session

/-! ### Consoles -/

/-- A session and the machine with its store. -/
structure Console where
  machine : Machine
  session : Session

namespace Console

/-- A session whose evaluator is loaded from the store of a machine. -/
def start (variableMatch : VariableMatch) (celebrationTime : Nat) (m : Machine) : Console :=
  let x := Evaluator.load variableMatch celebrationTime m.store.get?
  { machine := m.performAll x.effects, session := { evaluator := x.value } }

/-- Does something and carries out what it asks for. -/
def step (c : Console) (now : Nat) (a : Session.Action) : Console :=
  let x := c.session.act now a
  { machine := c.machine.performAll x.effects, session := x.value }

/-- The console after some actions, each with its time. -/
def run (c : Console) (actions : List (Nat × Session.Action)) : Console :=
  actions.foldl (fun c (now, a) => c.step now a) c

/-- The actions with their outcomes. -/
def past (c : Console) : List (Nat × Session.Action) → List (Session.Action × Option Outcome)
  | [] => []
  | (now, a) :: actions => (a, c.session.outcome? now a) :: (c.step now a).past actions

/-- The outcome of the last submission since the last clearing. -/
def shown (past : List (Session.Action × Option Outcome)) : Option Outcome :=
  (past.reverse.takeWhile (!·.1.isClear)).findSome? Prod.snd

theorem run_concat (c : Console) (actions : List (Nat × Session.Action)) (now : Nat)
    (a : Session.Action) : c.run (actions ++ [(now, a)]) = (c.run actions).step now a := by
  simp [run]

theorem past_concat (c : Console) (actions : List (Nat × Session.Action)) (now : Nat)
    (a : Session.Action) :
    c.past (actions ++ [(now, a)]) =
      c.past actions ++ [(a, (c.run actions).session.outcome? now a)] := by
  induction actions generalizing c with
  | nil => rfl
  | cons first actions ih =>
    rw [List.cons_append, past, ih, past]
    rfl

theorem shown_concat (past : List (Session.Action × Option Outcome)) (a : Session.Action)
    (outcome? : Option Outcome) :
    shown (past ++ [(a, outcome?)]) = if a.isClear then none else outcome?.or (shown past) := by
  unfold shown
  rw [List.reverse_append, List.reverse_singleton, List.singleton_append]
  cases hclear : a.isClear with
  | true => simp [hclear]
  | false => cases outcome? <;> simp [hclear]

/-! ### One action -/

/-- The input line that was submitted is there, and neither the records nor the store nor the files
have changed; nothing was to be saved. -/
structure Keeps (c : Console) (now : Nat) (a : Session.Action) (line : Input) : Prop where
  input_eq : (c.step now a).session.input = line
  history_eq : (c.step now a).session.evaluator.history = c.session.evaluator.history
  precision_eq : (c.step now a).session.evaluator.precision = c.session.evaluator.precision
  saves_eq : (c.session.act now a).saves = []
  store_eq : (c.step now a).machine.store = c.machine.store
  files_eq : (c.step now a).machine.files = c.machine.files

/-- The input line is empty, and the history has one item more in front; when it is full, the oldest
item is gone. -/
structure Consumes (c : Console) (now : Nat) (a : Session.Action) (item : HistoryItem) : Prop where
  input_eq : (c.step now a).session.input = { text := "", start := 0, stop := 0 }
  history_eq : (c.step now a).session.evaluator.history =
    (item :: c.session.evaluator.history).take 20

variable {c : Console} {now : Nat} {a : Session.Action} {line : Input}

/-- An outcome that is not recorded leaves everything as it was. -/
theorem keeps_of_not_isRecorded (h : c.session.submitted? a = some line)
    (hrecorded : (c.session.evaluator.submit now line.text).value.2.isRecorded = false) :
    c.Keeps now a line := by
  have hact := Session.act_of_submitted? h now
  have hsubmit := c.session.evaluator.answers_submit now line.text
  have hitem : (c.session.evaluator.submit now line.text).value.2.item? = none := by
    rw [← Option.not_isSome_iff_eq_none, Outcome.isSome_item?, hrecorded]
    exact Bool.false_ne_true
  rw [hsubmit.outcome_eq] at hitem
  have hrecords := hsubmit.records_eq
  rw [hitem] at hrecords
  have hsaves : (c.session.act now a).saves = [] := by
    rw [hact, Session.saves_submit, hsubmit.saves_eq, hitem]
    rfl
  obtain ⟨hstore, hfiles⟩ := c.machine.performAll_of_saves_eq_nil hsaves
  refine ⟨?_, ?_, ?_, hsaves, hstore, hfiles⟩
  · simp only [step, hact, Session.value_submit, hrecorded]
    rfl
  · simp only [step, hact, Session.value_submit]
    exact congrArg Records.history hrecords
  · simp only [step, hact, Session.value_submit]
    exact congrArg Records.precision hrecords

/-- An outcome that is recorded empties the line and puts its item into the history. -/
theorem consumes_of_isRecorded (h : c.session.submitted? a = some line)
    (hrecorded : (c.session.evaluator.submit now line.text).value.2.isRecorded = true) :
    ∃ item, (c.session.evaluator.submit now line.text).value.2.item? = some item ∧
      c.Consumes now a item := by
  have hact := Session.act_of_submitted? h now
  have hsubmit := c.session.evaluator.answers_submit now line.text
  obtain ⟨item, hitem⟩ := Option.isSome_iff_exists.1 ((Outcome.isSome_item? _).trans hrecorded)
  refine ⟨item, hitem, ?_, ?_⟩
  · simp only [step, hact, Session.value_submit, hrecorded]
    rfl
  · have hrecords := hsubmit.records_eq
    rw [← hsubmit.outcome_eq, hitem] at hrecords
    simp only [step, hact, Session.value_submit]
    exact congrArg Records.history hrecords

/-- **A submission without an answer changes nothing, and an answer consumes its line.** -/
theorem submitted_step (h : c.session.submitted? a = some line) :
    ∃ outcome, c.session.outcome? now a = some outcome ∧
      match outcome with
      | .incomplete _ | .error .. => c.Keeps now a line
      | .canned .. | .graph .. | .value .. =>
        ∃ item, outcome.item? = some item ∧ c.Consumes now a item := by
  refine ⟨(c.session.evaluator.submit now line.text).value.2, ?_, ?_⟩
  · rw [Session.outcome?, h, Option.map_some]
  · have hkeeps : _ → c.Keeps now a line := keeps_of_not_isRecorded h
    have hconsumes : _ → ∃ item, _ ∧ c.Consumes now a item := consumes_of_isRecorded h
    cases houtcome : (c.session.evaluator.submit now line.text).value.2 <;>
      simp only [houtcome] at hkeeps hconsumes
    · exact hconsumes rfl
    · exact hconsumes rfl
    · exact hconsumes rfl
    · exact hkeeps rfl
    · exact hkeeps rfl

/-! ### Runs -/

/-- **The screen shows the outcome of the last submission since the last clearing.** -/
theorem last_run (variableMatch : VariableMatch) (celebrationTime : Nat) (m : Machine)
    (actions : List (Nat × Session.Action)) :
    let c := start variableMatch celebrationTime m
    (c.run actions).session.last = shown (c.past actions) := by
  intro c
  induction actions using List.reverseRecOn with
  | nil => rfl
  | append_singleton actions x ih =>
    obtain ⟨now, a⟩ := x
    rw [run_concat, past_concat, shown_concat, ← ih]
    exact Session.last_act _ now a

theorem plot?_eq_some_iff (s : Session) (plot : Plot) :
    s.plot? = some plot ↔ ∃ input, s.last = some (.graph input (.ok plot)) := by
  unfold Session.plot?
  constructor
  · intro h
    obtain ⟨outcome, hlast, hplot⟩ := Option.bind_eq_some_iff.1 h
    unfold Outcome.plot? at hplot
    split at hplot
    · next input p =>
      cases hplot
      exact ⟨input, hlast⟩
    · cases hplot
  · rintro ⟨input, hlast⟩
    rw [hlast]
    rfl

/-- **A session keeps failed input and consumes answered input.**  Whatever the store held at first
and whatever was done, consider a submission, be it direct, by the equals key or by a suggestion.
If it gives an incomplete or erroneous outcome, the line that was submitted stays with its caret and
its selection, the history, the precision, the store and the files are as before, and nothing is
saved.  If it gives a reply, a plot or a value, the line is empty and the history has one item more
in front.

At any time the screen shows the outcome of the last submission since it was last cleared, and a
plot exactly if this is a plot that has enough points.  Clearing wipes line and screen and leaves
all else alone. -/
theorem keeps_failed_input (variableMatch : VariableMatch) (celebrationTime : Nat) (m : Machine)
    (actions : List (Nat × Session.Action)) :
    let first := start variableMatch celebrationTime m
    let c := first.run actions
    (∀ now a line, c.session.submitted? a = some line →
      ∃ outcome, c.session.outcome? now a = some outcome ∧
        match outcome with
        | .incomplete _ | .error .. => c.Keeps now a line
        | .canned .. | .graph .. | .value .. =>
          ∃ item, outcome.item? = some item ∧ c.Consumes now a item) ∧
      c.session.last = shown (first.past actions) ∧
      (∀ plot, c.session.plot? = some plot ↔
        ∃ input, shown (first.past actions) = some (.graph input (.ok plot))) ∧
      ∀ now a, a.isClear = true →
        (c.step now a).session = { evaluator := c.session.evaluator } ∧
          (c.session.act now a).saves = [] ∧
          (c.step now a).machine = c.machine := by
  intro first c
  have hlast : c.session.last = shown (first.past actions) :=
    last_run variableMatch celebrationTime m actions
  refine ⟨fun now a line h => submitted_step h, hlast, fun plot => ?_, fun now a h => ?_⟩
  · rw [← hlast]
    exact plot?_eq_some_iff c.session plot
  · have hact := Session.act_of_isClear (s := c.session) h now
    refine ⟨?_, ?_, ?_⟩
    · rw [step, hact]
      rfl
    · rw [hact]
      rfl
    · rw [step, hact]
      rfl

end Console

end Abacus
