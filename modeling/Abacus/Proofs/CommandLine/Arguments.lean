import Abacus.CommandLine.Program

/-!
# Command lines for a request

Options may be written out in front of a command (`Options.arguments`), and they are read as these
options again, whatever the command is (`Request.ofArguments?_command`).  Behind them `eval` asks for
an answer to some words.  Two hyphens let the words be any texts (`Request.ofArguments?_eval`);
without the hyphens no word may begin with one (`Request.ofArguments?_eval_of_plain`).

So the program answers a line on the command line `eval -- LINE` (`Program.invoke_line`), and it
begins a session on the command line `repl` (`Program.invoke_repl`).
-/

namespace Abacus

open Arguments

/-! ### Options -/

/-- Options whose paths can be written as arguments. -/
structure Options.Expressible (o : Options) : Prop where
  isValue_config : ∀ path ∈ o.config, isValue path = true
  isValue_store : ∀ path ∈ o.store, isValue path = true

namespace Options

/-- The parts of a command line that stand for some options. -/
def items (o : Options) : List Item :=
  o.config.toList.map .config ++ o.store.toList.map .store ++
    if o.ephemeral then [.ephemeral] else []

/-- The arguments that ask for some options. -/
def arguments (o : Options) : List String :=
  (o.config.toList.flatMap fun path => ["--config", path]) ++
    (o.store.toList.flatMap fun path => ["--store", path]) ++
      if o.ephemeral then ["--ephemeral"] else []

end Options

namespace Arguments

variable {l : Level} {o : Options}

/-- A path, if there is one, behind the name of its option. -/
theorem items_option {name : String} {make : String → Item} (hkind : l.kind name = .option make)
    (hname : name ≠ "--") {path? : Option String} (hpath : ∀ path ∈ path?, isValue path = true)
    (rest : List String) :
    l.items false ((path?.toList.flatMap fun path => [name, path]) ++ rest) =
      (l.items false rest).map (path?.toList.map make ++ ·) := by
  cases path? with
  | none => simp
  | some path => simp [Level.items, hkind, hname, hpath path rfl]

theorem items_ephemeral (ephemeral : Bool) (rest : List String) :
    l.items false ((if ephemeral then ["--ephemeral"] else []) ++ rest) =
      (l.items false rest).map ((if ephemeral then [.ephemeral] else []) ++ ·) := by
  cases ephemeral with
  | false => simp
  | true => simp [Level.items, Level.kind]

/-- **Options in front are read as these options**, at every level. -/
theorem items_arguments (ho : o.Expressible) (rest : List String) :
    l.items false (o.arguments ++ rest) = (l.items false rest).map (o.items ++ ·) := by
  have hconfig : l.kind "--config" = .option .config := rfl
  have hstore : l.kind "--store" = .option .store := rfl
  simp only [Options.arguments, Options.items, List.append_assoc,
    items_option hconfig (by decide) ho.isValue_config,
    items_option hstore (by decide) ho.isValue_store, items_ephemeral, Option.map_map,
    Function.comp_def]

/-- Words that do not begin with a hyphen are words, where no names of commands are expected. -/
theorem kind_of_plain {word : String} (h : word.toList.head? ≠ some '-') :
    Level.kind {} word = .word := by
  have hne : ∀ option : String, option.toList.head? = some '-' → word ≠ option := by
    rintro option hoption rfl
    exact h hoption
  have hafter : ∀ start : String, start.toList.head? = some '-' → after? start word = none := by
    intro start hstart
    rw [after?, if_neg]
    intro hprefix
    cases hs : start.toList with
    | nil =>
      rw [hs] at hstart
      cases hstart
    | cons c cs =>
      rw [hs] at hstart hprefix
      obtain ⟨rest, hrest⟩ := List.isPrefixOf_iff_prefix.1 hprefix
      rw [← hrest] at h
      exact h hstart
  rw [Level.kind, if_neg (hne _ rfl), if_neg (hne _ rfl), if_neg (hne _ rfl),
    if_neg (Option.some_ne_none word), if_neg (hne _ rfl),
    if_neg fun hversion => hne _ rfl hversion.1, hafter _ rfl, hafter _ rfl]
  simp only [hafter "--ephemeral=" rfl, hafter "--help=" rfl, Option.isSome_none, Option.any_none,
    Bool.false_eq_true, or_self, if_false]
  split
  · next heq => exact absurd (by rw [heq]; rfl) h
  · next heq => exact absurd (by rw [heq]; rfl) h
  · rfl

theorem items_of_plain {words : List String} (h : ∀ word ∈ words, word.toList.head? ≠ some '-')
    (started : Bool) : Level.items {} started words = some (words.map .word) := by
  induction words generalizing started with
  | nil => rfl
  | cons word words ih =>
    obtain ⟨hword, hwords⟩ := List.forall_mem_cons.1 h
    have hne : word ≠ "--" := by
      rintro rfl
      exact hword rfl
    simp [Level.items, hne, kind_of_plain hword, ih hwords]

end Arguments

/-! ### Requests -/

namespace Request

variable {o : Options}

theorem kind_of_command {name : String} (h : name ∈ Level.program.commands) :
    Level.program.kind name = .word := by
  simp only [Level.program, List.mem_cons, List.not_mem_nil, or_false] at h
  obtain rfl | rfl | rfl | rfl | rfl | rfl | rfl | rfl | rfl := h
  all_goals rfl

/-- A command has the options in front of it. -/
theorem options?_items (o : Options) (name : String) (rest : List String) :
    options? {} (o.items ++ [.command name rest]) = some o := by
  obtain ⟨config, store, ephemeral⟩ := o
  cases config <;> cases store <;> cases ephemeral <;> rfl

theorem next?_items (o : Options) (name : String) (rest : List String) :
    next? (o.items ++ [.command name rest]) = some (name, rest) := by
  obtain ⟨config, store, ephemeral⟩ := o
  cases config <;> cases store <;> cases ephemeral <;> rfl

theorem notMem_items {i : Item} (hi : i = .help ∨ i = .version) (o : Options) (name : String)
    (rest : List String) : (o.items ++ [Item.command name rest]).contains i = false := by
  obtain ⟨config, store, ephemeral⟩ := o
  obtain rfl | rfl := hi
  all_goals cases config <;> cases store <;> cases ephemeral <;> rfl

/-- **Options in front of a command are the options of the request.** -/
theorem ofArguments?_command (ho : o.Expressible) {name : String}
    (h : name ∈ Level.program.commands) (rest : List String) :
    ofArguments? (o.arguments ++ name :: rest) = commandRequest? o name rest := by
  have hitems : Level.program.items false (name :: rest) = some [.command name rest] := by
    have hne : name ≠ "--" := by
      rintro rfl
      exact absurd h (by decide)
    have hcommands : Level.program.commands ≠ [] := List.cons_ne_nil _ _
    simp [Level.items, kind_of_command h, hne, h, hcommands]
  rw [ofArguments?, items_arguments ho, hitems]
  simp only [Option.map_some, Option.bind_eq_bind, Option.bind_some, asksForHelp,
    notMem_items (.inl rfl), notMem_items (.inr rfl), options?_items, next?_items,
    Bool.false_eq_true, if_false]

/-- Words give no options. -/
theorem options?_words (o : Options) (words : List String) :
    options? o (words.map .word) = some o := by
  have hcount : ∀ i, (∀ text, i ≠ .word text) → (words.map Item.word).count i = 0 := by
    intro i hi
    rw [List.count_eq_zero]
    intro hmem
    obtain ⟨text, -, rfl⟩ := List.mem_map.1 hmem
    exact hi text rfl
  have hnil : words.filterMap (fun _ => (none : Option String)) = [] :=
    List.filterMap_eq_nil_iff.2 fun _ _ => rfl
  simp only [options?, hcount .ephemeral (by simp), hcount .flag (by simp), List.filterMap_map,
    Function.comp_def, hnil]
  simp

/-- Words behind a command are the words of the request. -/
theorem commandRequest?_words {name : String} {rest words : List String}
    (h : (levelOf name).items false rest = some (words.map .word)) :
    commandRequest? o name rest = (command? name false words).map (.run o) := by
  have hhelp : asksForHelp (words.map .word) = false := by
    simp [asksForHelp]
  have hnext : next? (words.map .word) = none := by
    simp [next?]
  have hwords : Arguments.words (words.map .word) = words := by
    simp [Arguments.words, List.filterMap_map, Function.comp_def]
  have hflag : (words.map Item.word).contains .flag = false := by
    simp
  simp only [commandRequest?, h, hhelp, options?_words, hnext, hwords, hflag, Option.bind_eq_bind,
    Option.bind_some, Bool.false_eq_true, if_false]
  cases command? name false words <;> rfl

theorem ofArguments?_eval (ho : o.Expressible) (words : List String) :
    ofArguments? (o.arguments ++ "eval" :: "--" :: words) = some (.run o (.eval words)) := by
  rw [ofArguments?_command ho (by decide)]
  exact commandRequest?_words rfl

theorem ofArguments?_eval_of_plain (ho : o.Expressible) {words : List String}
    (h : ∀ word ∈ words, word.toList.head? ≠ some '-') :
    ofArguments? (o.arguments ++ "eval" :: words) = some (.run o (.eval words)) := by
  rw [ofArguments?_command ho (by decide)]
  exact commandRequest?_words (items_of_plain h false)

theorem ofArguments?_repl (ho : o.Expressible) :
    ofArguments? (o.arguments ++ ["repl"]) = some (.run o .repl) := by
  have hitems : (levelOf "repl").items false [] = some (([] : List String).map .word) := rfl
  rw [ofArguments?_command ho (by decide)]
  exact commandRequest?_words hitems

end Request

/-! ### Invocations -/

namespace Program

variable {o : Options} {arguments : List String} {command : Command}

/-- The exit status with which a run ends. -/
def exitStatus : Except Failure Unit → Nat
  | .ok () => 0
  | .error _ => 1

theorem invoke_of_request (h : Request.ofArguments? arguments = some (.run o command))
    (env : Environment) (files : FileTree) (now : Nat) (reading : Reading) :
    invoke env files now reading arguments =
      (runOn env files o now reading command).map id exitStatus := by
  rw [invoke, h]
  dsimp only
  obtain ⟨m, outcome⟩ := runOn env files o now reading command
  cases outcome <;> rfl

theorem invoke_eval {words : List String}
    (h : Request.ofArguments? arguments = some (.run o (.eval words))) (env : Environment)
    (files : FileTree) (now : Nat) (reading : Reading) :
    invoke env files now reading arguments =
      (run env files o now [] (.eval words)).map id exitStatus := by
  -- nothing is read for an answer
  have hrun : run env files o now reading.lines (.eval words) =
      run env files o now [] (.eval words) := rfl
  rw [invoke_of_request h, runOn, hrun]
  obtain ⟨m, outcome⟩ := run env files o now [] (.eval words)
  cases outcome <;> rfl

/-- **The program answers a line behind `eval --`**, and behind `eval` too if the line does not begin
with a hyphen. -/
theorem invoke_line (ho : o.Expressible) (env : Environment) (files : FileTree) (now : Nat)
    (reading : Reading) (line : String) :
    let answered := (run env files o now [] (.eval [line])).map id exitStatus
    invoke env files now reading (o.arguments ++ ["eval", "--", line]) = answered ∧
      (line.toList.head? ≠ some '-' →
        invoke env files now reading (o.arguments ++ ["eval", line]) = answered) := by
  refine ⟨invoke_eval (Request.ofArguments?_eval ho [line]) env files now reading, fun h => ?_⟩
  have hplain : ∀ word ∈ [line], word.toList.head? ≠ some '-' := List.forall_mem_singleton.2 h
  exact invoke_eval (Request.ofArguments?_eval_of_plain ho hplain) env files now reading

/-- **The program begins a session for `repl`.** -/
theorem invoke_repl (ho : o.Expressible) (env : Environment) (files : FileTree) (now : Nat)
    (lines : List (Nat × String)) :
    invoke env files now { lines } (o.arguments ++ ["repl"]) =
      (run env files o now lines .repl).map id exitStatus := by
  rw [invoke_of_request (Request.ofArguments?_repl ho), runOn]
  dsimp only
  obtain ⟨m, outcome⟩ := run env files o now lines .repl
  cases outcome <;> rfl

end Program

end Abacus
