import Abacus.CommandLine.Run
import Abacus.Proofs.Keypad.Run

/-!
# Keys cut into words

The keys of the keypad come in words, and a word is tried as the name of a key before it is split into
characters.  A word all of whose characters are keys is no name (`Event.exists_ofChar?_eq_none`): it
spells the events of its characters, whether it is taken whole or split
(`Event.ofToken_of_keys`).  So words spell the events of the characters in all of them
(`Event.mapM_ofToken_of_keys`), and how keys are cut into words does not matter.

A word with some other character is a name or spells nothing, and a command with a word that spells
nothing prints no display.
-/

namespace Abacus

namespace Keypad

namespace Event

/-- The event of a key that is a single character. -/
def ofChar? (c : Char) : Option Event :=
  ofKey? (.singleton c)

/-- The names of keys, apart from the keys that are single characters. -/
def names : List String :=
  ["sin", "cos", "tan", "log", "ln", "sqrt", "√", "sq", "x2", "x²", "pi", "π", "C", "AC", "clear",
    "back", "Enter", "Backspace", "Escape"]

/-! ### Names -/

/-- A name has some character that is no key. -/
theorem exists_ofChar?_eq_none {token : String} (h : token ∈ names) :
    ∃ c ∈ token.toList, ofChar? c = none := by
  have hall : names.all (·.toList.any fun c => (ofChar? c).isNone) = true := by decide +kernel
  obtain ⟨c, hmem, hnone⟩ := List.any_eq_true.1 (List.all_eq_true.1 hall token h)
  exact ⟨c, hmem, Option.isNone_iff_eq_none.1 hnone⟩

theorem exists_ofName?_eq_some {token : String} (h : token ∈ names) :
    ∃ event, ofName? token = some event := by
  have hall : names.all (ofName? · |>.isSome) = true := by decide +kernel
  exact Option.isSome_iff_exists.1 (List.all_eq_true.1 hall token h)

theorem mem_names_of_function {token : String} {f : Function}
    (h : Function.ofName? token = some f) : token ∈ names := by
  unfold Function.ofName? at h
  split at h
  all_goals first | decide | cases h

theorem length_of_symbol {key : String} {op : Operator} (h : Operator.ofSymbol? key = some op) :
    key.toList.length = 1 := by
  unfold Operator.ofSymbol? at h
  split at h
  all_goals first | decide | cases h

theorem length_of_digit {key : String} {event : Event} (h : ofDigit? key = some event) :
    key.toList.length = 1 := by
  unfold ofDigit? at h
  split at h
  · next hc => rw [hc, List.length_singleton]
  · cases h

/-- A physical key has a name or is a single character. -/
theorem mem_names_or_length {key : String} {event : Event} (h : ofKey? key = some event) :
    key ∈ names ∨ key.toList.length = 1 := by
  unfold ofKey? at h
  split at h
  case h_6 =>
    split at h
    · next op hop => exact .inr (length_of_symbol hop)
    · exact .inr (length_of_digit h)
  all_goals first | exact .inl (by decide) | exact .inr (by decide)

/-- A word that is tried as a name with success is one, or it is a single key. -/
theorem ofName?_cases {token : String} {event : Event} (h : ofName? token = some event) :
    token ∈ names ∨ ∃ c, token = .singleton c ∧ ofChar? c = some event := by
  unfold ofName? at h
  split at h
  · next f hf => exact .inl (mem_names_of_function hf)
  · split at h
    case h_5 =>
      refine (mem_names_or_length h).imp_right fun hlength => ?_
      obtain ⟨c, hc⟩ := List.length_eq_one_iff.1 hlength
      obtain rfl : token = .singleton c :=
        String.toList_inj.1 (hc.trans (String.toList_singleton c).symm)
      exact ⟨c, rfl, h⟩
    all_goals exact .inl (by decide)

/-! ### Single characters -/

theorem ofChars_cons (c : Char) (cs : List Char) :
    ofChars (c :: cs) = match ofChar? c with
      | none => .error c
      | some event => (ofChars cs).map (event :: ·) := rfl

/-- Characters spell events if all of them are keys, and these are their events. -/
theorem ofChars_eq_ok_iff {cs : List Char} {events : List Event} :
    ofChars cs = .ok events ↔ cs.map ofChar? = events.map some := by
  induction cs generalizing events with
  | nil => cases events <;> simp [ofChars]
  | cons c cs ih =>
    rw [ofChars_cons, List.map_cons]
    cases events with
    | nil => cases ofChar? c <;> cases ofChars cs <;> simp [Except.map]
    | cons e es =>
      rw [List.map_cons, List.cons.injEq, ← ih]
      cases ofChar? c <;> cases ofChars cs <;> simp [Except.map]

/-- The character at which spelling stops is one of them, and it is no key. -/
theorem of_ofChars_eq_error {cs : List Char} {k : Char} (h : ofChars cs = .error k) :
    k ∈ cs ∧ ofChar? k = none := by
  induction cs with
  | nil => cases h
  | cons c cs ih =>
    rw [ofChars_cons] at h
    split at h
    · next hc =>
      cases h
      exact ⟨List.mem_cons_self, hc⟩
    · cases hcs : ofChars cs with
      | ok events =>
        rw [hcs] at h
        cases h
      | error d =>
        rw [hcs] at h
        cases h
        obtain ⟨hmem, hnone⟩ := ih hcs
        exact ⟨List.mem_cons_of_mem c hmem, hnone⟩

/-! ### Words -/

/-- **A word of keys spells the events of its characters**, also when it is a single key and is found
among the names. -/
theorem ofToken_of_keys {token : String} (h : ∀ c ∈ token.toList, ofChar? c ≠ none) :
    ofToken token = ofChars token.toList := by
  unfold ofToken
  split
  · next event hevent =>
    obtain hname | ⟨c, rfl, hc⟩ := ofName?_cases hevent
    · obtain ⟨c, hmem, hnone⟩ := exists_ofChar?_eq_none hname
      exact absurd hnone (h c hmem)
    · rw [String.toList_singleton, eq_comm, ofChars_eq_ok_iff, List.map_singleton, hc,
        List.map_singleton]
  · rfl

theorem ofToken_of_mem_names {token : String} (h : token ∈ names) :
    ∃ event, ofName? token = some event ∧ ofToken token = .ok [event] := by
  obtain ⟨event, hevent⟩ := exists_ofName?_eq_some h
  exact ⟨event, hevent, by rw [ofToken, hevent]⟩

/-- A word that is no name spells nothing if some character of it is no key. -/
theorem ofToken_of_not_key {token : String} (hname : token ∉ names) {c : Char}
    (hmem : c ∈ token.toList) (hc : ofChar? c = none) :
    ∃ k, ofToken token = .error k := by
  have hnone : ofName? token = none := by
    refine Option.eq_none_iff_forall_not_mem.2 fun event hevent => ?_
    obtain h | ⟨d, rfl, hd⟩ := ofName?_cases hevent
    · exact hname h
    · rw [String.toList_singleton, List.mem_singleton] at hmem
      rw [hmem, hd] at hc
      cases hc
  have htoken : ofToken token = ofChars token.toList := by rw [ofToken, hnone]
  cases hchars : ofChars token.toList with
  | error k => exact ⟨k, htoken.trans hchars⟩
  | ok events =>
    have hkey : ofChar? c ∈ events.map some := ofChars_eq_ok_iff.1 hchars ▸ List.mem_map_of_mem hmem
    rw [hc] at hkey
    simp at hkey

/-- The character at which a word stops to spell is one of the word, and it is no key. -/
theorem of_ofToken_eq_error {token : String} {k : Char} (h : ofToken token = .error k) :
    k ∈ token.toList ∧ ofChar? k = none := by
  unfold ofToken at h
  split at h
  · cases h
  · exact of_ofChars_eq_error h

/-- **Words of keys spell the events of all their characters**, wherever one word ends and the next
begins. -/
theorem mapM_ofToken_of_keys {tokens : List String}
    (h : ∀ c ∈ tokens.flatMap String.toList, ofChar? c ≠ none) :
    ∃ parts, tokens.mapM ofToken = .ok parts ∧
      (tokens.flatMap String.toList).map ofChar? = parts.flatten.map some := by
  induction tokens with
  | nil => exact ⟨[], rfl, rfl⟩
  | cons token tokens ih =>
    rw [List.flatMap_cons, List.forall_mem_append] at h
    obtain ⟨htoken, htokens⟩ := h
    obtain ⟨parts, hparts, hevents⟩ := ih htokens
    cases hpart : ofToken token with
    | error k =>
      obtain ⟨hmem, hnone⟩ := of_ofToken_eq_error hpart
      exact absurd hnone (htoken k hmem)
    | ok part =>
      refine ⟨part :: parts, ?_, ?_⟩
      · rw [List.mapM_cons, hpart, hparts]
        rfl
      · rw [ofToken_of_keys htoken] at hpart
        rw [List.flatMap_cons, List.flatten_cons, List.map_append, List.map_append, hevents,
          ofChars_eq_ok_iff.1 hpart]

end Event

end Keypad

namespace Command

open Keypad

variable {c : Config} {get? : String → Option String} {now : Nat} {lines : List (Nat × String)}

/-! ### Pressing keys -/

/-- Words that spell keys press them one after the other. -/
theorem pressTokens_of_ok {tokens : List String} {parts : List (List Event)}
    (h : tokens.mapM Event.ofToken = .ok parts) (k : Keypad) :
    pressTokens k tokens = .ok (k.pressAll parts.flatten) := by
  induction tokens generalizing parts k with
  | nil =>
    cases h
    rfl
  | cons token tokens ih =>
    rw [List.mapM_cons] at h
    cases hpart : Event.ofToken token with
    | error key =>
      rw [hpart] at h
      cases h
    | ok part =>
      cases hrest : tokens.mapM Event.ofToken with
      | error key =>
        rw [hpart, hrest] at h
        cases h
      | ok rest =>
        rw [hpart, hrest] at h
        cases h
        rw [pressTokens, hpart, List.flatten_cons, pressAll_append]
        exact ih hrest _

/-- A word that spells nothing is a failure, or there is such a word before it. -/
theorem pressTokens_of_error {tokens : List String} {token : String} (hmem : token ∈ tokens)
    {key : Char} (h : Event.ofToken token = .error key) (k : Keypad) :
    ∃ word ∈ tokens, ∃ key, Event.ofToken word = .error key ∧
      pressTokens k tokens = .error (.unknownKey key word) := by
  induction tokens generalizing k with
  | nil => cases hmem
  | cons word words ih =>
    cases hword : Event.ofToken word with
    | error d => exact ⟨word, List.mem_cons_self, d, hword, by rw [pressTokens, hword]⟩
    | ok events =>
      have hrest : token ∈ words := by
        refine (List.mem_cons.1 hmem).resolve_left ?_
        rintro rfl
        rw [hword] at h
        cases h
      obtain ⟨word', hmem', d, hd, hpress⟩ := ih hrest (k.pressAll events)
      exact ⟨word', List.mem_cons_of_mem word hmem', d, hd, by rw [pressTokens, hword]; exact hpress⟩

theorem runKeypad_of_ok {scientific : Bool} {tokens : List String} {k : Keypad}
    (h : pressTokens (fresh (if scientific then .scientific else .basic)) tokens = .ok k) :
    runKeypad scientific tokens =
      { value := .ok (), effects := [.print (k.display ++ "\n")] } := by
  rw [fresh] at h
  simp only [runKeypad, h]
  rfl

theorem runKeypad_of_error {scientific : Bool} {tokens : List String} {failure : Failure}
    (h : pressTokens (fresh (if scientific then .scientific else .basic)) tokens =
      .error failure) :
    runKeypad scientific tokens = { value := .error failure } := by
  rw [fresh] at h
  simp only [runKeypad, h]
  rfl

/-- A command with keys in words prints the display after these keys. -/
theorem run_keypad_of_keys {keys : List Char} (hkeys : ∀ key ∈ keys, Event.ofChar? key ≠ none)
    {tokens : List String} (hcut : String.join tokens = .ofList keys) :
    ∃ events, keys.map Event.ofChar? = events.map some ∧
      List.flatten <$> tokens.mapM Event.ofToken = .ok events ∧
      ∀ scientific, run c get? now lines (.keypad scientific tokens) =
        { value := .ok ()
          effects := [.print (((fresh (if scientific then .scientific else .basic)).pressAll
            events).display ++ "\n")] } := by
  obtain rfl : tokens.flatMap String.toList = keys := by
    rw [← String.toList_join, hcut, String.toList_ofList]
  obtain ⟨parts, hparts, hevents⟩ := Event.mapM_ofToken_of_keys hkeys
  refine ⟨parts.flatten, hevents, by rw [hparts]; rfl, fun scientific => ?_⟩
  exact runKeypad_of_ok (pressTokens_of_ok hparts _)

/-- A command fails for a word that is no name and has a character that is no key, and it prints
nothing. -/
theorem run_keypad_of_not_key {tokens : List String} {token : String} (hmem : token ∈ tokens)
    (hname : token ∉ Event.names) {key : Char} (hkey : key ∈ token.toList)
    (hnone : Event.ofChar? key = none) (scientific : Bool) :
    ∃ word ∈ tokens, ∃ key ∈ word.toList, Event.ofChar? key = none ∧
      run c get? now lines (.keypad scientific tokens) =
        { value := .error (.unknownKey key word) } := by
  obtain ⟨_, herror⟩ := Event.ofToken_of_not_key hname hkey hnone
  obtain ⟨word, hword, d, hd, hpress⟩ := pressTokens_of_error hmem herror
    (fresh (if scientific then .scientific else .basic))
  obtain ⟨hdmem, hdnone⟩ := Event.of_ofToken_eq_error hd
  exact ⟨word, hword, d, hdmem, hdnone, runKeypad_of_error hpress⟩

/-- **How keys are cut into words does not matter.**  Words that keys are cut into spell the events of
the keys one by one, and the command prints the display after these events, on either keypad.  A word
with a character that is no key is the name of a key, or the command fails and prints nothing. -/
theorem run_keypad_tokens (c : Config) (get? : String → Option String) (now : Nat)
    (lines : List (Nat × String)) (tokens : List String) :
    (∀ keys : List Char, (∀ key ∈ keys, Event.ofChar? key ≠ none) →
      String.join tokens = .ofList keys →
      ∃ events, keys.map Event.ofChar? = events.map some ∧
        List.flatten <$> tokens.mapM Event.ofToken = .ok events ∧
        ∀ scientific, run c get? now lines (.keypad scientific tokens) =
          { value := .ok ()
            effects := [.print (((fresh (if scientific then .scientific else .basic)).pressAll
              events).display ++ "\n")] }) ∧
      ∀ token ∈ tokens, ∀ key ∈ token.toList, Event.ofChar? key = none →
        (token ∈ Event.names ∧
          ∃ event, Event.ofName? token = some event ∧ Event.ofToken token = .ok [event]) ∨
        (token ∉ Event.names ∧ ∀ scientific,
          ∃ word ∈ tokens, ∃ key ∈ word.toList, Event.ofChar? key = none ∧
            run c get? now lines (.keypad scientific tokens) =
              { value := .error (.unknownKey key word) }) := by
  refine ⟨fun keys hkeys hcut => run_keypad_of_keys hkeys hcut, ?_⟩
  intro token hmem key hkey hnone
  by_cases hname : token ∈ Event.names
  · exact .inl ⟨hname, Event.ofToken_of_mem_names hname⟩
  · exact .inr ⟨hname, run_keypad_of_not_key hmem hname hkey hnone⟩

/-- `3+4+5=` is cut into four words, one of them empty, and both keypads show the sum. -/
theorem run_keypad_sum :
    (∀ scientific, run {} (fun _ => none) 0 [] (.keypad scientific ["3+", "", "4+5", "="]) =
        { value := .ok (), effects := [.print "12\n"] }) ∧
      ∀ scientific, ∃ word ∈ ["3+", "4p5"], ∃ key ∈ word.toList, Event.ofChar? key = none ∧
        run {} (fun _ => none) 0 [] (.keypad scientific ["3+", "4p5"]) =
          { value := .error (.unknownKey key word) } := by
  have hall : ['3', '+', '4', '+', '5', '='].all (Event.ofChar? · |>.isSome) = true := by
    decide +kernel
  constructor
  · obtain ⟨events, hevents, -, hrun⟩ := (run_keypad_tokens {} (fun _ => none) 0 []
      ["3+", "", "4+5", "="]).1 ['3', '+', '4', '+', '5', '=']
      (fun key hkey => Option.isSome_iff_ne_none.1 (List.all_eq_true.1 hall key hkey)) rfl
    obtain rfl : events = [.digit 3, .operator .add, .digit 4, .operator .add, .digit 5, .equals] :=
      Except.ok.inj ((Event.ofChars_eq_ok_iff.2 hevents).symm.trans rfl)
    have hdisplay : ∀ v, ((fresh v).pressAll
        [.digit 3, .operator .add, .digit 4, .operator .add, .digit 5, .equals]).display = "12" := by
      rintro (_ | _) <;> decide +kernel
    intro scientific
    rw [hrun scientific, hdisplay]
    rfl
  · have := (run_keypad_tokens {} (fun _ => none) 0 [] ["3+", "4p5"]).2 "4p5" (by decide) 'p'
      (by decide) (by decide +kernel)
    exact (this.resolve_left fun h => absurd h.1 (by decide)).2

end Command

end Abacus
