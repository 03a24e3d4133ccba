import Abacus.Formula.Basic
import Abacus.Proofs.Text.Blank
import Mathlib.Data.List.Basic

/-!
# The definition of formulas

A formula is defined by three texts.  The first two are trimmed.  The third is cut at its commas,
and what stands between them is trimmed and counts if it is not empty then.  The definition succeeds
exactly if a well-formed formula comes out (`Formula.define_eq_ok_iff`), and otherwise it tells the
first thing that is wrong (`Formula.Fault`, `Formula.define_eq_error_iff`).

How a declaration is written down does not matter.  Names may be joined by any blanks and commas, as
long as there is a comma between any two of them (`Formula.Declares`).  For blanks and commas in
front declare nothing (`Formula.declared_filler`), and a name is declared at the first comma behind
it (`Formula.declared_name`).  So a formula can be defined again from its own parts, its variables
being joined in whatever way (`Formula.define_exact`).
-/

namespace Abacus

namespace Formula

open Text

/-! ### Cutting a declaration -/

/-- The texts that stand between the commas of a text. -/
structure CutAtCommas (text : String) (parts : List String) : Prop where
  parts_ne_nil : parts ≠ []
  comma_notMem : ∀ part ∈ parts, ',' ∉ part.toList
  intercalate_eq : ",".intercalate parts = text

/-- The names that such texts give: they are trimmed, and what is empty then is left out. -/
def namesOf (parts : List String) : List String :=
  (parts.map trim).filter (· ≠ "")

theorem exists_cutAtCommas (text : String) : ∃ parts, CutAtCommas text parts := by
  refine ⟨(pieces ',' text.toList).map String.ofList, ?_, ?_, ?_⟩
  · simpa using pieces_ne_nil ',' text.toList
  · intro part hpart
    obtain ⟨piece, hpiece, rfl⟩ := List.mem_map.1 hpart
    rw [String.toList_ofList]
    exact not_mem_of_mem_pieces hpiece
  · have hmap : (pieces ',' text.toList).map (String.toList ∘ String.ofList) =
        pieces ',' text.toList :=
      List.map_id'' (fun _ => String.toList_ofList) _
    rw [← String.toList_inj, String.toList_intercalate, List.map_map, hmap]
    exact intercalate_pieces ',' text.toList

theorem CutAtCommas.map_toList_eq {text : String} {parts : List String}
    (h : CutAtCommas text parts) : parts.map String.toList = pieces ',' text.toList := by
  have hfree : ∀ piece ∈ parts.map String.toList, ',' ∉ piece := by
    simpa using h.comma_notMem
  have hpieces := pieces_intercalate (by simpa using h.parts_ne_nil) hfree
  rw [← h.intercalate_eq, String.toList_intercalate]
  exact hpieces.symm

/-- A text is cut in one way only. -/
theorem CutAtCommas.unique {text : String} {parts others : List String}
    (h : CutAtCommas text parts) (h' : CutAtCommas text others) : others = parts :=
  List.map_injective_iff.2 (fun _ _ => String.toList_inj.1)
    (h'.map_toList_eq.trans h.map_toList_eq.symm)

theorem CutAtCommas.parseVariables_eq {text : String} {parts : List String}
    (h : CutAtCommas text parts) : parseVariables text = namesOf parts := by
  rw [parseVariables, ← h.map_toList_eq, namesOf, List.map_map, List.filter_map, List.filter_map,
    List.map_map]
  refine congrArg _ (List.filter_congr fun part _ => ?_)
  simp [trim]

/-! ### Joining names -/

/-- Blanks and commas. -/
def IsFiller (cs : List Char) : Prop :=
  ∀ c ∈ cs, c = ',' ∨ isBlank c = true

instance (cs : List Char) : Decidable (IsFiller cs) :=
  List.decidableBAll _ cs

/-- Names in order, with blanks and one comma at least between them. -/
inductive Joined : List String → List Char → Prop
  | one (name : String) : Joined [name] name.toList
  | more {name : String} {names : List String} {gap cs : List Char} : IsFiller gap → ',' ∈ gap →
      Joined names cs → Joined (name :: names) (name.toList ++ gap ++ cs)

/-- The text has these names, joined; there may be more blanks and commas at its ends. -/
def Declares (text : String) (names : List String) : Prop :=
  ∃ lead body tail, IsFiller lead ∧ Joined names body ∧ IsFiller tail ∧
    text.toList = lead ++ body ++ tail

/-- The names that a text declares. -/
def declared (cs : List Char) : List (List Char) :=
  ((pieces ',' cs).map trimChars).filter (· ≠ [])

theorem declared_append (before after : List Char) :
    declared (before ++ ',' :: after) = declared before ++ declared after := by
  rw [declared, pieces_append, List.map_append, List.filter_append]
  rfl

/-- Blanks and commas in front declare nothing. -/
theorem declared_filler {lead : List Char} (h : IsFiller lead) (cs : List Char) :
    declared (lead ++ cs) = declared cs := by
  induction lead with
  | nil => rfl
  | cons c lead ih =>
    have ih := ih fun d hd => h d (List.mem_cons_of_mem c hd)
    rw [List.cons_append, ← ih]
    rcases h c List.mem_cons_self with rfl | hblank
    · exact declared_append [] (lead ++ cs)
    · have hcomma : c ≠ ',' := by
        rintro rfl
        exact absurd hblank (by decide)
      obtain ⟨piece, others, hpieces⟩ :=
        List.exists_cons_of_ne_nil (pieces_ne_nil ',' (lead ++ cs))
      have htrim : trimChars (c :: piece) = trimChars piece := by
        rw [trimChars, List.dropWhile_cons_of_pos hblank]
        rfl
      rw [declared, declared, pieces_cons, if_neg hcomma, hpieces, List.modifyHead_cons,
        List.map_cons, List.map_cons, htrim]

/-! ### Names -/

theorem comma_notMem_of_isName {name : List Char} (h : isName name = true) : ',' ∉ name :=
  fun hmem => absurd (forall_inName_of_isName h ',' hmem) (by decide)

theorem ne_nil_of_isName {name : List Char} (h : isName name = true) : name ≠ [] := by
  rintro rfl
  cases h

theorem trimChars_name_append {name blanks : List Char} (h : isName name = true)
    (hblanks : blanks.all isBlank = true) : trimChars (name ++ blanks) = name := by
  obtain ⟨c, rest, rfl⟩ := List.exists_cons_of_ne_nil (ne_nil_of_isName h)
  have hunblank := unblank_of_isName h
  have hc : ¬ isBlank c = true := by simp [hunblank c List.mem_cons_self]
  have htrim := hunblank.trimChars_eq
  rw [trimChars, List.dropWhile_cons_of_neg hc] at htrim
  rw [trimChars, List.cons_append, List.dropWhile_cons_of_neg hc, ← List.cons_append,
    trimEnd_append hblanks, htrim]

/-- A name is declared when a comma comes after it, perhaps behind blanks. -/
theorem declared_name {name gap : List Char} (h : isName name = true) (hgap : IsFiller gap)
    (hcomma : ',' ∈ gap) (cs : List Char) :
    declared (name ++ gap ++ cs) = name :: declared cs := by
  obtain ⟨blanks, lead, rfl, hfree⟩ := List.eq_append_cons_of_mem hcomma
  have hblanks : blanks.all isBlank = true := by
    refine List.all_eq_true.2 fun c hc => ?_
    refine (hgap c (List.mem_append_left _ hc)).resolve_left ?_
    rintro rfl
    exact hfree hc
  have hlead : IsFiller lead := fun c hc =>
    hgap c (List.mem_append_right _ (List.mem_cons_of_mem _ hc))
  have hname : declared (name ++ blanks) = [name] := by
    rw [declared, pieces_eq_singleton]
    · simp [trimChars_name_append h hblanks, ne_nil_of_isName h]
    · rw [List.mem_append]
      exact not_or.2 ⟨comma_notMem_of_isName h, hfree⟩
  have happend : name ++ (blanks ++ ',' :: lead) ++ cs = (name ++ blanks) ++ ',' :: (lead ++ cs) := by
    simp
  rw [happend, declared_append, hname, declared_filler hlead]
  rfl

theorem declared_joined {names : List String} {body tail : List Char} (h : Joined names body)
    (hnames : ∀ v ∈ names, isName v.toList = true) (htail : IsFiller tail) :
    declared (body ++ tail) = names.map String.toList := by
  induction h with
  | one name =>
    have hfiller : IsFiller (tail ++ [',']) := by
      intro c hc
      rcases List.mem_append.1 hc with hc | hc
      · exact htail c hc
      · exact .inl (List.mem_singleton.1 hc)
    -- a comma at the end of the text makes no difference
    have hend := declared_append (name.toList ++ tail) []
    have hname := declared_name (hnames name List.mem_cons_self) hfiller (by simp) []
    rw [← List.append_assoc, List.append_assoc _ [','], List.singleton_append, hend] at hname
    exact (List.append_nil _).symm.trans hname
  | more hgap hcomma _ ih =>
    have hname := hnames _ List.mem_cons_self
    rw [List.append_assoc, declared_name hname hgap hcomma,
      ih fun v hv => hnames v (List.mem_cons_of_mem _ hv), List.map_cons]

/-- **A text with names in it, joined by commas, declares these names.** -/
theorem parseVariables_of_declares {text : String} {names : List String} (h : Declares text names)
    (hnames : ∀ v ∈ names, isName v.toList = true) : parseVariables text = names := by
  obtain ⟨lead, body, tail, hlead, hbody, htail, htext⟩ := h
  change (declared text.toList).map String.ofList = names
  rw [htext, List.append_assoc, declared_filler hlead, declared_joined hbody hnames htail,
    List.map_map]
  exact List.map_id'' (fun _ => String.ofList_toList) names

/-! ### Definition -/

/-- A formula whose parts are as they should be. -/
structure WellFormed (f : Formula) : Prop where
  name_ne_empty : f.name ≠ ""
  expression_ne_empty : f.expression ≠ ""
  parameters_ne_nil : f.parameters ≠ []
  isName_parameters : ∀ v ∈ f.parameters, isName v.toList = true

/-- The first thing that is wrong with the parts of a formula. -/
inductive Fault (f : Formula) : Error → Prop
  | missingName : f.name = "" → Fault f .missingName
  | missingExpression : f.name ≠ "" → f.expression = "" → Fault f .missingExpression
  | missingVariables : f.name ≠ "" → f.expression ≠ "" → f.parameters = [] →
      Fault f .missingVariables
  | invalidVariableName {good rest : List String} {bad : String} : f.name ≠ "" → f.expression ≠ "" →
      f.parameters = good ++ bad :: rest → (∀ v ∈ good, isName v.toList = true) →
      isName bad.toList = false → Fault f (.invalidVariableName bad)

/-- The formula that three texts make, be it well formed or not. -/
def ofTexts (name expression declaration : String) : Formula :=
  ⟨trim name, trim expression, parseVariables declaration⟩

/-- Either all is well or there is a first thing that is wrong. -/
theorem wellFormed_or_fault (f : Formula) : f.WellFormed ∨ ∃ e, Fault f e := by
  by_cases hname : f.name = ""
  · exact .inr ⟨_, .missingName hname⟩
  by_cases hexpression : f.expression = ""
  · exact .inr ⟨_, .missingExpression hname hexpression⟩
  by_cases hnone : f.parameters = []
  · exact .inr ⟨_, .missingVariables hname hexpression hnone⟩
  cases hfind : f.parameters.find? (!isName ·.toList) with
  | none =>
    refine .inl ⟨hname, hexpression, hnone, fun v hv => ?_⟩
    simpa using List.find?_eq_none.1 hfind v hv
  | some bad =>
    obtain ⟨hbad, good, rest, hparameters, hgood⟩ := List.find?_eq_some_iff_append.1 hfind
    refine .inr ⟨_, .invalidVariableName hname hexpression hparameters (fun v hv => ?_) ?_⟩
    · simpa using hgood v hv
    · simpa using hbad

theorem define_eq (name expression declaration : String) :
    define name expression declaration =
      let f := ofTexts name expression declaration
      if f.name = "" then .error .missingName
      else if f.expression = "" then .error .missingExpression
      else if f.parameters = [] then .error .missingVariables
      else
        match f.parameters.find? (!isName ·.toList) with
        | some bad => .error (.invalidVariableName bad)
        | none => .ok f := by
  unfold define
  dsimp only [ofTexts]
  by_cases hname : trim name = ""
  · simp only [if_pos hname]
    rfl
  by_cases hexpression : trim expression = ""
  · simp only [if_neg hname, if_pos hexpression]
    rfl
  by_cases hnone : parseVariables declaration = []
  · simp only [if_neg hname, if_neg hexpression, if_pos hnone]
    rfl
  simp only [if_neg hname, if_neg hexpression, if_neg hnone]
  cases (parseVariables declaration).find? (!isName ·.toList) <;> rfl

theorem define_of_wellFormed {name expression declaration : String}
    (h : (ofTexts name expression declaration).WellFormed) :
    define name expression declaration = .ok (ofTexts name expression declaration) := by
  have hfind :
      (ofTexts name expression declaration).parameters.find? (!isName ·.toList) = none := by
    refine List.find?_eq_none.2 fun v hv => ?_
    simp [h.isName_parameters v hv]
  simp only [define_eq, if_neg h.name_ne_empty, if_neg h.expression_ne_empty,
    if_neg h.parameters_ne_nil, hfind]

theorem define_of_fault {name expression declaration : String} {e : Error}
    (h : Fault (ofTexts name expression declaration) e) :
    define name expression declaration = .error e := by
  rw [define_eq]
  cases h with
  | missingName hname => exact if_pos hname
  | missingExpression hname hexpression => simp only [if_neg hname, if_pos hexpression]
  | missingVariables hname hexpression hnone =>
    simp only [if_neg hname, if_neg hexpression, if_pos hnone]
  | @invalidVariableName good rest bad hname hexpression hparameters hgood hbad =>
    have hfind : (good ++ bad :: rest).find? (!isName ·.toList) = some bad := by
      refine List.find?_eq_some_iff_append.2 ⟨by simp [hbad], good, rest, rfl, fun v hv => ?_⟩
      simp [hgood v hv]
    have hsome : good ++ bad :: rest ≠ [] := by simp
    simp only [if_neg hname, if_neg hexpression, hparameters, if_neg hsome, hfind]

variable {name expression declaration : String} {f : Formula}

theorem define_eq_ok_iff : define name expression declaration = .ok f ↔
    (ofTexts name expression declaration).WellFormed ∧ f = ofTexts name expression declaration := by
  constructor
  · intro h
    rcases wellFormed_or_fault (ofTexts name expression declaration) with hwell | ⟨e, he⟩
    · exact ⟨hwell, Except.ok.inj (h.symm.trans (define_of_wellFormed hwell))⟩
    · rw [define_of_fault he] at h
      cases h
  · rintro ⟨hwell, rfl⟩
    exact define_of_wellFormed hwell

theorem define_eq_error_iff {e : Error} : define name expression declaration = .error e ↔
    Fault (ofTexts name expression declaration) e := by
  refine ⟨fun h => ?_, define_of_fault⟩
  rcases wellFormed_or_fault (ofTexts name expression declaration) with hwell | ⟨e', he'⟩
  · rw [define_of_wellFormed hwell] at h
    cases h
  · obtain rfl : e = e' := Except.error.inj (h.symm.trans (define_of_fault he'))
    exact he'

/-- A formula can be defined by its own parts, however its variables are joined. -/
theorem define_of_declares (hwell : f.WellFormed) (hname : trim f.name = f.name)
    (hexpression : trim f.expression = f.expression) {text : String}
    (h : Declares text f.parameters) : define f.name f.expression text = .ok f := by
  have hsame : ofTexts f.name f.expression text = f := by
    rw [ofTexts, hname, hexpression, parseVariables_of_declares h hwell.isName_parameters]
  rw [define_eq_ok_iff, hsame]
  exact ⟨hwell, rfl⟩

/-- **A definition succeeds exactly with parts as they should be, and it is stable.**  The
declaration is cut at its commas.  The definition gives the formula of the trimmed texts and the
names between the commas if this formula is well formed, and else the first thing that is wrong with
it.  To define the formula that it gives again, by its own name and expression and by any text that
declares its variables, gives this formula. -/
theorem define_exact (name expression declaration : String) :
    ∃ parts, CutAtCommas declaration parts ∧
      (∀ others, CutAtCommas declaration others → others = parts) ∧
      let made : Formula := ⟨trim name, trim expression, namesOf parts⟩
      (∀ f, define name expression declaration = .ok f ↔ made.WellFormed ∧ f = made) ∧
      (∀ e, define name expression declaration = .error e ↔ Fault made e) ∧
      ∀ f, define name expression declaration = .ok f →
        ∀ text, Declares text f.parameters → define f.name f.expression text = .ok f := by
  obtain ⟨parts, hcut⟩ := exists_cutAtCommas declaration
  refine ⟨parts, hcut, fun others h => hcut.unique h, ?_⟩
  intro made
  have hmade : ofTexts name expression declaration = made := by
    rw [ofTexts, hcut.parseVariables_eq]
  rw [← hmade]
  refine ⟨fun f => define_eq_ok_iff, fun e => define_eq_error_iff, fun f h text htext => ?_⟩
  obtain ⟨hwell, rfl⟩ := define_eq_ok_iff.1 h
  exact define_of_declares hwell (trim_trim name) (trim_trim expression) htext

/-- A box that is declared with gaps and doubled commas, and declared again in another way. -/
theorem define_box :
    define "Box " " l * w * h" " l, w ,,h " = .ok ⟨"Box", "l * w * h", ["l", "w", "h"]⟩ ∧
      define "Box" "l * w * h" ",l\t,\u3000,w,h, ," =
        .ok ⟨"Box", "l * w * h", ["l", "w", "h"]⟩ := by
  have hbox : define "Box " " l * w * h" " l, w ,,h " =
      .ok ⟨"Box", "l * w * h", ["l", "w", "h"]⟩ := by
    decide +kernel
  have hjoined : Joined ["l", "w", "h"] "l\t,\u3000,w,h".toList :=
    @Joined.more "l" _ "\t,\u3000,".toList _ (by decide) (by decide)
      (@Joined.more "w" _ [','] _ (by decide) (by decide) (.one "h"))
  obtain ⟨parts, -, -, -, -, hagain⟩ := define_exact "Box " " l * w * h" " l, w ,,h "
  exact ⟨hbox, hagain _ hbox _
    ⟨[','], _, ", ,".toList, by decide, hjoined, by decide, by decide⟩⟩

end Formula

end Abacus
