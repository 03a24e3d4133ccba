import Abacus.Proofs.Store.Rejection
import Abacus.Proofs.Store.Reopening

/-!
# Damaged files

A file at the path of a store may have any bytes.  It can be opened exactly if they are the text of
something; a text that is no JSON object of texts makes an empty store, and the next write replaces
it by a file with just what the store then holds (`File.open_of_bytes`).  Bytes that are no text at
all keep the store from being opened (`File.open_not_text`), although they are as good as a damaged
object.

What an empty store holds after some attempts to write it are the texts of all of them, the rejected
ones included.  So the first text that is accepted is alone in the file only if the rejected ones
before it were for the same key.
-/

namespace Abacus

/-- There is a file at the place that a text names. -/
def FileTree.HasFile (t : FileTree) (path : String) (bytes : ByteArray) : Prop :=
  (t.resolve? path).bind t.find? = some (.file bytes)

theorem FileTree.contains_of_read {t : FileTree} {path text : String}
    (h : t.read path = .ok text) : t.contains path = true := by
  unfold FileTree.read at h
  unfold FileTree.contains
  cases hfind : (t.resolve? path).bind t.find? with
  | none => simp [hfind] at h
  | some node => rfl

namespace Store

/-! ### Objects of texts -/

/-- The bytes of a JSON object whose values are all texts. -/
def IsTextObject (bytes : ByteArray) : Prop :=
  ∃ (text : String) (fields : List (String × String)), bytes = text.toUTF8 ∧
    Json.parse text = some (.object (fields.map fun e => (some e.1, .text e.2)))

theorem textEntry?_eq_some_iff {field : Option String × Json} {e : String × String} :
    textEntry? field = some e ↔ field = (some e.1, .text e.2) := by
  obtain ⟨key, value⟩ := e
  constructor
  · intro h
    unfold textEntry? at h
    split at h
    · next k v =>
      cases v with
      | string s =>
        obtain ⟨w, hw, heq⟩ := Option.map_eq_some_iff.1 h
        obtain ⟨rfl, rfl⟩ := Prod.mk.inj heq
        change s = some w at hw
        subst hw
        rfl
      | _ => cases h
    · cases h
  · rintro rfl
    rfl

theorem mapM_textEntry?_eq_some {fields : List (Option String × Json)}
    {es : List (String × String)} (h : fields.mapM textEntry? = some es) :
    fields = es.map fun e => (some e.1, .text e.2) := by
  induction fields generalizing es with
  | nil =>
    cases h
    rfl
  | cons field fields ih =>
    rw [List.mapM_cons] at h
    cases hfield : textEntry? field with
    | none => simp [hfield] at h
    | some e =>
      cases hfields : fields.mapM textEntry? with
      | none => simp [hfield, hfields] at h
      | some es' =>
        obtain rfl : e :: es' = es := by simpa [hfield, hfields] using h
        rw [textEntry?_eq_some_iff.1 hfield, ih hfields]
        rfl

/-- A text that stands for contents is an object of texts. -/
theorem isTextObject_of_decode? {text : String} {c : Contents}
    (h : Contents.decode? text = some c) : IsTextObject text.toUTF8 := by
  obtain ⟨j, hparse, hj⟩ := Option.bind_eq_some_iff.1 h
  cases j with
  | object fields =>
    obtain ⟨es, hes, -⟩ := Option.map_eq_some_iff.1 hj
    exact ⟨text, es, rfl, hparse.trans (by rw [mapM_textEntry?_eq_some hes])⟩
  | _ => cases hj

/-! ### Writes to an empty store -/

theorem get?_insertAll_of_forall_ne {c : Contents} {writes : List (String × String)} {key : String}
    (h : ∀ e ∈ writes, e.1 ≠ key) : (c.insertAll writes).get? key = c.get? key := by
  induction writes generalizing c with
  | nil => rfl
  | cons e writes ih =>
    have hother := ih (c := c.insert e.1 e.2) fun d hd => h d (List.mem_cons_of_mem e hd)
    rw [Contents.get?_insert, if_neg (Ne.symm (h e List.mem_cons_self))] at hother
    exact hother

theorem isSome_get?_insertAll {c : Contents} {writes : List (String × String)} {key : String}
    (h : (c.get? key).isSome ∨ ∃ e ∈ writes, e.1 = key) :
    ((c.insertAll writes).get? key).isSome := by
  induction writes generalizing c with
  | nil => simpa [Contents.insertAll] using h
  | cons e writes ih =>
    refine ih (c := c.insert e.1 e.2) ?_
    rw [Contents.get?_insert]
    by_cases hkey : key = e.1
    · exact .inl (by simp [hkey])
    · rw [if_neg hkey]
      refine h.imp_right fun ⟨d, hd, hdkey⟩ => ⟨d, ?_, hdkey⟩
      rcases List.mem_cons.1 hd with rfl | hd
      · exact absurd hdkey.symm hkey
      · exact hd

/-- An entry is alone after some writes to an empty store if they were for its key. -/
theorem insert_insertAll_eq_iff {writes : List (String × String)} {key value : String} :
    (Contents.insertAll {} writes).insert key value = Contents.insert {} key value ↔
      ∀ e ∈ writes, e.1 = key := by
  constructor
  · intro h e he
    by_contra hne
    have hsome : ((Contents.insertAll {} writes).get? e.1).isSome :=
      isSome_get?_insertAll (.inr ⟨e, he, rfl⟩)
    have hget : (Contents.insertAll {} writes).get? e.1 = Contents.get? {} e.1 := by
      have := congrArg (Contents.get? · e.1) h
      simpa [hne] using this
    rw [hget] at hsome
    cases hsome
  · intro h
    refine Contents.ext_get? fun k => ?_
    rw [Contents.get?_insert, Contents.get?_insert]
    split
    · rfl
    · next hk => exact get?_insertAll_of_forall_ne fun e he hek => hk (hek.symm.trans (h e he))

namespace File

theorem contents_after (f : File) (attempts : List Attempt) :
    (f.after attempts).contents =
      f.contents.insertAll (attempts.map fun a => (a.key, a.value)) := by
  induction attempts using List.reverseRecOn with
  | nil => rfl
  | append_singleton attempts a ih =>
    rw [after_concat, contents_attempt, ih]
    simp [Contents.insertAll]

/-! ### Any bytes -/

/-- Opening a file that has some bytes. -/
theorem value_open_of_hasFile {files : FileTree} {path : String} {bytes : ByteArray}
    (h : files.HasFile path bytes) :
    (File.open files path).value =
      match String.fromUTF8? bytes with
      | some text => .ok { path, contents := (Contents.decode? text).getD {} }
      | none => .error .notText := by
  have hcontains : files.contains path = true := by
    rw [FileTree.contains, h]
    rfl
  cases htext : String.fromUTF8? bytes with
  | some text =>
    have hread : files.read path = .ok text := by
      rw [FileTree.read, h]
      simp only [htext]
    have hholds : Holds files path (some text) := ⟨hcontains, hread⟩
    exact value_open hholds
  | none =>
    have hread : files.read path = .error .notText := by
      rw [FileTree.read, h]
      simp only [htext]
    unfold File.open
    rw [hcontains]
    simp [hread]

/-- **A file can be opened exactly if it is a text; if it is no object of texts the store is empty,
and a write replaces it.**  After a write, with any attempts to write before it, the file opens to
just its entry exactly if these attempts were for the same key. -/
theorem open_of_bytes {files : FileTree} {path : String} {bytes : ByteArray}
    (h : files.HasFile path bytes) :
    ((∃ f, (File.open files path).value = .ok f) ↔ bytes.IsValidUTF8) ∧
      ∀ f, (File.open files path).value = .ok f → ¬ IsTextObject bytes →
        f.contents = {} ∧ (∀ key, f.get? key = none) ∧
          ∀ before a, (f.after before).accepts a = true →
            ∃ g, (File.open ((f.after before).filesAfter a) path).value = .ok g ∧
              (g.contents = Contents.insert {} a.key a.value ↔ ∀ b ∈ before, b.key = a.key) := by
  rw [value_open_of_hasFile h]
  by_cases hvalid : bytes.IsValidUTF8
  · obtain ⟨text, htext⟩ : ∃ text, String.fromUTF8? bytes = some text := ⟨_, dif_pos hvalid⟩
    simp only [htext]
    refine ⟨⟨fun _ => hvalid, fun _ => ⟨_, rfl⟩⟩, ?_⟩
    rintro f hf hdamaged
    obtain rfl := Except.ok.inj hf
    have hbytes : bytes = text.toUTF8 := by
      rw [String.fromUTF8?, dif_pos hvalid] at htext
      exact (congrArg String.toUTF8 (Option.some.inj htext))
    have hnone : Contents.decode? text = none := by
      refine Option.eq_none_iff_forall_ne_some.2 fun c hc => hdamaged ?_
      rw [hbytes]
      exact isTextObject_of_decode? hc
    rw [hnone]
    refine ⟨rfl, fun _ => rfl, fun before a haccepts => ?_⟩
    obtain ⟨after, hread, hdecode⟩ := read_filesAfter haccepts
    rw [path_after] at hread
    have hholds : Holds _ path (some after) :=
      ⟨FileTree.contains_of_read hread, hread⟩
    have hopen := value_open hholds
    rw [Option.bind_some, hdecode, Option.getD_some] at hopen
    refine ⟨_, hopen, ?_⟩
    rw [contents_attempt, contents_after]
    have hwrites : (Contents.insertAll {} (before.map fun b => (b.key, b.value))).insert a.key
        a.value = Contents.insert {} a.key a.value ↔ _ := insert_insertAll_eq_iff
    simpa using hwrites
  · have htext : String.fromUTF8? bytes = none := dif_neg hvalid
    simp only [htext]
    refine ⟨⟨?_, fun hv => absurd hv hvalid⟩, fun f hf => by cases hf⟩
    rintro ⟨_, hf⟩
    cases hf

/-- A file with the beginning of an array opens as an empty store, which the first write
replaces. -/
theorem open_truncated :
    let files : FileTree := { nodes := [(["s.json"], .file "[1, 2".toUTF8)] }
    files.HasFile "s.json" "[1, 2".toUTF8 ∧
      ∃ f, (File.open files "s.json").value = .ok f ∧ f.contents = {} ∧
        ∃ g, (File.open (f.set files "k" "v").2.1 "s.json").value = .ok g ∧
          g.contents = Contents.insert {} "k" "v" := by
  intro files
  have hfile : files.HasFile "s.json" "[1, 2".toUTF8 := rfl
  have hopen : (File.open files "s.json").value = .ok { path := "s.json" } := by
    rw [value_open_of_hasFile hfile, Text.fromUTF8?_toUTF8]
    rfl
  have hdamaged : ¬ IsTextObject "[1, 2".toUTF8 := by
    rintro ⟨text, fields, hbytes, hparse⟩
    obtain rfl : "[1, 2" = text := String.toByteArray_inj.1 hbytes
    have hnone : Json.parse "[1, 2" = none := rfl
    rw [hnone] at hparse
    cases hparse
  obtain ⟨hempty, -, hwrite⟩ := (open_of_bytes hfile).2 _ hopen hdamaged
  obtain ⟨g, hg, hcontents⟩ := hwrite [] ⟨files, "k", "v"⟩ (by decide +kernel)
  exact ⟨hfile, _, hopen, hempty, g, hg, hcontents.2 (by simp)⟩

/-- A file with a byte that begins no character cannot be opened. -/
theorem open_not_text :
    let bytes : ByteArray := ⟨#[255]⟩
    let files : FileTree := { nodes := [(["s.json"], .file bytes)] }
    files.HasFile "s.json" bytes ∧ ¬ IsTextObject bytes ∧
      (File.open files "s.json").value = .error .notText := by
  intro bytes files
  have hfile : files.HasFile "s.json" bytes := rfl
  have hvalid : ¬ bytes.IsValidUTF8 := by decide +kernel
  refine ⟨hfile, ?_, ?_⟩
  · rintro ⟨text, -, hbytes, -⟩
    exact hvalid (hbytes ▸ text.isValidUTF8)
  · rw [value_open_of_hasFile hfile, String.fromUTF8?, dif_neg hvalid]

end File

end Store

end Abacus
