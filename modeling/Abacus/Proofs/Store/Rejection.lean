import Abacus.Proofs.Store.FileText
import Abacus.Proofs.Store.Writing
import Mathlib.Data.List.Induction
import Mathlib.Data.List.Infix

/-!
# Writes that fail

A store in a file takes every new text into memory first and then writes the file.  If that fails it
tells nobody of the new text (`File.listeners_attempt`), but it goes on to answer with it, and the
next write of any key puts it into the file too (`File.set_after_rejection`).

So the store does not always hold just what was accepted, that is what was there at first and the
texts of the writes that succeeded.  It does in a run of attempts exactly if each attempt that is
rejected repeats the text that is there already (`File.keepsAccepted_iff`).
-/

namespace Abacus

namespace Store

/-- Putting the text there that is there already changes nothing. -/
theorem Contents.insert_eq_self_iff {c : Contents} {key value : String} :
    c.insert key value = c ↔ c.get? key = some value := by
  constructor
  · intro h
    rw [← h, Contents.get?_insert, if_pos rfl]
  · intro h
    refine Contents.ext_get? fun k => ?_
    rw [Contents.get?_insert]
    split
    · next hk => rw [hk, h]
    · rfl

/-- An attempt to put a text under a key, with the files at that time: these may have changed in any
way since the last attempt. -/
structure Attempt where
  files : FileTree
  key : String
  value : String

namespace File

/-! ### Attempts -/

/-- The store after an attempt. -/
def attempt (f : File) (a : Attempt) : File :=
  (f.set a.files a.key a.value).1

/-- The files after an attempt. -/
def filesAfter (f : File) (a : Attempt) : FileTree :=
  (f.set a.files a.key a.value).2.1

/-- Whether an attempt succeeds. -/
def accepts (f : File) (a : Attempt) : Bool :=
  (f.set a.files a.key a.value).2.2.isOk

/-- The store after some attempts. -/
def after (f : File) (attempts : List Attempt) : File :=
  attempts.foldl attempt f

/-- What the store should hold after some attempts: what it held at first, and the texts of the
attempts that succeed. -/
def accepted (f : File) (attempts : List Attempt) : Contents :=
  go f.contents f attempts
where
  /-- Goes on from what was accepted so far. -/
  go (c : Contents) (f : File) : List Attempt → Contents
    | [] => c
    | a :: attempts =>
      go (if f.accepts a then c.insert a.key a.value else c) (f.attempt a) attempts

theorem after_concat (f : File) (attempts : List Attempt) (a : Attempt) :
    f.after (attempts ++ [a]) = (f.after attempts).attempt a := by
  simp [after]

theorem accepted_concat (f : File) (attempts : List Attempt) (a : Attempt) :
    f.accepted (attempts ++ [a]) =
      if (f.after attempts).accepts a then (f.accepted attempts).insert a.key a.value
      else f.accepted attempts := by
  have hgo : ∀ c (f : File), accepted.go c f (attempts ++ [a]) =
      if (f.after attempts).accepts a then (accepted.go c f attempts).insert a.key a.value
      else accepted.go c f attempts := by
    induction attempts with
    | nil => exact fun _ _ => rfl
    | cons b attempts ih => exact fun c f => ih _ _
  exact hgo f.contents f

/-! ### One attempt -/

/-- Putting a text under a key changes the contents in any case, and tells the listeners of it if the
file was written. -/
theorem set_eq (f : File) (files : FileTree) (key value : String) :
    let contents := f.contents.insert key value
    let written := files.write f.path contents.fileText
    f.set files key value =
      ({ path := f.path
         contents
         listeners := if written.2.isOk then f.listeners.notify key value else f.listeners },
        written.1, written.2) := by
  intro contents written
  unfold set
  dsimp only
  split
  · next heq => simp [written, contents, heq, Except.isOk, Except.toBool]
  · next heq => simp [written, contents, heq, Except.isOk, Except.toBool]

theorem path_attempt (f : File) (a : Attempt) : (f.attempt a).path = f.path := by
  rw [attempt, set_eq]

theorem path_after (f : File) (attempts : List Attempt) : (f.after attempts).path = f.path := by
  induction attempts using List.reverseRecOn with
  | nil => rfl
  | append_singleton attempts a ih => rw [after_concat, path_attempt, ih]

/-- **A new text is taken into memory**, whether the file can be written or not. -/
theorem contents_attempt (f : File) (a : Attempt) :
    (f.attempt a).contents = f.contents.insert a.key a.value := by
  rw [attempt, set_eq]

/-- **The listeners hear of the attempts that succeed**, and of no others. -/
theorem listeners_attempt (f : File) (a : Attempt) :
    (f.attempt a).listeners =
      if f.accepts a then f.listeners.notify a.key a.value else f.listeners := by
  rw [attempt, accepts, set_eq]

/-- The file that an attempt leaves stands for all contents. -/
theorem read_filesAfter {f : File} {a : Attempt} (h : f.accepts a = true) :
    ∃ text, (f.filesAfter a).read f.path = .ok text ∧
      Contents.decode? text = some (f.attempt a).contents := by
  rw [accepts, set_eq] at h
  have hwrite : (a.files.write f.path (f.contents.insert a.key a.value).fileText).2 = .ok () := by
    cases houtcome : (a.files.write f.path (f.contents.insert a.key a.value).fileText).2 with
    | ok => rfl
    | error e => simp [houtcome, Except.isOk, Except.toBool] at h
  obtain ⟨files, heq, -, hread, -⟩ :=
    (FileTree.writable_of_write _ hwrite).write (f.contents.insert a.key a.value).fileText
  have hfiles : f.filesAfter a = files := by
    rw [filesAfter, set_eq, heq]
  rw [contents_attempt, hfiles]
  exact ⟨_, hread, Contents.decode?_fileText _⟩

/-! ### Runs -/

/-- In a run of attempts a store keeps just what was accepted: a rejected attempt is not heard of
and changes no answer, the file has after each write what was accepted, and so has the store at all
times. -/
structure KeepsAccepted (f : File) (attempts : List Attempt) : Prop where
  listeners_eq : ∀ before a, before ++ [a] <+: attempts → (f.after before).accepts a = false →
    (f.after (before ++ [a])).listeners = (f.after before).listeners
  get?_eq : ∀ before a, before ++ [a] <+: attempts → (f.after before).accepts a = false →
    ∀ key, (f.after (before ++ [a])).get? key = (f.after before).get? key
  read_eq : ∀ before a, before ++ [a] <+: attempts → (f.after before).accepts a = true →
    ∃ text, ((f.after before).filesAfter a).read f.path = .ok text ∧
      Contents.decode? text = some (f.accepted (before ++ [a]))
  contents_eq : ∀ before, before <+: attempts → (f.after before).contents = f.accepted before

/-- **A store keeps just what was accepted exactly if each rejected attempt repeats the text that is
there already.** -/
theorem keepsAccepted_iff (f : File) (attempts : List Attempt) :
    f.KeepsAccepted attempts ↔
      ∀ before a, before ++ [a] <+: attempts → (f.after before).accepts a = false →
        (f.after before).get? a.key = some a.value := by
  constructor
  · intro h before a hpre hrejected
    have hget := h.get?_eq before a hpre hrejected a.key
    rw [← hget, after_concat, get?, contents_attempt, Contents.get?_insert, if_pos rfl]
  · intro h
    have hcontents : ∀ before, before <+: attempts →
        (f.after before).contents = f.accepted before := by
      intro before hpre
      induction before using List.reverseRecOn with
      | nil => rfl
      | append_singleton before a ih =>
        rw [after_concat, contents_attempt, accepted_concat,
          ← ih ((List.prefix_append before [a]).trans hpre)]
        cases haccepts : (f.after before).accepts a with
        | true => rfl
        | false => exact Contents.insert_eq_self_iff.2 (h before a hpre haccepts)
    refine ⟨?_, ?_, ?_, hcontents⟩
    · intro before a hpre hrejected
      rw [after_concat, listeners_attempt, hrejected]
      rfl
    · intro before a hpre hrejected key
      rw [after_concat, get?, contents_attempt,
        Contents.insert_eq_self_iff.2 (h before a hpre hrejected)]
      rfl
    · intro before a hpre haccepts
      obtain ⟨text, hread, hdecode⟩ := read_filesAfter haccepts
      rw [path_after] at hread
      rw [← after_concat, hcontents _ hpre] at hdecode
      exact ⟨text, hread, hdecode⟩

/-- A file `d` is in the way of the directory of `d/s.json`, so the text `v` is rejected.  It is found
all the same, and once the file `d` is gone, a write of another key puts it into the file, too. -/
theorem set_after_rejection :
    let files : FileTree := { nodes := [(["d"], .file "".toUTF8)] }
    let f : File := { path := "d/s.json" }
    let g := (f.set files "k" "v").1
    ¬ f.KeepsAccepted [⟨files, "k", "v"⟩] ∧
      (f.set files "k" "v").2.2 = .error .exists ∧ f.get? "k" = none ∧ g.get? "k" = some "v" ∧
      (g.set {} "l" "w").2.2 = .ok () ∧
      (g.set {} "l" "w").2.1.read "d/s.json" =
        .ok "\x7b\n  \"k\": \"v\",\n  \"l\": \"w\"\n\x7d" := by
  intro files f g
  refine ⟨fun h => ?_, by decide +kernel⟩
  have hget := h.get?_eq [] ⟨files, "k", "v"⟩ List.prefix_rfl (by decide +kernel) "k"
  have hfound : (f.after [⟨files, "k", "v"⟩]).get? "k" = some "v" := by decide +kernel
  have hnone : (f.after []).get? "k" = none := by decide +kernel
  simp [hfound, hnone] at hget

end File

end Store

end Abacus
