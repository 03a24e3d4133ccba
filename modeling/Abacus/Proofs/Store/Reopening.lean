import Abacus.Proofs.Store.FileText
import Abacus.Proofs.Store.Writing

/-!
# Closing and opening a store in a file

A store in a file may be dropped and opened again at any time.  As long as its file can be written
and nobody else writes it, it does what a store in memory does (`File.refines_memory`): what is
found under a key is the text that was last put there, and each listener hears the writes after its
subscription, until the store is dropped.

The invariant is that the store in the file holds what the one in memory holds, and that opening the
file once more would give the same contents (`Opened.Mirrors`).  A write keeps it, since the file is
written whole and reads back (`FileTree.Writable.write`, `Contents.decode?_fileText`).
-/

namespace Abacus

namespace Store

/-! ### Requests -/

/-- What may be asked of a store, and that it is dropped and opened again. -/
inductive Request
  | get (key : String)
  | set (key value : String)
  | subscribe
  | reopen
deriving DecidableEq, Repr

namespace Request

/-- The writes of some requests. -/
def writes : List Request → List (String × String)
  | [] => []
  | set key value :: requests => (key, value) :: writes requests
  | _ :: requests => writes requests

/-- What is found by some requests in contents that change by their writes. -/
def found (c : Contents) : List Request → List (Option String)
  | [] => []
  | get key :: requests => c.get? key :: found c requests
  | set key value :: requests => found (c.insert key value) requests
  | _ :: requests => found c requests

/-- What the listeners hear that some requests add: each hears the writes after its subscription. -/
def heard : List Request → List (List (String × String))
  | [] => []
  | subscribe :: requests => writes requests :: heard requests
  | _ :: requests => heard requests

/-- The requests since the store was last opened. -/
def sinceReopen (requests : List Request) : List Request :=
  requests.rtakeWhile (· ≠ reopen)

theorem writes_filter (requests : List Request) :
    writes (requests.filter (· ≠ reopen)) = writes requests := by
  induction requests with
  | nil => rfl
  | cons q requests ih =>
    cases q with
    | set key value => exact congrArg ((key, value) :: ·) ih
    | get key => exact ih
    | subscribe => exact ih
    | reopen => exact ih

theorem found_filter (c : Contents) (requests : List Request) :
    found c (requests.filter (· ≠ reopen)) = found c requests := by
  induction requests generalizing c with
  | nil => rfl
  | cons q requests ih =>
    cases q with
    | get key => exact congrArg (c.get? key :: ·) (ih c)
    | set key value => exact ih _
    | subscribe => exact ih c
    | reopen => exact ih c

end Request

/-- Contents after some writes. -/
def Contents.insertAll (c : Contents) (writes : List (String × String)) : Contents :=
  writes.foldl (fun c e => c.insert e.1 e.2) c

/-! ### Stores in memory -/

namespace Memory

/-- One request to a store in memory, and what is found.  In the place of a store that is dropped
comes one with the same contents and no listeners. -/
def step (m : Memory) : Request → Memory × List (Option String)
  | .get key => (m, [m.get? key])
  | .set key value => (m.set key value, [])
  | .subscribe => (m.subscribe, [])
  | .reopen => ({ contents := m.contents }, [])

/-- The store after some requests, and what was found. -/
def run (m : Memory) : List Request → Memory × List (Option String)
  | [] => (m, [])
  | q :: requests =>
    let (m, found) := m.step q
    let (m, later) := m.run requests
    (m, found ++ later)

theorem run_cons (m : Memory) (q : Request) (requests : List Request) :
    m.run (q :: requests) =
      (((m.step q).1.run requests).1, (m.step q).2 ++ ((m.step q).1.run requests).2) := rfl

theorem run_append (m : Memory) (before after : List Request) :
    m.run (before ++ after) =
      (((m.run before).1.run after).1, (m.run before).2 ++ ((m.run before).1.run after).2) := by
  induction before generalizing m with
  | nil => rfl
  | cons q before ih =>
    rw [List.cons_append, run_cons, ih, run_cons, List.append_assoc]

theorem found_run (m : Memory) (requests : List Request) :
    (m.run requests).2 = Request.found m.contents requests := by
  induction requests generalizing m with
  | nil => rfl
  | cons q requests ih =>
    rw [run_cons, ih]
    cases q <;> rfl

theorem contents_run (m : Memory) (requests : List Request) :
    (m.run requests).1.contents = m.contents.insertAll (Request.writes requests) := by
  induction requests generalizing m with
  | nil => rfl
  | cons q requests ih =>
    rw [run_cons, ih]
    cases q <;> rfl

/-- As long as a store is not dropped, its listeners hear the writes. -/
theorem heard_run_of_not_mem (m : Memory) {requests : List Request} (h : .reopen ∉ requests) :
    (m.run requests).1.listeners.heard =
      m.listeners.heard.map (· ++ Request.writes requests) ++ Request.heard requests := by
  induction requests generalizing m with
  | nil => simp [run, Request.writes, Request.heard]
  | cons q requests ih =>
    obtain ⟨hq, hrest⟩ := List.ne_and_not_mem_of_not_mem_cons h
    rw [run_cons, ih _ hrest]
    cases q with
    | get key => rfl
    | set key value => simp [step, set, Listeners.notify, Request.writes, Request.heard]
    | subscribe =>
      simp [step, subscribe, Listeners.subscribe, Request.writes, Request.heard]
    | reopen => exact absurd rfl hq

/-- **A listener hears the writes after its subscription.** -/
theorem heard_run (c : Contents) (requests : List Request) :
    (({ contents := c } : Memory).run requests).1.listeners.heard =
      Request.heard (Request.sinceReopen requests) := by
  have hsplit : requests.rdropWhile (· ≠ .reopen) ++ Request.sinceReopen requests = requests :=
    List.rdropWhile_append_rtakeWhile
  have hmem : .reopen ∉ Request.sinceReopen requests := by
    intro h
    simpa using List.mem_rtakeWhile_imp h
  rw [← hsplit, run_append, hsplit, heard_run_of_not_mem _ hmem]
  -- the store before has just been opened
  have hfresh : (({ contents := c } : Memory).run
      (requests.rdropWhile (· ≠ .reopen))).1.listeners = {} := by
    rcases List.eq_nil_or_concat (requests.rdropWhile (· ≠ .reopen)) with hnil | ⟨before, q, hq⟩
    · rw [hnil]
      rfl
    · have hne : requests.rdropWhile (· ≠ .reopen) ≠ [] := by
        rw [hq, List.concat_eq_append]
        exact List.concat_ne_nil q before
      have hlast := List.rdropWhile_last_not (· ≠ .reopen) requests hne
      simp only [hq, List.concat_eq_append, List.getLast_append_singleton] at hlast
      obtain rfl : q = .reopen := by simpa using hlast
      rw [hq, List.concat_eq_append, run_append]
      rfl
  rw [hfresh]
  simp

end Memory

/-! ### Stores in files -/

/-- An open store in a file, and the files. -/
structure Opened where
  file : File
  files : FileTree

namespace Opened

/-- One request to a store in a file, and what is found; a write or an opening may fail. -/
def step (s : Opened) : Request → Except FileError (Opened × List (Option String))
  | .get key => .ok (s, [s.file.get? key])
  | .set key value =>
    match s.file.set s.files key value with
    | (file, files, .ok ()) => .ok (⟨file, files⟩, [])
    | (_, _, .error e) => .error e
  | .subscribe => .ok ({ s with file := s.file.subscribe }, [])
  | .reopen =>
    match (File.open s.files s.file.path).value with
    | .ok file => .ok ({ s with file }, [])
    | .error e => .error e

/-- The store after some requests, and what was found. -/
def run (s : Opened) : List Request → Except FileError (Opened × List (Option String))
  | [] => .ok (s, [])
  | q :: requests => do
    let (s, found) ← s.step q
    let (s, later) ← s.run requests
    return (s, found ++ later)

/-- The file has a text that stands for all contents of the store. -/
def Saved (s : Opened) : Prop :=
  ∃ text, s.files.read s.file.path = .ok text ∧ Contents.decode? text = some s.file.contents

/-- A store in a file is like a store in memory, and will be after it is opened again. -/
structure Mirrors (s : Opened) (m : Memory) : Prop where
  contents_eq : s.file.contents = m.contents
  listeners_eq : s.file.listeners = m.listeners
  open_eq : (File.open s.files s.file.path).value =
    .ok { path := s.file.path, contents := s.file.contents }

end Opened

/-- What is in the file at a path: a text, or nothing as there is no file. -/
def Holds (files : FileTree) (path : String) : Option String → Prop
  | none => files.contains path = false
  | some text => files.contains path = true ∧ files.read path = .ok text

/-- **Opening a store** gives the contents in its file. -/
theorem value_open {files : FileTree} {path : String} {text? : Option String}
    (h : Holds files path text?) :
    (File.open files path).value =
      .ok { path, contents := (text?.bind Contents.decode?).getD {} } := by
  unfold File.open
  cases text? with
  | none =>
    rw [Holds] at h
    rw [h]
    have hblank : Contents.decode? "" = none := Contents.decode?_eq_none_of_blank rfl
    simp [hblank]
  | some text =>
    obtain ⟨hcontains, hread⟩ := h
    rw [hcontains]
    simp [hread]

namespace Opened

variable {s : Opened} {m : Memory}

theorem Mirrors.set (h : s.Mirrors m) (hw : s.files.Writable s.file.path) (key value : String) :
    ∃ t, s.step (.set key value) = .ok (t, []) ∧ t.Mirrors (m.set key value) ∧
      t.file.path = s.file.path ∧ t.files.Writable t.file.path ∧ t.Saved := by
  obtain ⟨files, hwrite, hcontains, hread, hagain⟩ :=
    hw.write (s.file.contents.insert key value).fileText
  refine ⟨⟨{ s.file with
    contents := s.file.contents.insert key value
    listeners := s.file.listeners.notify key value }, files⟩, ?_, ⟨?_, ?_, ?_⟩, rfl, hagain, ?_⟩
  · simp only [step, File.set, hwrite]
  · rw [Memory.set, h.contents_eq]
  · rw [Memory.set, h.listeners_eq]
  · have hholds : Holds files s.file.path (some _) := ⟨hcontains, hread⟩
    rw [value_open hholds, Option.bind_some, Contents.decode?_fileText]
    rfl
  · exact ⟨_, hread, Contents.decode?_fileText _⟩

/-- **One request** does to a store in a file what it does to a store in memory. -/
theorem Mirrors.step (h : s.Mirrors m) (q : Request)
    (hw : Request.writes [q] ≠ [] → s.files.Writable s.file.path) :
    ∃ t, s.step q = .ok (t, (m.step q).2) ∧ t.Mirrors (m.step q).1 ∧
      t.file.path = s.file.path ∧
      (s.files.Writable s.file.path → t.files.Writable t.file.path) ∧
      (s.Saved ∨ Request.writes [q] ≠ [] → t.Saved) := by
  cases q with
  | get key =>
    refine ⟨s, ?_, h, rfl, id, ?_⟩
    · simp only [Opened.step, Memory.step, File.get?, Memory.get?, h.contents_eq]
    · exact fun hsaved => hsaved.resolve_right (by simp [Request.writes])
  | set key value =>
    obtain ⟨t, hstep, hmirrors, hpath, hagain, hsaved⟩ :=
      h.set (hw (by simp [Request.writes])) key value
    exact ⟨t, hstep, hmirrors, hpath, fun _ => hagain, fun _ => hsaved⟩
  | subscribe =>
    refine ⟨_, rfl, ⟨h.contents_eq, ?_, h.open_eq⟩, rfl, id, ?_⟩
    · simp only [File.subscribe, Memory.step, Memory.subscribe, h.listeners_eq]
    · exact fun hsaved => hsaved.resolve_right (by simp [Request.writes])
  | reopen =>
    refine ⟨⟨{ path := s.file.path, contents := s.file.contents }, s.files⟩, ?_,
      ⟨h.contents_eq, rfl, h.open_eq⟩, rfl, id, ?_⟩
    · simp only [Opened.step, h.open_eq, Memory.step]
    · exact fun hsaved => hsaved.resolve_right (by simp [Request.writes])

/-- **A run** does to a store in a file what it does to a store in memory. -/
theorem Mirrors.run (h : s.Mirrors m) (requests : List Request)
    (hw : Request.writes requests ≠ [] → s.files.Writable s.file.path) :
    ∃ t, s.run requests = .ok (t, (m.run requests).2) ∧ t.Mirrors (m.run requests).1 ∧
      t.file.path = s.file.path ∧ (s.Saved ∨ Request.writes requests ≠ [] → t.Saved) := by
  induction requests generalizing s m with
  | nil => exact ⟨s, rfl, h, rfl, fun hsaved => hsaved.resolve_right (by simp [Request.writes])⟩
  | cons q requests ih =>
    have hcons : Request.writes (q :: requests) = Request.writes [q] ++ Request.writes requests := by
      cases q <;> rfl
    rw [hcons] at hw ⊢
    obtain ⟨t, hstep, hmirrors, hpath, hagain, hsaved⟩ :=
      h.step q fun hq => hw (List.append_ne_nil_of_left_ne_nil hq _)
    obtain ⟨u, hrun, hmirrors', hpath', hsaved'⟩ :=
      ih hmirrors fun hrest => hagain (hw (List.append_ne_nil_of_right_ne_nil _ hrest))
    refine ⟨u, ?_, hmirrors', hpath'.trans hpath, ?_⟩
    · simp only [Opened.run, hstep, hrun, bind, Except.bind, pure, Except.pure]
      rfl
    · rintro (hs | hwrites)
      · exact hsaved' (.inl (hsaved (.inl hs)))
      · by_cases hq : Request.writes [q] = []
        · exact hsaved' (.inr (by simpa [hq] using hwrites))
        · exact hsaved' (.inl (hsaved (.inr hq)))

end Opened

namespace File

/-- Opens a store and serves some requests; tells what was found. -/
def session (files : FileTree) (path : String) (requests : List Request) :
    Except FileError (Opened × List (Option String)) := do
  let file ← (File.open files path).value
  Opened.run ⟨file, files⟩ requests

/-- **A store in a file refines a store in memory.**  Let the file at a path be absent or have a
text, and let it be writable if anything is written at all.  Then whatever is asked of the store,
also that it is dropped and opened again, every write and every opening succeeds.  Under each key is
found what the writes so far put there, and the same is found without the openings; each listener
hears in order the writes after its subscription, since the store was last opened; and once anything
was written, the file stands for all contents, those of keys that were not written to included.
A store in memory that begins with the contents in the file finds, holds and tells its listeners the
same. -/
theorem refines_memory {files : FileTree} {path : String} {text? : Option String}
    (hfile : Holds files path text?) (requests : List Request)
    (hw : Request.writes requests ≠ [] → files.Writable path) :
    let c : Contents := (text?.bind Contents.decode?).getD {}
    let found := Request.found c requests
    ∃ s, session files path requests = .ok (s, found) ∧
      (∃ t, session files path (requests.filter (· ≠ .reopen)) = .ok (t, found)) ∧
      s.file.contents = c.insertAll (Request.writes requests) ∧
      s.file.listeners.heard = Request.heard (Request.sinceReopen requests) ∧
      (Request.writes requests ≠ [] → ∃ text, s.files.read path = .ok text ∧
        Contents.decode? text = some s.file.contents) ∧
      Memory.run { contents := c } requests =
        ({ contents := s.file.contents, listeners := s.file.listeners }, found) := by
  intro c found
  have hopen := value_open hfile
  have hstart : Opened.Mirrors ⟨{ path, contents := c }, files⟩ { contents := c } :=
    ⟨rfl, rfl, hopen⟩
  obtain ⟨s, hrun, hmirrors, hpath, hsaved⟩ := hstart.run requests hw
  obtain ⟨t, hrun', -⟩ := hstart.run (requests.filter (· ≠ .reopen))
    (by rwa [Request.writes_filter])
  rw [Memory.found_run] at hrun hrun'
  refine ⟨s, ?_, ⟨t, ?_⟩, ?_, ?_, ?_, ?_⟩
  · rw [session, hopen]
    exact hrun
  · rw [session, hopen]
    exact hrun'.trans (by rw [Request.found_filter])
  · rw [hmirrors.contents_eq, Memory.contents_run]
  · rw [hmirrors.listeners_eq, Memory.heard_run]
  · intro hwrites
    obtain ⟨text, hread, hdecode⟩ := hsaved (.inr hwrites)
    rw [hpath] at hread
    exact ⟨text, hread, hdecode⟩
  · rw [hmirrors.contents_eq, hmirrors.listeners_eq]
    exact Prod.ext rfl (Memory.found_run _ _)

/-- A quote and a line break are found after the store was opened again, beside what was in the
file. -/
theorem session_reopened_quote :
    let files : FileTree := { nodes := [(["s.json"], .file "\x7b\"a\":\"1\"\x7d".toUTF8)] }
    let requests : List Request := [.set "b" "\"\n", .reopen, .get "a", .get "b"]
    ∃ s, session files "s.json" requests = .ok (s, [some "1", some "\"\n"]) := by
  intro files requests
  have hfile : Holds files "s.json" (some "\x7b\"a\":\"1\"\x7d") :=
    ⟨by decide +kernel, by decide +kernel⟩
  have hw : files.Writable "s.json" := FileTree.writable_of_write "" (by decide +kernel)
  obtain ⟨s, hs, -⟩ := refines_memory hfile requests fun _ => hw
  have hfound : Request.found (((some "\x7b\"a\":\"1\"\x7d").bind Contents.decode?).getD {}) requests =
      [some "1", some "\"\n"] := by decide +kernel
  exact ⟨s, hfound ▸ hs⟩

end File

end Store

end Abacus
