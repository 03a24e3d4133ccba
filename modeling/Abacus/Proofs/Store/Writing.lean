import Abacus.FileTree
import Abacus.Proofs.Text.Bytes

/-!
# Reading back a written file

A write that succeeds leaves a file that has just the new text, and the same text of a path can be
written again and again (`FileTree.Writable.write`).

A write only adds directories, and it puts its file where no directory was.  So every tree that it
passes through has all directories of the tree before (`FileTree.Extends`), and a text leads to the
same place in all of them (`FileTree.Extends.resolve?`).
-/

namespace Abacus

namespace FileTree

variable {t u v : FileTree} {path : List String}

/-! ### Putting nodes -/

theorem lookup_filter_ne {nodes : List (List String × FileNode)} {q : List String}
    (h : q ≠ path) : (nodes.filter (·.1 ≠ path)).lookup q = nodes.lookup q := by
  induction nodes with
  | nil => rfl
  | cons e nodes ih =>
    obtain ⟨p, node⟩ := e
    by_cases hp : p = path
    · have hq : (q == p) = false := by simpa [hp] using h
      rw [List.filter_cons_of_neg (by simpa using hp), ih, List.lookup_cons, hq]
    · rw [List.filter_cons_of_pos (by simpa using hp), List.lookup_cons, List.lookup_cons, ih]

theorem node?_put (t : FileTree) (path : List String) (node : FileNode) (q : List String) :
    (t.put path node).node? q =
      if q = [] then some .directory else if q = path then some node else t.node? q := by
  unfold node? put
  by_cases hroot : q = []
  · simp [hroot]
  · by_cases hq : q = path
    · simp [hq]
    · have hb : (q == path) = false := by simpa using hq
      simp only [hroot, hq, ↓reduceIte, List.lookup_cons, hb, lookup_filter_ne hq]

theorem isDirectory_eq_true_iff : t.isDirectory path = true ↔ t.node? path = some .directory := by
  unfold isDirectory
  split
  · next h => simp [h]
  · next h => simpa using h

/-! ### Trees with more directories -/

/-- A tree has all directories of another one, and the same current directory. -/
structure Extends (u t : FileTree) : Prop where
  current_eq : u.current = t.current
  isDirectory : ∀ path, t.isDirectory path = true → u.isDirectory path = true

theorem Extends.refl (t : FileTree) : t.Extends t :=
  ⟨rfl, fun _ h => h⟩

theorem Extends.trans (h : v.Extends u) (h' : u.Extends t) : v.Extends t :=
  ⟨h.current_eq.trans h'.current_eq, fun path hp => h.isDirectory path (h'.isDirectory path hp)⟩

/-- A node may be put where no directory is. -/
theorem extends_put (h : t.isDirectory path = false) (node : FileNode) :
    (t.put path node).Extends t where
  current_eq := rfl
  isDirectory q hq := by
    rw [isDirectory_eq_true_iff] at hq ⊢
    have hne : q ≠ path := by
      rintro rfl
      rw [isDirectory_eq_true_iff.2 hq] at h
      cases h
    rw [node?_put, if_neg hne, hq, ite_self]

theorem Extends.start (h : u.Extends t) (text : String) : u.start text = t.start text := by
  rw [FileTree.start, FileTree.start, h.current_eq]

/-- A way that can be gone in a tree can be gone in one with more directories. -/
theorem Extends.walk? (h : u.Extends t) {names : List String} {q : List String}
    (hq : t.walk? path names = some q) : u.walk? path names = some q := by
  fun_induction FileTree.walk? t path names with
  | case1 path => exact hq
  | case2 path rest hdir ih =>
    rw [FileTree.walk?, if_pos (h.isDirectory path hdir)]
    exact ih hq
  | case3 path rest hdir => cases hq
  | case4 path name rest hname ih =>
    rw [FileTree.walk?]
    · exact ih hq
    · exact hname

theorem Extends.resolve? (h : u.Extends t) {text : String} {place : Place}
    (hp : t.resolve? text = some place) : u.resolve? text = some place := by
  unfold FileTree.resolve? at hp ⊢
  by_cases htext : text = ""
  · simp [htext] at hp
  · rw [if_neg htext] at hp ⊢
    obtain ⟨q, hq, hplace⟩ := Option.map_eq_some_iff.1 hp
    rw [h.start text]
    exact Option.map_eq_some_iff.2 ⟨q, h.walk? hq, hplace⟩

/-! ### Making directories -/

theorem extends_makeDirectories (t : FileTree) (path names : List String) :
    (t.makeDirectories path names).1.Extends t := by
  fun_induction makeDirectories t path names with
  | case1 => exact .refl _
  | case2 t path rest ih => exact ih
  | case3 t path name rest hname path' hnode ih => exact ih
  | case4 t path name rest hname path' bytes hnode => exact .refl _
  | case5 t path name rest hname path' hnode ih =>
    refine ih.trans (extends_put ?_ _)
    simp [FileTree.isDirectory, hnode]

/-- **Directories that were made need not be made again.** -/
theorem makeDirectories_of_extends {names : List String}
    (h : t.makeDirectories path names = (u, .ok ())) (hv : v.Extends u) :
    v.makeDirectories path names = (v, .ok ()) := by
  -- each directory on the way is in the last tree, whether it was found or made
  have hnode : ∀ {t : FileTree} {path names : List String},
      t.makeDirectories path names = (u, .ok ()) → ∀ q, t.isDirectory q = true →
        v.node? q = some .directory := by
    intro t path names h q hq
    have hext := extends_makeDirectories t path names
    rw [h] at hext
    exact isDirectory_eq_true_iff.1 ((hv.trans hext).isDirectory q hq)
  fun_induction makeDirectories t path names with
  | case1 => rfl
  | case2 t path rest ih => exact ih h
  | case3 t path name rest hname path' hdir ih =>
    have := hnode h path' (isDirectory_eq_true_iff.2 hdir)
    rw [makeDirectories]
    · simp only [path'] at this
      simp only [this]
      exact ih h
    · exact hname
  | case4 => simp at h
  | case5 t path name rest hname path' hnone ih =>
    have := hnode h path' (isDirectory_eq_true_iff.2 (by simp [node?_put]))
    rw [makeDirectories]
    · simp only [path'] at this
      simp only [this]
      exact ih h
    · exact hname

/-! ### Writing -/

/-- A text can be written to: directories are made for it, and it names a place for a file there. -/
structure LeadsTo (t : FileTree) (text : String) (made : FileTree) (place : Place) : Prop where
  makeDirectories_eq : t.makeDirectories (t.start text) (names text).dropLast = (made, .ok ())
  resolve?_eq : made.resolve? text = some place
  asDirectory_eq : place.asDirectory = false
  isDirectory_eq : made.isDirectory place.path = false
  above_eq : made.node? place.path.dropLast = some .directory

theorem LeadsTo.writeBytes {text : String} {made : FileTree} {place : Place}
    (h : t.LeadsTo text made place) (bytes : ByteArray) :
    t.writeBytes text bytes = (made.put place.path (.file bytes), .ok ()) := by
  unfold FileTree.writeBytes
  rw [h.makeDirectories_eq]
  simp [h.resolve?_eq, writeAt, h.asDirectory_eq, h.isDirectory_eq, h.above_eq]

theorem exists_leadsTo {text : String} {bytes : ByteArray}
    (h : (t.writeBytes text bytes).2 = .ok ()) : ∃ made place, t.LeadsTo text made place := by
  unfold FileTree.writeBytes at h
  cases hmade : t.makeDirectories (t.start text) (names text).dropLast with
  | mk made outcome =>
    cases outcome with
    | error e => simp [hmade] at h
    | ok =>
      cases hplace : made.resolve? text with
      | none => simp [hmade, hplace] at h
      | some place =>
        simp only [hmade, hplace, writeAt] at h
        by_cases hdir : place.asDirectory = true ∨ made.isDirectory place.path = true
        · simp [hdir] at h
        · obtain ⟨has, his⟩ := not_or.1 hdir
          rw [if_neg hdir] at h
          refine ⟨made, place, hmade, hplace, by simpa using has, by simpa using his, ?_⟩
          split at h
          · assumption
          · cases h
          · cases h

theorem LeadsTo.path_ne_nil {text : String} {made : FileTree} {place : Place}
    (h : t.LeadsTo text made place) : place.path ≠ [] := by
  intro hnil
  have := h.isDirectory_eq
  simp [hnil, FileTree.isDirectory, node?] at this

/-- The text leads to the same place after a file was put there. -/
theorem LeadsTo.put {text : String} {made : FileTree} {place : Place}
    (h : t.LeadsTo text made place) (bytes : ByteArray) :
    let u := made.put place.path (.file bytes)
    u.LeadsTo text u place := by
  intro u
  have hu : u.Extends made := extends_put h.isDirectory_eq _
  have hmade : made.Extends t := by
    have hext := extends_makeDirectories t (t.start text) (names text).dropLast
    rwa [h.makeDirectories_eq] at hext
  refine ⟨?_, hu.resolve? h.resolve?_eq, h.asDirectory_eq, ?_, ?_⟩
  · rw [(hu.trans hmade).start text]
    exact makeDirectories_of_extends h.makeDirectories_eq hu
  · simp [u, FileTree.isDirectory, node?_put, h.path_ne_nil]
  · exact isDirectory_eq_true_iff.1 (hu.isDirectory _ (isDirectory_eq_true_iff.2 h.above_eq))

/-- The file at the place that a text leads to, after it was put there. -/
theorem LeadsTo.find?_put {text : String} {made : FileTree} {place : Place}
    (h : t.LeadsTo text made place) (bytes : ByteArray) :
    let u := made.put place.path (.file bytes)
    (u.resolve? text).bind u.find? = some (.file bytes) := by
  intro u
  rw [(h.put bytes).resolve?_eq, Option.bind_some, find?]
  simp [u, node?_put, h.path_ne_nil, h.asDirectory_eq]

/-- Texts can be written to a file. -/
def Writable (t : FileTree) (path : String) : Prop :=
  ∀ content, (t.write path content).2 = .ok ()

/-- A text can be written if another one can. -/
theorem writable_of_write {path : String} (content : String)
    (h : (t.write path content).2 = .ok ()) : t.Writable path := by
  obtain ⟨made, place, hplace⟩ := exists_leadsTo h
  intro other
  rw [FileTree.write, hplace.writeBytes]

/-- **What was written is read back**, and may be written again. -/
theorem Writable.write {path : String} (h : t.Writable path) (content : String) :
    ∃ u, t.write path content = (u, .ok ()) ∧ u.contains path = true ∧
      u.read path = .ok content ∧ u.Writable path := by
  obtain ⟨made, place, hplace⟩ := exists_leadsTo (h content)
  have hfind := hplace.find?_put content.toUTF8
  refine ⟨_, hplace.writeBytes content.toUTF8, ?_, ?_, ?_⟩
  · rw [contains, hfind]
    rfl
  · rw [read, hfind]
    simp only [Text.fromUTF8?_toUTF8]
  · refine writable_of_write "" ?_
    rw [FileTree.write, (hplace.put content.toUTF8).writeBytes]

end FileTree

end Abacus
