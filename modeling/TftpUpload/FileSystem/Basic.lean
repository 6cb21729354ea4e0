/-
  TftpUpload/FileSystem/Basic.lean
  ================================
  **A tree of directories, files and symbolic links.**

  An entry is kept under its location: the names that lead to it from the top,
  none of them a link.  What a file holds is kept apart from its entry, under a
  number of its own, so that an open file can be written to after its entry is
  gone, and two entries in turn under one name are two files.
-/
import TftpUpload.Content

namespace TftpUpload

/-- The names from the top of the tree down to an entry. -/
abbrev Location := List String

inductive Node where
  | directory
  | file (id : Nat)
  | link (target : String)
deriving DecidableEq, Repr

/-- A tree of entries.  The top is a directory that has no entry. -/
structure FileSystem where
  entries : List (Location × Node) := []
  contents : List (Nat × Content) := []
  nextFile : Nat := 0
deriving DecidableEq, Repr

namespace FileSystem

/-! ### Entries

To put an entry under a location takes away the one that is there.  The top is there without an
entry, so nothing takes it away. -/

def node? (fs : FileSystem) (l : Location) : Option Node :=
  if l = [] then some .directory else fs.entries.lookup l

def isDirectory (fs : FileSystem) (l : Location) : Bool :=
  fs.node? l == some .directory

def without (fs : FileSystem) (l : Location) : FileSystem :=
  { fs with entries := fs.entries.filter (·.1 != l) }

/-- Puts an entry in the place of the one at its location. -/
def insert (fs : FileSystem) (l : Location) (node : Node) : FileSystem :=
  { fs with entries := (l, node) :: (fs.without l).entries }

/-! ### Contents

A file whose entry is gone keeps its content, as long as somebody may write to it. -/

def content (fs : FileSystem) (id : Nat) : Content := (fs.contents.lookup id).getD .empty

def fileBytes (fs : FileSystem) (id : Nat) : Bytes := (fs.content id).bytes

def setContent (fs : FileSystem) (id : Nat) (c : Content) : FileSystem :=
  { fs with contents := (id, c) :: fs.contents.filter (·.1 != id) }

/-- A file of its own at a location. -/
def insertFile (fs : FileSystem) (l : Location) (bytes : Bytes) : FileSystem :=
  let id := fs.nextFile
  ({ fs with nextFile := id + 1 }.insert l (.file id)).setContent id (.ofBytes bytes)

/-- A directory at a location, and on the way there where nothing is. -/
def insertDirectories (fs : FileSystem) (l : Location) : FileSystem :=
  (List.range l.length).foldl (fun fs n =>
    let above := l.take (n + 1)
    if (fs.node? above).isSome then fs else fs.insert above .directory) fs

/-! ### What changing an entry changes -/

theorem lookup_filter_ne {α β : Type} [BEq α] [LawfulBEq α] {k k' : α} (entries : List (α × β))
    (h : k' ≠ k) : (entries.filter (·.1 != k)).lookup k' = entries.lookup k' := by
  induction entries with
  | nil => rfl
  | cons e rest ih =>
    obtain ⟨key, value⟩ := e
    by_cases hk : key = k
    · subst hk
      simp [List.lookup_cons, ih, beq_eq_false_iff_ne.2 h]
    · simp only [List.filter_cons, bne_iff_ne, ne_eq, hk, not_false_eq_true, if_true,
        List.lookup_cons, ih]

theorem lookup_filter_self (entries : List (Location × Node)) (l : Location) :
    (entries.filter (·.1 != l)).lookup l = none := by
  induction entries with
  | nil => rfl
  | cons e rest ih =>
    obtain ⟨at', node⟩ := e
    by_cases hl : at' = l
    · subst hl
      simp [ih]
    · have hne : (l == at') = false := beq_eq_false_iff_ne.2 (Ne.symm hl)
      simp [hl, List.lookup_cons, hne, ih]

theorem node?_without_of_ne {fs : FileSystem} {l l' : Location} (h : l' ≠ l) :
    (fs.without l).node? l' = fs.node? l' := by
  simp only [node?, without, lookup_filter_ne _ h]

theorem node?_without_self {fs : FileSystem} {l : Location} (h : l ≠ []) :
    (fs.without l).node? l = none := by
  simp only [node?, without, if_neg h, lookup_filter_self]

theorem node?_insert_of_ne {fs : FileSystem} {l l' : Location} {node : Node} (h : l' ≠ l) :
    (fs.insert l node).node? l' = fs.node? l' := by
  have hne : (l' == l) = false := beq_eq_false_iff_ne.2 h
  simp only [node?, insert, without, List.lookup_cons, hne, lookup_filter_ne _ h]

theorem node?_insert_self {fs : FileSystem} {l : Location} {node : Node} (h : l ≠ []) :
    (fs.insert l node).node? l = some node := by
  simp [node?, insert, if_neg h]

end FileSystem

end TftpUpload
