/-
  TftpUpload/Proofs/FileSystem/Files.lean
  =======================================
  **What making, writing and removing files leaves alone.**

  A transfer makes a file at some location, or empties the one there is, writes
  to the file it has open, and removes the file at its location (`Changes`).
  None of this touches a way.  A file at another location stays there, and keeps
  what it holds unless it is the one that is written to (`Changes.keeps`); and
  nobody makes a second file with the number of one that exists
  (`Changes.sound`, `Changes.owned`).
-/
import TftpUpload.Proofs.FileSystem.Walk

namespace TftpUpload.FileSystem

/-- Files have numbers of their own, all of them given out. -/
structure Sound (fs : FileSystem) : Prop where
  single : ∀ l l' id, fs.node? l = some (.file id) → fs.node? l' = some (.file id) → l = l'
  bounded : ∀ l id, fs.node? l = some (.file id) → id < fs.nextFile

structure Owned (fs : FileSystem) (places : Location → Prop) (id : Nat) : Prop where
  bounded : id < fs.nextFile
  place : ∀ l, fs.node? l = some (.file id) → places l

/-- What a transfer may do: make, empty or remove the file at one of the locations, or write to a
file of its own. -/
inductive Changes (places : Location → Prop) (own : Nat → Prop) (fs : FileSystem) :
    FileSystem → Prop where
  | nothing : Changes places own fs fs
  | made {l : Location} (place : places l) (vacant : fs.node? l = none) :
    Changes places own fs (fs.insertFile l [])
  | emptied {l : Location} {id : Nat} (place : places l) (file : fs.node? l = some (.file id)) :
    Changes places own fs (fs.setContent id .empty)
  | wrote {id : Nat} (owned : own id) (c : Content) : Changes places own fs (fs.setContent id c)
  | removed {l : Location} {id : Nat} (place : places l) (file : fs.node? l = some (.file id)) :
    Changes places own fs (fs.without l)

variable {fs fs' : FileSystem} {places : Location → Prop} {own : Nat → Prop}

theorem ne_nil_of_vacant {l : Location} (h : fs.node? l = none) : l ≠ [] := by
  rintro rfl
  cases h

theorem ne_nil_of_file {l : Location} {id : Nat} (h : fs.node? l = some (.file id)) : l ≠ [] := by
  rintro rfl
  cases h

theorem content_setContent_self (fs : FileSystem) (id : Nat) (c : Content) :
    (fs.setContent id c).content id = c := by
  simp [content, setContent]

theorem content_setContent_of_ne (fs : FileSystem) {id id' : Nat} (h : id' ≠ id) (c : Content) :
    (fs.setContent id c).content id' = fs.content id' := by
  have hne : (id' == id) = false := beq_eq_false_iff_ne.2 h
  simp only [content, setContent, List.lookup_cons, hne, lookup_filter_ne fs.contents h]

theorem content_insertFile_of_ne (fs : FileSystem) (l : Location) {id : Nat}
    (h : id ≠ fs.nextFile) : (fs.insertFile l []).content id = fs.content id := by
  unfold insertFile
  rw [content_setContent_of_ne _ h]
  rfl

theorem Changes.sameWays (h : Changes places own fs fs') : SameWays fs fs' := by
  cases h with
  | nothing => rfl
  | made place vacant =>
    exact sameWays_insertFile (ne_nil_of_vacant vacant) (way?_eq_none.2 (.inl vacant)) []
  | emptied place file => rfl
  | wrote owned c => rfl
  | removed place file =>
    exact sameWays_without (ne_nil_of_file file) (way?_eq_none.2 (.inr ⟨_, file⟩))

theorem Changes.nextFile_le (h : Changes places own fs fs') : fs.nextFile ≤ fs'.nextFile := by
  cases h with
  | made place vacant => exact Nat.le_succ _
  | nothing | emptied | wrote | removed => exact Nat.le_refl _

/-- An entry of a file was there before, or the file is new. -/
theorem Changes.file (h : Changes places own fs fs') {l : Location} {id : Nat}
    (hfile : fs'.node? l = some (.file id)) :
    fs.node? l = some (.file id) ∨
      (id = fs.nextFile ∧ fs'.nextFile = fs.nextFile + 1 ∧
        ∀ l', fs'.node? l' = some (.file id) → l' = l ∨ fs.node? l' = some (.file id)) := by
  cases h with
  | nothing | emptied | wrote => exact .inl hfile
  | @made place' place vacant =>
    by_cases hl : l = place'
    · subst hl
      rw [node?_insertFile_self (ne_nil_of_vacant vacant)] at hfile
      cases hfile
      refine .inr ⟨rfl, rfl, fun l' hl' => ?_⟩
      by_cases heq : l' = l
      · exact .inl heq
      · exact .inr (by rwa [node?_insertFile_of_ne heq] at hl')
    · exact .inl (by rwa [node?_insertFile_of_ne hl] at hfile)
  | @removed place' id' place file =>
    by_cases hl : l = place'
    · subst hl
      rw [node?_without_self (ne_nil_of_file file)] at hfile
      cases hfile
    · exact .inl (by rwa [node?_without_of_ne hl] at hfile)

theorem Changes.sound (h : Changes places own fs fs') (sound : fs.Sound) : fs'.Sound where
  single l l' id hl hl' := by
    rcases h.file hl with hold | ⟨rfl, -, honly⟩
    · rcases h.file hl' with hold' | ⟨rfl, -, -⟩
      · exact sound.single l l' id hold hold'
      · exact absurd (sound.bounded l _ hold) (Nat.lt_irrefl _)
    · rcases honly l' hl' with heq | hold
      · exact heq.symm
      · exact absurd (sound.bounded l' _ hold) (Nat.lt_irrefl _)
  bounded l id hl := by
    rcases h.file hl with hold | ⟨rfl, hnext, -⟩
    · exact Nat.lt_of_lt_of_le (sound.bounded l id hold) h.nextFile_le
    · rw [hnext]
      exact Nat.lt_succ_self _

/-- Whoever owns a file goes on owning it, whatever others do. -/
theorem Changes.owned (h : Changes places own fs fs') {theirs : Location → Prop} {id : Nat}
    (owned : fs.Owned theirs id) : fs'.Owned theirs id where
  bounded := Nat.lt_of_lt_of_le owned.bounded h.nextFile_le
  place l hl := by
    rcases h.file hl with hold | ⟨rfl, -, -⟩
    · exact owned.place l hold
    · exact absurd owned.bounded (Nat.lt_irrefl _)

/-- A file at another location stays, and keeps what it holds. -/
theorem Changes.keeps (h : Changes places own fs fs') (sound : fs.Sound) {l : Location} {id : Nat}
    (elsewhere : ¬ places l) (owners : ∀ id, own id → fs.Owned places id)
    (hfile : fs.node? l = some (.file id)) :
    fs'.node? l = some (.file id) ∧ fs'.content id = fs.content id := by
  cases h with
  | nothing => exact ⟨hfile, rfl⟩
  | @made l' place vacant =>
    have hl : l ≠ l' := by
      rintro rfl
      exact elsewhere place
    exact ⟨by rw [node?_insertFile_of_ne hl, hfile],
      content_insertFile_of_ne fs l' (Nat.ne_of_lt (sound.bounded l id hfile))⟩
  | @emptied l' id' place file =>
    refine ⟨hfile, content_setContent_of_ne fs ?_ _⟩
    rintro rfl
    exact elsewhere (sound.single l l' id hfile file ▸ place)
  | @wrote id' owned c =>
    refine ⟨hfile, content_setContent_of_ne fs ?_ _⟩
    rintro rfl
    exact elsewhere ((owners id owned).place l hfile)
  | @removed l' id' place file =>
    have hl : l ≠ l' := by
      rintro rfl
      exact elsewhere place
    exact ⟨by rw [node?_without_of_ne hl, hfile], rfl⟩

end TftpUpload.FileSystem
