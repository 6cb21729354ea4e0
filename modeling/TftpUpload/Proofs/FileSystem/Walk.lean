/-
  TftpUpload/Proofs/FileSystem/Walk.lean
  ======================================
  **Where a path leads does not depend on files.**

  A walk is decided by directories and links alone, the *ways* of a file system:
  a file is no more in its way than nothing would be, and its last name may stand
  for either (`approach_of_sameWays`).  So making and removing files leaves every
  path leading where it led.  And what becomes of a link under the last name is
  of no account for a path that does not end at one (`approach_eq_kept`).
-/
import Mathlib.Tactic.SplitIfs
import TftpUpload.FileSystem.Access

namespace TftpUpload.FileSystem

variable {fs fs' : FileSystem} {last : LastLink}

/-! ### Ways

A file is in nobody's way and leads nowhere, so it is left out, and two file systems may differ in
it. -/

def way? (fs : FileSystem) (l : Location) : Option Node :=
  match fs.node? l with
  | some (.file _) => none
  | other => other

def SameWays (fs fs' : FileSystem) : Prop := fs.way? = fs'.way?

theorem way?_eq_directory {l : Location} :
    fs.way? l = some .directory ↔ fs.node? l = some .directory := by
  unfold way?
  split
  · rename_i id hnode
    simp [hnode]
  · rfl

theorem way?_eq_link {l : Location} {target : String} :
    fs.way? l = some (.link target) ↔ fs.node? l = some (.link target) := by
  unfold way?
  split
  · rename_i id hnode
    simp [hnode]
  · rfl

theorem way?_eq_none {l : Location} :
    fs.way? l = none ↔ fs.node? l = none ∨ ∃ id, fs.node? l = some (.file id) := by
  unfold way?
  split
  · rename_i id hnode
    simp [hnode]
  · rename_i hfile
    exact ⟨.inl, fun h => h.resolve_right fun ⟨id, hnode⟩ => hfile id hnode⟩

theorem way?_ne_file {l : Location} {id : Nat} : fs.way? l ≠ some (.file id) := by
  unfold way?
  split
  · nofun
  · rename_i hfile
    exact hfile id

theorem SameWays.symm (h : SameWays fs fs') : SameWays fs' fs := Eq.symm h

theorem SameWays.trans {fs'' : FileSystem} (h : SameWays fs fs') (h' : SameWays fs' fs'') :
    SameWays fs fs'' := Eq.trans h h'

theorem SameWays.way?_eq (h : SameWays fs fs') (l : Location) : fs'.way? l = fs.way? l :=
  (congrFun h l).symm

theorem isDirectory_iff {l : Location} : fs.isDirectory l ↔ fs.node? l = some .directory :=
  beq_iff_eq

theorem SameWays.isDirectory (h : SameWays fs fs') {l : Location} (hdir : fs.isDirectory l) :
    fs'.isDirectory l := by
  rw [isDirectory_iff] at hdir ⊢
  rwa [← way?_eq_directory, h.way?_eq, way?_eq_directory]

theorem SameWays.node?_eq (h : SameWays fs fs') {l : Location} (hdir : fs.isDirectory l) :
    fs'.node? l = fs.node? l :=
  (isDirectory_iff.1 (h.isDirectory hdir)).trans (isDirectory_iff.1 hdir).symm

/-! ### Walks

The walks in two such file systems go side by side.  At each name both find the same link, the same
directory, or nothing that leads on; in the last case they end alike, since the last name may be
that of a file or of nothing. -/

/-- Nothing lies behind a file. -/
theorem walkVia_of_not_directory {enter : Location → List String → Except Errno Spot}
    {here : Location} (h : fs.isDirectory here = false) (names : List String) :
    walkVia fs last enter here names = .error .notADirectory := by
  cases names <;> simp [walkVia, h]

theorem walkVia_of_sameWays (ways : SameWays fs fs')
    {enter enter' : Location → List String → Except Errno Spot}
    (henter : ∀ here names spot, enter here names = .ok spot → enter' here names = .ok spot)
    {here : Location} {names : List String} {spot : Spot}
    (h : walkVia fs last enter here names = .ok spot) :
    walkVia fs' last enter' here names = .ok spot := by
  induction names generalizing here with
  | nil =>
    unfold walkVia at h ⊢
    split_ifs at h with hdir
    rwa [if_pos (ways.isDirectory hdir)]
  | cons name rest ih =>
    unfold walkVia at h ⊢
    split_ifs at h with hdir hdot hup hlong
    · rw [if_pos (ways.isDirectory hdir), if_pos hdot]
      exact ih h
    · rw [if_pos (ways.isDirectory hdir), if_neg hdot, if_pos hup]
      exact ih h
    · rw [if_pos (ways.isDirectory hdir), if_neg hdot, if_neg hup, if_neg hlong]
      have hway' := ways.way?_eq (here ++ [name])
      cases hway : fs.way? (here ++ [name]) with
      | none =>
        -- a file and nothing differ only in why the walk cannot go on
        have hspot : (rest.all (·.isEmpty)) = true ∧ spot = .name here name (!rest.isEmpty) := by
          rcases way?_eq_none.1 hway with hnone | ⟨id, hfile⟩
          · simp only [hnone] at h
            split_ifs at h with hlast
            cases h
            exact ⟨hlast, rfl⟩
          · have hnot : fs.isDirectory (here ++ [name]) = false := by
              unfold isDirectory
              rw [hfile]
              rfl
            simp only [hfile, walkVia_of_not_directory hnot] at h
            split_ifs at h with hlast
            cases h
            exact ⟨hlast, rfl⟩
        obtain ⟨hlast, rfl⟩ := hspot
        rcases way?_eq_none.1 (hway'.trans hway) with hnone | ⟨id, hfile⟩
        · simp only [hnone, hlast, if_true]
        · simp only [hfile, hlast, if_true]
      | some node =>
        rw [hway] at hway'
        cases node with
        | file id => exact absurd hway way?_ne_file
        | directory =>
          simp only [way?_eq_directory.1 hway, way?_eq_directory.1 hway'] at h ⊢
          split_ifs at h ⊢
          · exact h
          · exact ih h
        | link target =>
          simp only [way?_eq_link.1 hway, way?_eq_link.1 hway'] at h ⊢
          by_cases hkept : (rest.all (·.isEmpty) && last.isKept !rest.isEmpty) = true
          · rwa [if_pos hkept] at h ⊢
          · rw [if_neg hkept] at h ⊢
            exact henter _ _ _ h

theorem walk_of_sameWays (ways : SameWays fs fs') {links : Nat} {here : Location}
    {names : List String} {spot : Spot} (h : fs.walk last links here names = .ok spot) :
    fs'.walk last links here names = .ok spot := by
  induction links generalizing here names spot with
  | zero => exact walkVia_of_sameWays ways (fun _ _ _ h' => by cases h') h
  | succ links ih => exact walkVia_of_sameWays ways (fun _ _ _ h' => ih h') h

/-- A path leads somewhere if it can be handed to the system and the walk along it does. -/
theorem approach_eq_ok {here : Location} {path : String} {spot : Spot} :
    fs.approach last here path = .ok spot ↔
      checkPath path = .ok () ∧ ¬ pathLimit < path.utf8ByteSize ∧
        fs.follow last here path = .ok spot := by
  unfold approach
  cases hcheck : checkPath path with
  | error fault => simp
  | ok _ =>
    by_cases hlong : pathLimit < path.utf8ByteSize
    · simp [hlong]
    · cases hfollow : fs.follow last here path <;> simp [hlong, Except.mapError]

/-- A path leads to the same spot wherever the ways are the same. -/
theorem approach_of_sameWays (ways : SameWays fs fs') {here : Location} {path : String}
    {spot : Spot} (h : fs.approach last here path = .ok spot) :
    fs'.approach last here path = .ok spot := by
  obtain ⟨hcheck, hlength, hfollow⟩ := approach_eq_ok.1 h
  exact approach_eq_ok.2 ⟨hcheck, hlength, walk_of_sameWays ways hfollow⟩

/-! ### Links under the last name -/

/-- The result of a walk is a spot at which there is a link. -/
def AtLink (fs : FileSystem) (result : Except Errno Spot) : Prop :=
  ∃ parent name slashed target, result = .ok (.name parent name slashed) ∧
    fs.node? (parent ++ [name]) = some (.link target)

theorem walkVia_eq_kept {enter enter' : Location → List String → Except Errno Spot}
    (henter : ∀ here names, ¬ fs.AtLink (enter' here names) → enter here names = enter' here names)
    {here : Location} {names : List String}
    (h : ¬ fs.AtLink (walkVia fs .kept enter' here names)) :
    walkVia fs last enter here names = walkVia fs .kept enter' here names := by
  induction names generalizing here with
  | nil => rfl
  | cons name rest ih =>
    unfold walkVia at h ⊢
    split_ifs at h ⊢ with hdir hdot hup hlong
    · exact ih h
    · exact ih h
    · rfl
    · cases hnode : fs.node? (here ++ [name]) with
      | none => rfl
      | some node =>
        rw [hnode] at h
        cases node with
        | file id | directory =>
          dsimp only at h ⊢
          split_ifs at h ⊢ with hlast
          · rfl
          · exact ih h
        | link target =>
          dsimp only at h ⊢
          cases hlast : rest.all (·.isEmpty) with
          | true =>
            -- the walk that keeps links would end here
            rw [hlast] at h
            exact absurd ⟨here, name, _, target, rfl, hnode⟩ h
          | false =>
            rw [hlast] at h
            exact henter _ _ h
    · rfl

theorem walk_eq_kept {links : Nat} {here : Location} {names : List String}
    (h : ¬ fs.AtLink (fs.walk .kept links here names)) :
    fs.walk last links here names = fs.walk .kept links here names := by
  induction links generalizing here names with
  | zero => exact walkVia_eq_kept (fun _ _ _ => rfl) h
  | succ links ih => exact walkVia_eq_kept (fun _ _ h' => ih h') h

/-- A path that does not end at a link leads to the same spot whether such a link is followed or
not. -/
theorem approach_eq_kept {here : Location} {path : String}
    (h : ¬ fs.AtLink (fs.follow .kept here path)) :
    fs.approach last here path = fs.approach .kept here path := by
  have hfollow : fs.follow last here path = fs.follow .kept here path := walk_eq_kept h
  unfold approach
  rw [hfollow]

/-! ### What changes files only -/

theorem node?_insertFile_self {l : Location} (hl : l ≠ []) (bytes : Bytes) :
    (fs.insertFile l bytes).node? l = some (.file fs.nextFile) :=
  node?_insert_self hl

theorem node?_insertFile_of_ne {l l' : Location} (h : l' ≠ l) (bytes : Bytes) :
    (fs.insertFile l bytes).node? l' = fs.node? l' :=
  node?_insert_of_ne h

theorem sameWays_insertFile {l : Location} (hl : l ≠ []) (hway : fs.way? l = none)
    (bytes : Bytes) : SameWays fs (fs.insertFile l bytes) := by
  funext l'
  by_cases h : l' = l
  · rw [h, hway]
    exact (way?_eq_none.2 (.inr ⟨_, node?_insertFile_self hl bytes⟩)).symm
  · unfold way?
    rw [node?_insertFile_of_ne h]

theorem sameWays_without {l : Location} (hl : l ≠ []) (hway : fs.way? l = none) :
    SameWays fs (fs.without l) := by
  funext l'
  by_cases h : l' = l
  · rw [h, hway]
    exact (way?_eq_none.2 (.inl (node?_without_self hl))).symm
  · unfold way?
    rw [node?_without_of_ne h]

end TftpUpload.FileSystem
