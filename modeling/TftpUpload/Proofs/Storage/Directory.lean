/-
  TftpUpload/Proofs/Storage/Directory.lean
  ========================================
  **Which file a name stands for, and what a directory does to it.**

  A name that is not that of a symbolic link stands for one location
  (`Place.unique`), and files do not change which (`Place.of_sameWays`).  Making
  and removing the destination of that name, and writing to it, are changes at
  this location and to its file alone (`create_cases`, `discard_changes`,
  `writeAll_cases`).
-/
import TftpUpload.Proofs.FileSystem.Files
import TftpUpload.Proofs.Storage.Refusals

namespace TftpUpload.Storage.Directory

open FileSystem

variable {d : Directory} {fs fs' : FileSystem} {name : String} {l : Location}

/-! ### Names and locations

A name leads to a location if all but its last piece exists.  If there is a link under it, this is
not where `create` goes on, and so links are left out. -/

def Place (d : Directory) (fs : FileSystem) (name : String) (l : Location) : Prop :=
  ∃ parent last, fs.approach .kept d.here (Path.join d.root name) = .ok (.name parent last false) ∧
    l = parent ++ [last]

def NamesLink (d : Directory) (fs : FileSystem) (name : String) : Prop :=
  fs.AtLink (fs.follow .kept d.here (Path.join d.root name))

theorem Place.unique {l' : Location} (h : d.Place fs name l) (h' : d.Place fs name l') :
    l = l' := by
  obtain ⟨parent, last, happroach, rfl⟩ := h
  obtain ⟨parent', last', happroach', rfl⟩ := h'
  rw [happroach] at happroach'
  cases happroach'
  rfl

theorem Place.of_sameWays (ways : SameWays fs fs') (h : d.Place fs name l) :
    d.Place fs' name l := by
  obtain ⟨parent, last, happroach, rfl⟩ := h
  exact ⟨parent, last, approach_of_sameWays ways happroach, rfl⟩

theorem place_eq_of_sameWays (ways : SameWays fs fs') (name : String) :
    d.Place fs' name = d.Place fs name :=
  funext fun _ => propext ⟨Place.of_sameWays ways.symm, Place.of_sameWays ways⟩

theorem NamesLink.of_sameWays (ways : SameWays fs fs') (h : d.NamesLink fs name) :
    d.NamesLink fs' name := by
  obtain ⟨parent, last, slashed, target, hfollow, hnode⟩ := h
  refine ⟨parent, last, slashed, target, walk_of_sameWays ways hfollow, ?_⟩
  rwa [← way?_eq_link, ways.way?_eq, way?_eq_link]

/-- Where a name leads that is not that of a link, there is no link. -/
theorem node?_of_place {parent : Location} {last target : String} {slashed : Bool}
    (unlinked : ¬ d.NamesLink fs name)
    (h : fs.approach .kept d.here (Path.join d.root name) = .ok (.name parent last slashed)) :
    fs.node? (parent ++ [last]) ≠ some (.link target) := by
  intro hnode
  obtain ⟨-, -, hfollow⟩ := approach_eq_ok.1 h
  exact unlinked ⟨parent, last, slashed, target, hfollow, hnode⟩

/-! ### Operations -/

theorem resolve_eq {path : String} (h : d.resolve name fs = .ok path) :
    path = Path.join d.root name := by
  unfold resolve resolveVia at h
  split at h
  · cases h
  · split at h
    · dsimp only at h
      split at h <;> cases h
      rfl
    · cases h

theorem createAt_cases {spot : Spot} {result : Except Errno OpenFile}
    (h : fs.createAt spot = (result, fs')) :
    (∃ e, result = .error e ∧ fs' = fs) ∨
      ∃ parent last file, spot = .name parent last false ∧ result = .ok file ∧ file.position = 0 ∧
        ((fs.node? (parent ++ [last]) = none ∧ file.id = fs.nextFile ∧
            fs' = fs.insertFile (parent ++ [last]) []) ∨
          (fs.node? (parent ++ [last]) = some (.file file.id) ∧
            fs' = fs.setContent file.id .empty)) := by
  unfold createAt at h
  split at h
  · cases h
    exact .inl ⟨_, rfl, rfl⟩
  · cases h
    exact .inl ⟨_, rfl, rfl⟩
  · rename_i parent last
    split at h
    · rename_i hnode
      cases h
      exact .inr ⟨parent, last, _, rfl, rfl, rfl, .inl ⟨hnode, rfl, rfl⟩⟩
    · rename_i id hnode
      cases h
      exact .inr ⟨parent, last, _, rfl, rfl, rfl, .inr ⟨hnode, rfl⟩⟩
    · cases h
      exact .inl ⟨_, rfl, rfl⟩
    · cases h
      exact .inl ⟨_, rfl, rfl⟩

/-- A destination is made or emptied at the location of its name, or nothing happens. -/
theorem create_cases {result : Except Refusal OpenFile} (unlinked : ¬ d.NamesLink fs name)
    (h : d.create name fs = (result, fs')) :
    (∃ refusal, result = .error refusal ∧ fs' = fs) ∨
      ∃ file l, result = .ok file ∧ file.position = 0 ∧ d.Place fs name l ∧
        (∀ own, fs.Changes (d.Place fs name) own fs') ∧
        fs'.node? l = some (.file file.id) ∧ fs'.fileBytes file.id = [] := by
  unfold create at h
  split at h
  · cases h
    exact .inl ⟨_, rfl, rfl⟩
  · rename_i path hresolve
    rw [resolve_eq hresolve, FileSystem.create, approach_eq_kept unlinked] at h
    cases happroach : fs.approach .kept d.here (Path.join d.root name) with
    | error fault =>
      rw [happroach] at h
      cases h
      exact .inl ⟨_, rfl, rfl⟩
    | ok spot =>
      rw [happroach] at h
      dsimp only at h
      cases hcreate : fs.createAt spot with
      | mk made fs₁ =>
        rw [hcreate] at h
        rcases createAt_cases hcreate with
          ⟨e, rfl, rfl⟩ | ⟨parent, last, file, rfl, rfl, hzero, hfile⟩
        · cases h
          exact .inl ⟨_, rfl, rfl⟩
        · cases h
          have hplace : d.Place fs name (parent ++ [last]) := ⟨parent, last, happroach, rfl⟩
          refine .inr ⟨file, _, rfl, hzero, hplace, ?_⟩
          rcases hfile with ⟨hvacant, hid, rfl⟩ | ⟨hnode, rfl⟩
          · refine ⟨fun _ => .made hplace hvacant, ?_, ?_⟩
            · rw [node?_insertFile_self (ne_nil_of_vacant hvacant), hid]
            · rw [hid, fileBytes, insertFile, content_setContent_self]
              rfl
          · exact ⟨fun _ => .emptied hplace hnode, hnode,
              by rw [fileBytes, content_setContent_self]; rfl⟩

theorem unlinkAt_cases (fs : FileSystem) (spot : Spot) :
    (fs.unlinkAt spot).2 = fs ∨
      ∃ parent last node, spot = .name parent last false ∧
        fs.node? (parent ++ [last]) = some node ∧ node ≠ .directory ∧
        (fs.unlinkAt spot).2 = fs.without (parent ++ [last]) := by
  unfold unlinkAt
  split
  · exact .inl rfl
  · rename_i parent last slashed
    split
    · exact .inl rfl
    · exact .inl rfl
    · rename_i node hdir hnode
      cases slashed with
      | true => exact .inl rfl
      | false => exact .inr ⟨parent, last, node, rfl, hnode, fun h => hdir h, rfl⟩

theorem unlink_cases (fs : FileSystem) (here : Location) (path : String) :
    (fs.unlink here path).2 = fs ∨ ∃ spot, fs.approach .kept here path = .ok spot ∧
      (fs.unlink here path).2 = (fs.unlinkAt spot).2 := by
  unfold unlink
  split
  · exact .inl rfl
  · rename_i spot happroach
    refine .inr ⟨spot, happroach, ?_⟩
    split <;> (rename_i hunlink; rw [hunlink])

theorem discard_store (d : Directory) (name : String) (fs : FileSystem) :
    (d.discard name fs).2 = fs ∨
      (d.discard name fs).2 = (fs.unlink d.here (Path.join d.root name)).2 := by
  unfold discard
  split
  · exact .inl rfl
  · rename_i path hresolve
    rw [resolve_eq hresolve]
    right
    split
    · rename_i hunlink
      rw [hunlink]
    · rename_i hunlink
      rw [hunlink]
      split <;> rfl

/-- A file at the location of the name is removed, or nothing happens. -/
theorem discard_changes (own : Nat → Prop) (unlinked : ¬ d.NamesLink fs name) :
    fs.Changes (d.Place fs name) own (d.discard name fs).2 := by
  rcases d.discard_store name fs with hsame | hunlink
  · rw [hsame]
    exact .nothing
  · rw [hunlink]
    rcases unlink_cases fs d.here (Path.join d.root name) with hsame | ⟨spot, happroach, hspot⟩
    · rw [hsame]
      exact .nothing
    · rw [hspot]
      rcases unlinkAt_cases fs spot with hsame | ⟨parent, last, node, rfl, hnode, hdir, hwithout⟩
      · rw [hsame]
        exact .nothing
      · rw [hwithout]
        cases node with
        | file id => exact .removed ⟨parent, last, happroach, rfl⟩ hnode
        | directory => exact absurd rfl hdir
        | link target => exact absurd hnode (node?_of_place unlinked happroach)

/-- All of some bytes are written to the file that is open; if it was at its end, they are put
there. -/
theorem writeAll_cases (d : Directory) (file : OpenFile) (bytes : Bytes) (fs : FileSystem) :
    ∃ fs', d.storage.writeAll file bytes fs = (.ok ⟨file.id, file.position + bytes.length⟩, fs') ∧
      (fs' = fs ∨ ∃ c, fs' = fs.setContent file.id c) ∧
      (file.position = (fs.fileBytes file.id).length →
        fs'.fileBytes file.id = fs.fileBytes file.id ++ bytes) := by
  rw [d.writeAll_eq]
  by_cases hempty : bytes = []
  · subst hempty
    exact ⟨fs, rfl, .inl rfl, fun _ => (List.append_nil _).symm⟩
  · rw [if_neg hempty]
    refine ⟨_, rfl, .inr ⟨_, rfl⟩, fun hend => ?_⟩
    unfold fileBytes at hend ⊢
    simp only [FileSystem.write]
    rw [content_setContent_self, Content.bytes_write, hend, Content.overwrite_end]

/-- A file that is read under its name is the one at the location of the name. -/
theorem openFile_of_place (unlinked : ¬ d.NamesLink fs name) (place : d.Place fs name l)
    {id : Nat} (hfile : fs.node? l = some (.file id)) :
    fs.openFile d.here (Path.join d.root name) = .ok (.contents (fs.fileBytes id)) := by
  obtain ⟨parent, last, happroach, rfl⟩ := place
  have hentry : fs.entry d.here (Path.join d.root name) = .ok (parent ++ [last]) := by
    unfold entry
    rw [approach_eq_kept unlinked, happroach]
    simp only [entryAt, hfile]
    rfl
  unfold openFile
  rw [hentry]
  simp only [hfile]

end TftpUpload.Storage.Directory
