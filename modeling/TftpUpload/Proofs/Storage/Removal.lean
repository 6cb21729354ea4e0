/-
  TftpUpload/Proofs/Storage/Removal.lean
  ======================================
  **What has been made can be removed without a trace.**

  A name is resolved anew when its destination is removed, and the check looks
  at the file system as it is then.  It comes to the same: the directory that
  the name is in and the root are located by ways alone, and the root is not the
  destination because it lies above it (`resolve_again`).  So the entry that is
  removed is the one that was made, whatever has been written in between, and
  everything else is as it was before (`discard_undoes_create`).

  The name must not be that of a link: of a link, `create` makes what it leads
  to, and `discard` removes the link.
-/
import TftpUpload.Proofs.Storage.Confinement

namespace TftpUpload

open FileSystem

/-! ### Writing -/

namespace FileSystem

variable {fs fs' fs'' : FileSystem} {l : Location}

def writes (fs : FileSystem) (file : OpenFile) : List Bytes → FileSystem
  | [] => fs
  | bytes :: rest => (fs.write file bytes).2.writes (fs.write file bytes).1 rest

theorem OnlyAt.trans (h : OnlyAt l fs fs') (h' : OnlyAt l fs' fs'') : OnlyAt l fs fs'' where
  entries l' hl' := (h'.entries l' hl').trans (h.entries l' hl')
  files l' id hl' hfile := by
    have hfile' : fs'.node? l' = some (.file id) := (h.entries l' hl').trans hfile
    exact (h'.files l' id hl' hfile').trans (h.files l' id hl' hfile)

theorem onlyAt_setContent (sound : fs.Sound) {id : Nat} (hfile : fs.node? l = some (.file id))
    (c : Content) : OnlyAt l fs (fs.setContent id c) where
  entries _ _ := rfl
  files l' id' hl' hfile' := by
    have hid : id' ≠ id := by
      rintro rfl
      exact hl' (sound.single l' l id' hfile' hfile)
    unfold fileBytes
    rw [content_setContent_of_ne fs hid]

theorem node?_writes (fs : FileSystem) (file : OpenFile) (pieces : List Bytes) :
    (fs.writes file pieces).node? = fs.node? := by
  induction pieces generalizing fs file with
  | nil => rfl
  | cons bytes rest ih => exact ih _ _

theorem onlyAt_writes (sound : fs.Sound) {file : OpenFile}
    (hfile : fs.node? l = some (.file file.id)) (pieces : List Bytes) :
    OnlyAt l fs (fs.writes file pieces) := by
  induction pieces generalizing fs file with
  | nil => exact ⟨fun _ _ => rfl, fun _ _ _ _ => rfl⟩
  | cons bytes rest ih =>
    have hsound : (fs.write file bytes).2.Sound := ⟨sound.single, sound.bounded⟩
    have hrest : OnlyAt l (fs.write file bytes).2 (fs.writes file (bytes :: rest)) :=
      ih hsound hfile
    exact (onlyAt_setContent sound hfile _).trans hrest

end FileSystem

namespace Storage.Directory

variable {d : Directory} {fs fs' : FileSystem} {name path : String} {l : Location}
  {file : OpenFile}

/-! ### Resolving again

What makes a difference to the check are the directory of the name and the root.  Both are
directories that the destination is not, so they are located as before.  If the directory is not
located at one of the two times, nothing is checked then. -/

/-- A name that has been resolved is resolved to the same path for as long as nothing but its
destination changes, and no way. -/
theorem resolve_again (place : d.Place fs name l) (ways : SameWays fs fs') (only : OnlyAt l fs fs')
    (h : d.resolve name fs = .ok path) : d.resolve name fs' = .ok path := by
  have hconfine : confine d.root name (Path.join d.root name) (fs'.locate d.here) = .ok () := by
    obtain ⟨parent, last, happroach, rfl⟩ := place
    obtain ⟨-, hconfine⟩ := checked_of_resolve h
    obtain ⟨above, habove, hdir, -⟩ := locate_parent happroach
    cases hlocate' : fs'.locate d.here above with
    | error fault => simp [confine, habove, hlocate']
    | ok located =>
      -- the directory was located before, too
      obtain rfl : located = parent :=
        eq_of_locate_parent habove (approach_of_sameWays ways happroach) hlocate'
      have hlocate : fs.locate d.here above = .ok located :=
        locate_again ways.symm (ways.node?_eq hdir).symm hlocate'
      obtain ⟨top, htop, hprefix⟩ := confine_located habove hlocate hconfine
      -- the root lies above the destination, so it is not what has changed
      have hne : top ≠ located ++ [last] := (below_concat hprefix last).2.symm
      have htop' := locate_again ways (only.entries top hne) htop
      simp [confine, habove, hlocate', htop', hprefix]
  unfold resolve resolveVia at h ⊢
  split at h
  · cases h
  · rename_i hnonempty
    split at h
    · rename_i hdescending
      dsimp only at h
      split at h <;> cases h
      rw [if_neg hnonempty, if_pos hdescending]
      simp only [hconfine]
    · cases h

/-! ### Removing -/

/-- A file is removed that the name leads to. -/
theorem discard_of_file (place : d.Place fs name l) (hresolve : d.resolve name fs = .ok path)
    {id : Nat} (hfile : fs.node? l = some (.file id)) :
    d.discard name fs = (.ok (), fs.without l) := by
  obtain ⟨parent, last, happroach, rfl⟩ := place
  rw [resolve_eq hresolve] at hresolve
  simp [discard, unlink, hresolve, happroach, unlinkAt, hfile]

/-- Removing what is not there is no fault. -/
theorem discard_of_vacant (place : d.Place fs name l) (hresolve : d.resolve name fs = .ok path)
    (hvacant : fs.node? l = none) : d.discard name fs = (.ok (), fs) := by
  obtain ⟨parent, last, happroach, rfl⟩ := place
  rw [resolve_eq hresolve] at hresolve
  simp [discard, unlink, hresolve, happroach, unlinkAt, hvacant]

/-- A destination that has been made or emptied is removed, whatever has been written to it.  Then
there is nothing at its location, and everything else is as it was before it was made.  Removing it
once more succeeds and changes nothing. -/
theorem discard_undoes_create (sound : fs.Sound) (unlinked : ¬ d.NamesLink fs name)
    (created : d.create name fs = (.ok file, fs')) (pieces : List Bytes) :
    ∃ l removed, d.Place fs name l ∧ fs'.node? l = some (.file file.id) ∧
      d.discard name (fs'.writes file pieces) = (.ok (), removed) ∧
      d.Place removed name l ∧ removed.node? l = none ∧ OnlyAt l fs removed ∧
      d.discard name removed = (.ok (), removed) := by
  obtain ⟨path, hresolve⟩ := resolve_of_create created
  rcases create_cases unlinked created with ⟨refusal, hrefused, -⟩ |
    ⟨file', l, hfile', -, place, changes, hnode, -⟩
  · cases hrefused
  cases hfile'
  have hplaces : d.Place fs name = (· = l) :=
    funext fun l' => propext ⟨fun place' => place'.unique place, fun heq => heq ▸ place⟩
  have hcreated : fs.Changes (· = l) (fun _ => False) fs' := hplaces ▸ changes _
  have hsound' := hcreated.sound sound
  -- the file is written to
  have hnode' : (fs'.writes file pieces).node? l = some (.file file.id) := by
    rw [node?_writes]
    exact hnode
  have ways : SameWays fs (fs'.writes file pieces) := by
    have hwrites : SameWays fs' (fs'.writes file pieces) := by
      funext l'
      unfold way?
      rw [node?_writes]
    exact hcreated.sameWays.trans hwrites
  have only : OnlyAt l fs (fs'.writes file pieces) :=
    (hcreated.onlyAt sound).trans (onlyAt_writes hsound' hnode pieces)
  have hdiscard := discard_of_file (place.of_sameWays ways)
    (resolve_again place ways only hresolve) hnode'
  -- and then removed
  have hl : l ≠ [] := ne_nil_of_file hnode'
  have hvacant : ((fs'.writes file pieces).without l).node? l = none := node?_without_self hl
  have ways' : SameWays fs ((fs'.writes file pieces).without l) :=
    ways.trans (sameWays_without hl (way?_eq_none.2 (.inr ⟨_, hnode'⟩)))
  have only' : OnlyAt l fs ((fs'.writes file pieces).without l) :=
    only.trans (onlyAt_without _ l)
  have place' := place.of_sameWays ways'
  exact ⟨l, _, place, hnode, hdiscard, place', hvacant, only',
    discard_of_vacant place' (resolve_again place ways' only' hresolve) hvacant⟩

/-- A name with empty pieces and dots in it that leads through a link. -/
theorem discard_undoes_create_behind_link :
    (⟨"/root", []⟩ : Directory).create "to//./b" linkedWithin =
        (.ok ⟨1, 0⟩, linkedWithin.insertFile ["root", "sub", "b"] []) ∧
      ∃ removed, (⟨"/root", []⟩ : Directory).discard "to//./b"
            ((linkedWithin.insertFile ["root", "sub", "b"] []).writes ⟨1, 0⟩ [[1, 2], [3]]) =
          (.ok (), removed) ∧
        removed.node? ["root", "sub", "b"] = none ∧
        OnlyAt ["root", "sub", "b"] linkedWithin removed := by
  have hfollow : linkedWithin.follow .kept [] (Path.join "/root" "to//./b") =
      .ok (.name ["root", "sub"] "b" false) := by decide +kernel
  have happroach : linkedWithin.approach .kept [] (Path.join "/root" "to//./b") =
      .ok (.name ["root", "sub"] "b" false) := by decide +kernel
  have hunlinked : ¬ (⟨"/root", []⟩ : Directory).NamesLink linkedWithin "to//./b" := by
    rintro ⟨parent, last, slashed, target, hlink, hnode⟩
    rw [hfollow] at hlink
    cases hlink
    have hnone : none = some (Node.link target) := hnode
    cases hnone
  have hcreate : (⟨"/root", []⟩ : Directory).create "to//./b" linkedWithin =
      (.ok ⟨1, 0⟩, linkedWithin.insertFile ["root", "sub", "b"] []) := by decide +kernel
  obtain ⟨l, removed, place, -, hdiscard, -, hvacant, honly, -⟩ :=
    discard_undoes_create sound_linkedWithin hunlinked hcreate [[1, 2], [3]]
  obtain rfl : l = ["root", "sub", "b"] := place.unique ⟨_, _, happroach, rfl⟩
  exact ⟨hcreate, removed, hdiscard, hvacant, honly⟩

end Storage.Directory

end TftpUpload
