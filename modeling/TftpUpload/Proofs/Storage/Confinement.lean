/-
  TftpUpload/Proofs/Storage/Confinement.lean
  ==========================================
  **A directory keeps to itself.**

  Whatever links there are in the file system, a name stands for a location
  below the root of its storage, links followed, once the directory it lies in
  has been checked (`Place.below`).  So making and removing a destination
  changes one entry below the root and nothing else (`effects_stay_below_root`).

  Two things are not checked, and neither is promised here.  If the name is that
  of a link, what it leads to is emptied or made, wherever that is
  (`link_leads_out_of_the_root`).  And if an entry on the way to the directory
  of the name lies so deep that the path to it from the top is longer than the
  system allows, the directory is not located, and then passes as if it did not
  exist (`resolve_of_tooDeep`).
-/
import TftpUpload.Proofs.FileSystem.Locate
import TftpUpload.Proofs.Storage.Directory

namespace TftpUpload

open FileSystem

/-! ### Changes at one location -/

namespace FileSystem

variable {fs fs' : FileSystem} {l : Location}

structure OnlyAt (l : Location) (fs fs' : FileSystem) : Prop where
  entries : ∀ l', l' ≠ l → fs'.node? l' = fs.node? l'
  files : ∀ l' id, l' ≠ l → fs.node? l' = some (.file id) → fs'.fileBytes id = fs.fileBytes id

theorem onlyAt_without (fs : FileSystem) (l : Location) : OnlyAt l fs (fs.without l) where
  entries _ hl' := node?_without_of_ne hl'
  files _ _ _ _ := rfl

theorem Changes.onlyAt (h : Changes (· = l) (fun _ => False) fs fs') (sound : fs.Sound) :
    OnlyAt l fs fs' where
  entries l' hl' := by
    cases h with
    | nothing | emptied | wrote => rfl
    | made place vacant => exact node?_insertFile_of_ne (place ▸ hl') []
    | removed place file => exact node?_without_of_ne (place ▸ hl')
  files l' id hl' hfile := by
    obtain ⟨-, hcontent⟩ := h.keeps sound hl' nofun hfile
    unfold fileBytes
    rw [hcontent]

end FileSystem

namespace Storage.Directory

variable {d : Directory} {fs fs' : FileSystem} {name path : String} {l : Location}

/-! ### Below the root

The root is where the walk along its path ends, and nothing is said here of whether it can be
located. -/

def Below (top l : Location) : Prop := top <+: l ∧ l ≠ top

/-- Where the root lies, all links followed.  An empty root is the directory one is in. -/
def Root (d : Directory) (fs : FileSystem) (top : Location) : Prop :=
  fs.Leads (fs.follow .followed d.here d.root) top

theorem Root.unique {top top' : Location} (h : d.Root fs top) (h' : d.Root fs top') :
    top = top' := by
  obtain ⟨spot, hspot, hentry⟩ := h
  obtain ⟨spot', hspot', hentry'⟩ := h'
  rw [hspot] at hspot'
  cases hspot'
  rw [hentry] at hentry'
  cases hentry'
  rfl

theorem root_of_empty (hroot : d.root = "") (hdir : fs.isDirectory d.here) : d.Root fs d.here := by
  refine ⟨.directory d.here, ?_, rfl⟩
  have hnames : Path.names "" = [""] := by decide
  have hrelative : Path.isAbsolute "" = false := by decide
  rw [hroot, follow, hnames, hrelative]
  exact walkVia_blanks hdir fun _ hname => .inl (List.mem_singleton.1 hname)

theorem below_concat {top parent : Location} (h : top <+: parent) (last : String) :
    Below top (parent ++ [last]) := by
  refine ⟨h.trans (List.prefix_append _ _), ?_⟩
  intro heq
  have hlength := h.length_le
  rw [← heq, List.length_append, List.length_singleton] at hlength
  omega

/-! ### The check -/

/-- A name that is not refused is relative, and its directory has been checked. -/
theorem checked_of_resolve (h : d.resolve name fs = .ok path) :
    Path.isAbsolute name = false ∧
      confine d.root name (Path.join d.root name) (fs.locate d.here) = .ok () := by
  unfold resolve resolveVia at h
  split at h
  · cases h
  · split at h
    · rename_i hdescending
      dsimp only at h
      split at h
      · cases h
      · rename_i hconfine
        refine ⟨?_, hconfine⟩
        unfold Path.isDescending at hdescending
        rw [Bool.and_eq_true] at hdescending
        simpa using hdescending.1
    · cases h

theorem confine_located {root above : String} {locate : String → Except Fault Location}
    {parent : Location} (habove : Path.parent? path = some above)
    (hparent : locate above = .ok parent) (h : confine root name path locate = .ok ()) :
    ∃ top, locate root = .ok top ∧ top <+: parent := by
  unfold confine at h
  rw [habove, Option.map_some, hparent] at h
  dsimp only at h
  split at h
  · cases h
  · rename_i top htop
    split at h
    · rename_i hprefix
      exact ⟨top, htop, List.isPrefixOf_iff_prefix.1 hprefix⟩
    · cases h

/-- An entry on the way to the directory of the name lies too deep for the directory to be
located. -/
def TooDeep (d : Directory) (fs : FileSystem) (name : String) : Prop :=
  ∃ above, Path.parent? (Path.join d.root name) = some above ∧
    fs.locate d.here above = .error (.os .nameTooLong)

/-- A name that is not refused stands for a location below the root, unless it lies too deep to be
checked. -/
theorem Place.below (place : d.Place fs name l) (hresolve : d.resolve name fs = .ok path)
    (shallow : ¬ d.TooDeep fs name) : ∃ top, d.Root fs top ∧ Below top l := by
  obtain ⟨parent, last, happroach, rfl⟩ := place
  obtain ⟨hrelative, hconfine⟩ := checked_of_resolve hresolve
  obtain ⟨above, habove, hdir, ⟨-, hslash, rfl⟩ | hlocate | hdeep⟩ := locate_parent happroach
  · -- a path without a slash starts out from no root
    have hroot : d.root = "" := by
      by_cases hroot : d.root = ""
      · exact hroot
      · exact absurd (Path.slash_mem_join hroot hrelative) hslash
    exact ⟨d.here, root_of_empty hroot hdir, below_concat (List.prefix_refl _) last⟩
  · obtain ⟨top, htop, hprefix⟩ := confine_located habove hlocate hconfine
    exact ⟨top, locate_leads htop, below_concat hprefix last⟩
  · exact absurd ⟨above, habove, hdeep⟩ shallow

/-- What lies too deep is not refused, wherever it lies. -/
theorem resolve_of_tooDeep (hname : name ≠ "") (hdescending : Path.isDescending name = true)
    (deep : d.TooDeep fs name) : d.resolve name fs = .ok (Path.join d.root name) := by
  obtain ⟨above, habove, hlocate⟩ := deep
  have hempty : name.isEmpty = false := by simpa using hname
  simp [resolve, resolveVia, hempty, hdescending, confine, habove, hlocate]

/-! ### Making and removing -/

theorem resolve_of_create {file : OpenFile} (h : d.create name fs = (.ok file, fs')) :
    ∃ path, d.resolve name fs = .ok path := by
  unfold create at h
  split at h
  · cases h
  · rename_i path hresolve
    exact ⟨path, hresolve⟩

/-- A destination that is made or emptied lies below the root, and nothing else changes. -/
theorem create_below (sound : fs.Sound) (unlinked : ¬ d.NamesLink fs name)
    (shallow : ¬ d.TooDeep fs name)
    {result : Except Refusal OpenFile} (h : d.create name fs = (result, fs')) :
    (∃ refusal, result = .error refusal ∧ fs' = fs) ∨
      ∃ top l file, result = .ok file ∧ d.Root fs top ∧ Below top l ∧ OnlyAt l fs fs' ∧
        fs'.node? l = some (.file file.id) ∧ fs'.fileBytes file.id = [] := by
  rcases create_cases unlinked h with hrefused | ⟨file, l, rfl, -, place, changes, hnode, hempty⟩
  · exact .inl hrefused
  · obtain ⟨path, hresolve⟩ := resolve_of_create h
    obtain ⟨top, hroot, hbelow⟩ := place.below hresolve shallow
    have honly : d.Place fs name = (· = l) :=
      funext fun l' => propext ⟨fun place' => place'.unique place, fun heq => heq ▸ place⟩
    have hchanges := changes fun _ => False
    rw [honly] at hchanges
    exact .inr ⟨top, l, file, rfl, hroot, hbelow, hchanges.onlyAt sound, hnode, hempty⟩

/-- An entry that is removed lies below the root, and nothing else changes.  A link is removed
itself, and not followed. -/
theorem discard_below (shallow : ¬ d.TooDeep fs name) :
    (d.discard name fs).2 = fs ∨
      ∃ top l, d.Root fs top ∧ Below top l ∧ OnlyAt l fs (d.discard name fs).2 ∧
        (d.discard name fs).2.node? l = none := by
  cases hresolve : d.resolve name fs with
  | error refusal =>
    left
    unfold discard
    rw [hresolve]
  | ok path =>
    rcases d.discard_store name fs with hsame | hunlink
    · exact .inl hsame
    · rw [hunlink]
      rcases unlink_cases fs d.here (Path.join d.root name) with hsame | ⟨spot, happroach, hspot⟩
      · exact .inl hsame
      · rw [hspot]
        rcases unlinkAt_cases fs spot with hsame | ⟨parent, last, node, rfl, -, -, hwithout⟩
        · exact .inl hsame
        · rw [hwithout]
          have place : d.Place fs name (parent ++ [last]) := ⟨parent, last, happroach, rfl⟩
          obtain ⟨top, hroot, hbelow⟩ := place.below hresolve shallow
          exact .inr ⟨top, _, hroot, hbelow, onlyAt_without fs _, node?_without_self (by simp)⟩

/-- Making and removing the destination of a name changes one entry below the root of the storage
and nothing else, whatever directories, files and links there are, provided that the directory of
the name can be located if it is there.  For making it the name must not be that of a link. -/
theorem effects_stay_below_root (d : Directory) (name : String) {fs : FileSystem} (sound : fs.Sound)
    (shallow : ¬ d.TooDeep fs name) :
    (¬ d.NamesLink fs name → ∀ result fs', d.create name fs = (result, fs') →
      (∃ refusal, result = .error refusal ∧ fs' = fs) ∨
        ∃ top l file, result = .ok file ∧ d.Root fs top ∧ Below top l ∧ OnlyAt l fs fs' ∧
          fs'.node? l = some (.file file.id) ∧ fs'.fileBytes file.id = []) ∧
      ∀ result fs', d.discard name fs = (result, fs') →
        fs' = fs ∨
          ∃ top l, d.Root fs top ∧ Below top l ∧ OnlyAt l fs fs' ∧ fs'.node? l = none := by
  constructor
  · intro unlinked result fs' h
    exact create_below sound unlinked shallow h
  · intro result fs' h
    have hbelow := discard_below (d := d) shallow
    rwa [h] at hbelow

/-! ### A link within the root, and one that leads out -/

section Links

/-- A file below the root, and beside it a link to the directory that it is in. -/
def linkedWithin : FileSystem where
  entries := [(["root"], .directory), (["root", "sub"], .directory), (["root", "to"], .link "sub"),
    (["root", "sub", "a"], .file 0)]
  contents := [(0, .ofBytes [7])]
  nextFile := 1

/-- A file that is not below the root, and a link to it that is. -/
def linkedOut : FileSystem where
  entries := [(["root"], .directory), (["root", "a"], .link "/victim"), (["victim"], .file 0)]
  contents := [(0, .ofBytes [7])]
  nextFile := 1

theorem file_linkedWithin {l : Location} {id : Nat} (h : linkedWithin.node? l = some (.file id)) :
    l = ["root", "sub", "a"] ∧ id = 0 := by
  unfold node? at h
  split at h
  · cases h
  simp only [linkedWithin, List.lookup_cons, List.lookup_nil] at h
  split at h
  · cases h
  split at h
  · cases h
  split at h
  · cases h
  split at h
  · rename_i hl
    cases h
    exact ⟨by simpa using hl, rfl⟩
  · cases h

theorem sound_linkedWithin : linkedWithin.Sound where
  single l l' id hl hl' := (file_linkedWithin hl).1.trans (file_linkedWithin hl').1.symm
  bounded l id hl := by
    rw [(file_linkedWithin hl).2]
    exact Nat.zero_lt_one

theorem follow_linkedWithin : linkedWithin.follow .kept [] (Path.join "/root" "to/a") =
    .ok (.name ["root", "sub"] "a" false) := by
  decide +kernel

theorem shallow_linkedWithin : ¬ (⟨"/root", []⟩ : Directory).TooDeep linkedWithin "to/a" := by
  have hlocate : linkedWithin.locate [] "/root/to" = .ok ["root", "sub"] := by decide +kernel
  have hparent : Path.parent? (Path.join "/root" "to/a") = some "/root/to" := by decide +kernel
  rintro ⟨above, habove, hdeep⟩
  obtain rfl : "/root/to" = above := Option.some.inj (hparent.symm.trans habove)
  rw [show (⟨"/root", []⟩ : Directory).here = [] from rfl, hlocate] at hdeep
  cases hdeep

theorem unlinked_linkedWithin : ¬ (⟨"/root", []⟩ : Directory).NamesLink linkedWithin "to/a" := by
  rintro ⟨parent, last, slashed, target, hfollow, hnode⟩
  rw [follow_linkedWithin] at hfollow
  cases hfollow
  have hfile : some (Node.file 0) = some (.link target) := hnode
  cases hfile

/-- A link that does not lead out is followed on the way to the file that is emptied. -/
theorem link_is_followed_within_the_root :
    (⟨"/root", []⟩ : Directory).create "to/a" linkedWithin =
        (.ok ⟨0, 0⟩, linkedWithin.setContent 0 .empty) ∧
      ∃ top l, Root ⟨"/root", []⟩ linkedWithin top ∧ Below top l ∧
        OnlyAt l linkedWithin (linkedWithin.setContent 0 .empty) ∧
        linkedWithin.node? l = some (.file 0) := by
  have hcreate : (⟨"/root", []⟩ : Directory).create "to/a" linkedWithin =
      (.ok ⟨0, 0⟩, linkedWithin.setContent 0 .empty) := by decide +kernel
  have hbelow :=
    effects_stay_below_root ⟨"/root", []⟩ "to/a" sound_linkedWithin shallow_linkedWithin
  rcases hbelow.1 unlinked_linkedWithin _ _ hcreate with
    ⟨refusal, hrefused, -⟩ | ⟨top, l, file, hfile, hroot, hl, honly, hnode, -⟩
  · cases hrefused
  · cases hfile
    exact ⟨hcreate, top, l, hroot, hl, honly, hnode⟩

theorem create_linkedOut : (⟨"/root", []⟩ : Directory).create "a" linkedOut =
    (.ok ⟨0, 0⟩, linkedOut.setContent 0 .empty) := by
  decide +kernel

theorem root_linkedOut : Root ⟨"/root", []⟩ linkedOut ["root"] :=
  ⟨.name [] "root" false, by decide +kernel, by decide⟩

/-- A name that is a link is followed wherever it leads: here the file that is emptied lies outside
the root. -/
theorem link_leads_out_of_the_root :
    ∃ fs', (⟨"/root", []⟩ : Directory).create "a" linkedOut = (.ok ⟨0, 0⟩, fs') ∧
      linkedOut.node? ["victim"] = some (.file 0) ∧ linkedOut.fileBytes 0 = [7] ∧
      fs'.fileBytes 0 = [] ∧
      ¬ ∃ top l, Root ⟨"/root", []⟩ linkedOut top ∧ Below top l ∧ OnlyAt l linkedOut fs' := by
  refine ⟨_, create_linkedOut, by decide, by decide, by decide, ?_⟩
  rintro ⟨top, l, htop, hbelow, honly⟩
  have heq : top = ["root"] := htop.unique root_linkedOut
  subst heq
  by_cases hl : ["victim"] = l
  · subst hl
    exact absurd hbelow.1 (by decide)
  · have hkept := honly.files ["victim"] 0 hl (by decide)
    exact absurd hkept (by decide)

end Links

end Storage.Directory

end TftpUpload
