/-
  TftpUpload/Proofs/FileSystem/Passage.lean
  =========================================
  **The directory that a path passes last.**

  A path that ends at a name leads there through a directory.  A walk along the
  names in front of the last one, with all links followed, reaches this
  directory (`walk_kept_name`), and may leave out pieces that lead nowhere
  (`walk_without_dots`).  A link under the last name is of no account for this:
  it is the directory that the name is in which is reached, and not what the
  name leads to.
-/
import Mathlib.Tactic.SplitIfs
import TftpUpload.Proofs.FileSystem.Path
import TftpUpload.Proofs.FileSystem.Walk

namespace TftpUpload.FileSystem

variable {fs : FileSystem} {last : LastLink} {here l : Location} {name : String}
  {names rest : List String} {enter enter' : Location → List String → Except Errno Spot}

/-- The result of a walk is the entry at a location. -/
abbrev Leads (fs : FileSystem) (result : Except Errno Spot) (l : Location) : Prop :=
  ∃ spot, result = .ok spot ∧ fs.entryAt spot = .ok l

structure Reaches (fs : FileSystem) (result : Except Errno Spot) (l : Location) : Prop where
  directory : fs.isDirectory l
  spot : fs.Leads result l

/-! ### Single names -/

theorem not_reaches_error {e : Errno} : ¬ fs.Reaches (.error e) l := by
  rintro ⟨-, spot, hspot, -⟩
  cases hspot

theorem Reaches.start_isDirectory (h : fs.Reaches (walkVia fs last enter here names) l) :
    fs.isDirectory here = true := by
  by_cases hdir : fs.isDirectory here = true
  · exact hdir
  · rw [walkVia_of_not_directory (Bool.eq_false_iff.2 hdir)] at h
    exact absurd h not_reaches_error

theorem walkVia_nil (hdir : fs.isDirectory here) :
    walkVia fs last enter here [] = .ok (.directory here) := by
  unfold walkVia
  rw [if_pos hdir]

theorem walkVia_blank (hdir : fs.isDirectory here) (hname : name = "" ∨ name = ".") :
    walkVia fs last enter here (name :: rest) = walkVia fs last enter here rest := by
  rw [walkVia, if_pos hdir, if_pos hname]

theorem walkVia_up (hdir : fs.isDirectory here) (hname : name = "..") :
    walkVia fs last enter here (name :: rest) = walkVia fs last enter here.dropLast rest := by
  subst hname
  rw [walkVia, if_pos hdir, if_neg (by decide), if_pos rfl]

/-- Names that count for nothing lead nowhere. -/
theorem walkVia_blanks (hdir : fs.isDirectory here)
    (hblank : ∀ name ∈ names, name = "" ∨ name = ".") :
    walkVia fs last enter here names = .ok (.directory here) := by
  induction names with
  | nil => exact walkVia_nil hdir
  | cons name rest ih =>
    rw [walkVia_blank hdir (hblank name List.mem_cons_self)]
    exact ih fun name hname => hblank name (List.mem_cons_of_mem _ hname)

theorem Leads.eq_of_blanks (hdir : fs.isDirectory here)
    (h : fs.Leads (walkVia fs last enter here names) l)
    (hblank : ∀ name ∈ names, name = "" ∨ name = ".") : l = here := by
  obtain ⟨spot, hspot, hentry⟩ := h
  rw [walkVia_blanks hdir hblank] at hspot
  cases hspot
  cases hentry
  rfl

theorem Reaches.eq_of_blanks (h : fs.Reaches (walkVia fs last enter here names) l)
    (hblank : ∀ name ∈ names, name = "" ∨ name = ".") : l = here :=
  Leads.eq_of_blanks h.start_isDirectory h.spot hblank

theorem reaches_nil (hdir : fs.isDirectory here) :
    fs.Reaches (walkVia fs last enter here []) here :=
  ⟨hdir, _, walkVia_nil hdir, rfl⟩

/-- A walk goes through the directory of a name to wherever one gets from there. -/
theorem Leads.cons (hdir : fs.isDirectory here) (hcounts : ¬ (name = "" ∨ name = "."))
    (hdown : name ≠ "..") (hshort : ¬ nameLimit < name.utf8ByteSize)
    (hnext : fs.isDirectory (here ++ [name]))
    (h : fs.Leads (walkVia fs last enter (here ++ [name]) rest) l) :
    fs.Leads (walkVia fs last enter here (name :: rest)) l := by
  have hnode : fs.node? (here ++ [name]) = some .directory := isDirectory_iff.1 hnext
  rw [walkVia, if_pos hdir, if_neg hcounts, if_neg hdown, if_neg hshort]
  simp only [hnode]
  split_ifs with hlast
  · have heq : l = here ++ [name] := by
      apply Leads.eq_of_blanks hnext h
      intro piece hpiece
      exact .inl (by simpa using List.all_eq_true.1 hlast piece hpiece)
    subst heq
    exact ⟨_, rfl, by simp [entryAt, hnode]⟩
  · exact h

theorem Reaches.cons (hdir : fs.isDirectory here) (hcounts : ¬ (name = "" ∨ name = "."))
    (hdown : name ≠ "..") (hshort : ¬ nameLimit < name.utf8ByteSize)
    (h : fs.Reaches (walkVia fs last enter (here ++ [name]) rest) l) :
    fs.Reaches (walkVia fs last enter here (name :: rest)) l :=
  ⟨h.directory, Leads.cons hdir hcounts hdown hshort h.start_isDirectory h.spot⟩

/-- If all links are followed, a walk goes on where a link leads. -/
theorem walkVia_link (hdir : fs.isDirectory here) (hcounts : ¬ (name = "" ∨ name = "."))
    (hdown : name ≠ "..") (hshort : ¬ nameLimit < name.utf8ByteSize) {target : String}
    (hnode : fs.node? (here ++ [name]) = some (.link target)) :
    walkVia fs .followed enter here (name :: rest) =
      enter (if Path.isAbsolute target then [] else here) (Path.names target ++ rest) := by
  rw [walkVia, if_pos hdir, if_neg hcounts, if_neg hdown, if_neg hshort]
  simp only [hnode, LastLink.isKept, Bool.and_false, Bool.false_eq_true, if_false]

/-- A directory is reached through a link or through a directory. -/
theorem Reaches.of_cons (hdir : fs.isDirectory here) (hcounts : ¬ (name = "" ∨ name = "."))
    (hdown : name ≠ "..") (h : fs.Reaches (walkVia fs .followed enter here (name :: rest)) l) :
    ¬ nameLimit < name.utf8ByteSize ∧
      ((∃ target, fs.node? (here ++ [name]) = some (.link target) ∧
          fs.Reaches (enter (if Path.isAbsolute target then [] else here)
            (Path.names target ++ rest)) l) ∨
        fs.node? (here ++ [name]) = some .directory ∧
          fs.Reaches (walkVia fs .followed enter (here ++ [name]) rest) l) := by
  by_cases hlong : nameLimit < name.utf8ByteSize
  · rw [walkVia, if_pos hdir, if_neg hcounts, if_neg hdown, if_pos hlong] at h
    exact absurd h not_reaches_error
  refine ⟨hlong, ?_⟩
  obtain ⟨hdirectory, spot, hspot, hentry⟩ := h
  cases hnode : fs.node? (here ++ [name]) with
  | none =>
    rw [walkVia, if_pos hdir, if_neg hcounts, if_neg hdown, if_neg hlong] at hspot
    simp only [hnode] at hspot
    split_ifs at hspot
    cases hspot
    simp [entryAt, hnode] at hentry
  | some node =>
    cases node with
    | link target =>
      rw [walkVia_link hdir hcounts hdown hlong hnode] at hspot
      exact .inl ⟨target, rfl, hdirectory, spot, hspot, hentry⟩
    | file id =>
      -- neither the file nor anything behind it is a directory
      have hfile : fs.isDirectory (here ++ [name]) = false := by simp [isDirectory, hnode]
      rw [walkVia, if_pos hdir, if_neg hcounts, if_neg hdown, if_neg hlong] at hspot
      simp only [hnode] at hspot
      split_ifs at hspot
      · cases hspot
        simp only [entryAt, hnode] at hentry
        split_ifs at hentry
        cases hentry
        rw [hfile] at hdirectory
        cases hdirectory
      · rw [walkVia_of_not_directory hfile] at hspot
        cases hspot
    | directory =>
      refine .inr ⟨rfl, hdirectory, ?_⟩
      rw [walkVia, if_pos hdir, if_neg hcounts, if_neg hdown, if_neg hlong] at hspot
      simp only [hnode] at hspot
      split_ifs at hspot with hlast
      · cases hspot
        simp only [entryAt, hnode, ne_eq, not_true, and_false, if_false] at hentry
        cases hentry
        refine ⟨_, walkVia_blanks (isDirectory_iff.2 hnode) ?_, rfl⟩
        intro piece hpiece
        exact .inl (by simpa using List.all_eq_true.1 hlast piece hpiece)
      · exact ⟨spot, hspot, hentry⟩

/-! ### Pieces at the end that lead nowhere

The dots that stand at the end of a path are left out when its parent is taken.  The walk is at a
directory when it meets them, and stays there. -/

theorem walkVia_without_dots
    (henter : ∀ here names dots, (∀ piece ∈ dots, piece = ".") →
      fs.Reaches (enter here (names ++ dots)) l → fs.Reaches (enter here names) l)
    {dots : List String} (hdots : ∀ piece ∈ dots, piece = ".")
    (h : fs.Reaches (walkVia fs .followed enter here (names ++ dots)) l) :
    fs.Reaches (walkVia fs .followed enter here names) l := by
  have hdir := h.start_isDirectory
  induction names generalizing here with
  | nil =>
    have heq : l = here := h.eq_of_blanks fun piece hpiece => .inr (hdots piece hpiece)
    subst heq
    exact reaches_nil hdir
  | cons name rest ih =>
    rw [List.cons_append] at h
    by_cases hblank : name = "" ∨ name = "."
    · rw [walkVia_blank hdir hblank] at h ⊢
      exact ih h hdir
    by_cases hup : name = ".."
    · rw [walkVia_up hdir hup] at h ⊢
      exact ih h h.start_isDirectory
    obtain ⟨hshort, ⟨target, hnode, hreaches⟩ | ⟨-, hreaches⟩⟩ := h.of_cons hdir hblank hup
    · rw [walkVia_link hdir hblank hup hshort hnode]
      rw [← List.append_assoc] at hreaches
      exact henter _ _ dots hdots hreaches
    · exact (ih hreaches hreaches.start_isDirectory).cons hdir hblank hup hshort

theorem walk_without_dots {links : Nat} {dots : List String} (hdots : ∀ piece ∈ dots, piece = ".")
    (h : fs.Reaches (fs.walk .followed links here (names ++ dots)) l) :
    fs.Reaches (fs.walk .followed links here names) l := by
  induction links generalizing here names dots with
  | zero => exact walkVia_without_dots (fun _ _ _ _ h' => absurd h' not_reaches_error) hdots h
  | succ links ih => exact walkVia_without_dots (fun _ _ _ hdots' h' => ih hdots' h') hdots h

/-! ### The last name -/

structure EndsIn (fs : FileSystem) (walk : List String → Except Errno Spot) (names : List String)
    (parent : Location) (final : String) : Prop where
  counts : final ≠ "" ∧ final ≠ "."
  split : ∃ before, names = before ++ [final] ∧ fs.Reaches (walk before) parent

theorem walkVia_kept_name
    (henter : ∀ here names parent final, enter here names = .ok (.name parent final false) →
      fs.EndsIn (enter' here) names parent final)
    {parent : Location} {final : String}
    (h : walkVia fs .kept enter here names = .ok (.name parent final false)) :
    fs.EndsIn (walkVia fs .followed enter' here) names parent final := by
  induction names generalizing here with
  | nil =>
    unfold walkVia at h
    split_ifs at h
    cases h
  | cons name rest ih =>
    rw [walkVia] at h
    split_ifs at h with hdir hblank hup hlong
    · obtain ⟨hcounts, before, rfl, hreaches⟩ := ih h
      refine ⟨hcounts, name :: before, rfl, ?_⟩
      rwa [walkVia_blank hdir hblank]
    · obtain ⟨hcounts, before, rfl, hreaches⟩ := ih h
      refine ⟨hcounts, name :: before, rfl, ?_⟩
      rwa [walkVia_up hdir hup]
    · -- the walk ends at this name only if none is left
      have hends : Except.ok (Spot.name here name !rest.isEmpty) =
          (.ok (.name parent final false) : Except Errno Spot) →
          fs.EndsIn (walkVia fs .followed enter' here) (name :: rest) parent final := by
        intro heq
        simp only [Except.ok.injEq, Spot.name.injEq, Bool.not_eq_false', List.isEmpty_iff] at heq
        obtain ⟨rfl, rfl, rfl⟩ := heq
        exact ⟨not_or.1 hblank, [], rfl, reaches_nil hdir⟩
      cases hnode : fs.node? (here ++ [name]) with
      | none =>
        simp only [hnode] at h
        split_ifs at h
        exact hends h
      | some node =>
        simp only [hnode] at h
        cases node with
        | file id | directory =>
          dsimp only at h
          split_ifs at h with hlast
          · exact hends h
          · obtain ⟨hcounts, before, rfl, hreaches⟩ := ih h
            exact ⟨hcounts, name :: before, rfl, hreaches.cons hdir hblank hup hlong⟩
        | link target =>
          simp only [LastLink.isKept, Bool.and_true] at h
          by_cases hlast : rest.all (·.isEmpty) = true
          · rw [if_pos hlast] at h
            exact hends h
          · rw [if_neg hlast] at h
            obtain ⟨hcounts, through, hthrough, hreaches⟩ := henter _ _ _ _ h
            obtain ⟨before, final', rfl⟩ : ∃ before final', rest = before ++ [final'] := by
              refine ⟨_, _, (List.dropLast_concat_getLast ?_).symm⟩
              rintro rfl
              exact hlast rfl
            rw [← List.append_assoc] at hthrough
            obtain ⟨rfl, heq⟩ := List.append_inj' hthrough rfl
            cases heq
            refine ⟨hcounts, name :: before, rfl, ?_⟩
            rwa [walkVia_link hdir hblank hup hlong hnode]

theorem walk_kept_name {links : Nat} {parent : Location} {final : String}
    (h : fs.walk .kept links here names = .ok (.name parent final false)) :
    fs.EndsIn (fs.walk .followed links here) names parent final := by
  induction links generalizing here names parent final with
  | zero => exact walkVia_kept_name (fun _ _ _ _ h' => by cases h') h
  | succ links ih => exact walkVia_kept_name (fun _ _ _ _ h' => ih h') h

end TftpUpload.FileSystem
