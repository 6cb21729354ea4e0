/-
  TftpUpload/Proofs/FileSystem/Locate.lean
  ========================================
  **What is located, and what lies too deep for that.**

  Locating a path follows it name by name and looks every entry up by its path
  from the top.  A location that comes out of this is where the walk along the
  path ends (`trace_leads`).  The converse holds for directories, but for one
  fault: one of the paths from the top may be too long, be it that of an entry
  which the walk only passes (`trace_of_reaches`).

  So the directory that the last name of a path is in is located by the parent
  of the path, or lies too deep (`locate_parent`).  Which of the two depends on
  directories and links only (`locate_again`).
-/
import Mathlib.Tactic.ByContra
import TftpUpload.Proofs.FileSystem.Passage

namespace TftpUpload.FileSystem

variable {fs fs' : FileSystem} {here l : Location} {name : String} {rest names : List String}
  {asDirectory : Bool} {node : Node} {links : Nat}
  {enter : Location → List String → Except Errno Location}
  {walkOn : Location → List String → Except Errno Spot}

/-! ### Single entries

An entry that has been looked up is the one in its directory; if it has to be a directory and is no
link, it is one.  So a trace goes on from a file only if nothing is left to follow. -/

theorem lookUp_eq_ok (h : fs.lookUp here name asDirectory = .ok node) :
    fs.isDirectory here ∧ ¬ nameLimit < name.utf8ByteSize ∧
      fs.node? (here ++ [name]) = some node ∧
      ∀ id, node = .file id → asDirectory = false := by
  unfold lookUp at h
  cases hnode : fs.node? (here ++ [name]) with
  | none =>
    simp only [hnode] at h
    split_ifs at h
  | some found =>
    simp only [hnode] at h
    cases found with
    | link target | directory =>
      dsimp only at h
      split_ifs at h with _ hdir hlong
      cases h
      exact ⟨hdir, hlong, rfl, nofun⟩
    | file id =>
      dsimp only at h
      split_ifs at h with _ hdir hlong hasked
      cases h
      exact ⟨hdir, hlong, rfl, fun _ _ => by simpa using hasked⟩

/-- A directory or a link is looked up by its name alone, unless it lies too deep. -/
theorem lookUp_of_node (hdir : fs.isDirectory here) (hshort : ¬ nameLimit < name.utf8ByteSize)
    (hnode : fs.node? (here ++ [name]) = some node) (hfile : ∀ id, node ≠ .file id)
    (asDirectory : Bool) :
    fs.lookUp here name asDirectory = .ok node ∨
      fs.lookUp here name asDirectory = .error .nameTooLong := by
  unfold lookUp
  rw [if_pos hdir, if_neg hshort, hnode]
  cases node with
  | file id => exact absurd rfl (hfile id)
  | link target => split_ifs <;> simp
  | directory => split_ifs <;> simp

theorem lookUp_again (ways : SameWays fs fs')
    (hnode : fs'.node? (here ++ [name]) = fs.node? (here ++ [name]))
    (h : fs.lookUp here name asDirectory = .ok node) :
    fs'.lookUp here name asDirectory = .ok node := by
  obtain ⟨hdir, -⟩ := lookUp_eq_ok h
  unfold lookUp at h ⊢
  rw [if_pos hdir] at h
  rwa [if_pos (ways.isDirectory hdir), hnode]

theorem asksDirectory_blank (hname : name = "" ∨ name = ".") :
    asksDirectory (name :: rest) = (rest.isEmpty || asksDirectory rest) := by
  cases rest <;> simp [asksDirectory, hname]

theorem asksDirectory_up : asksDirectory (".." :: rest) = true := by
  simp [asksDirectory]

/-- Nothing is found behind a file. -/
theorem traceVia_of_file (hfile : fs.isDirectory here = false) (hne : names ≠ [])
    (hasks : asksDirectory names = false) : traceVia fs enter here names ≠ .ok l := by
  induction names with
  | nil => exact absurd rfl hne
  | cons name rest ih =>
    rw [traceVia]
    split_ifs with hblank hup
    · rw [asksDirectory_blank hblank, Bool.or_eq_false_iff] at hasks
      exact ih (by simpa using hasks.1) hasks.2
    · rw [hup, asksDirectory_up] at hasks
      cases hasks
    · rw [hup, asksDirectory_up] at hasks
      cases hasks
    · split
      · exact nofun
      all_goals
        rename_i hlookUp
        obtain ⟨hdir, -⟩ := lookUp_eq_ok hlookUp
        rw [hfile] at hdir
        cases hdir

theorem rest_of_file {id : Nat} (hnode : fs.node? here = some (.file id))
    (hasks : asksDirectory rest = false) (h : traceVia fs enter here rest = .ok l) :
    rest = [] := by
  by_contra hne
  exact traceVia_of_file (by simp [isDirectory, hnode]) hne hasks h

/-! ### Traces and walks

A trace and the walk with all links followed meet the same names.  Both are by recursion on the
links that may still be followed and then on the names, so each result comes in two: for one
stretch between links, with what is known of the rest as a hypothesis, and for the whole. -/

theorem traceVia_leads
    (henter : ∀ here names, fs.isDirectory here → enter here names = .ok l →
      fs.Leads (walkOn here names) l)
    (hdir : fs.isDirectory here) (h : traceVia fs enter here names = .ok l) :
    fs.Leads (walkVia fs .followed walkOn here names) l := by
  induction names generalizing here with
  | nil =>
    cases h
    exact (reaches_nil hdir).spot
  | cons name rest ih =>
    rw [traceVia] at h
    split_ifs at h with hblank hup habove
    · rw [walkVia_blank hdir hblank]
      exact ih hdir h
    · rw [walkVia_up hdir hup]
      exact ih habove h
    · split at h
      · cases h
      · rename_i target hlookUp
        obtain ⟨-, hshort, hnode, -⟩ := lookUp_eq_ok hlookUp
        have hstart : fs.isDirectory (if Path.isAbsolute target then [] else here) := by
          split_ifs
          · rfl
          · exact hdir
        rw [walkVia_link hdir hblank hup hshort hnode]
        exact henter _ _ hstart h
      · rename_i node hlink hlookUp
        obtain ⟨-, hshort, hnode, hasked⟩ := lookUp_eq_ok hlookUp
        cases node with
        | link target => exact absurd rfl (hlink target)
        | directory =>
          have hnext : fs.isDirectory (here ++ [name]) := isDirectory_iff.2 hnode
          exact Leads.cons hdir hblank hup hshort hnext (ih hnext h)
        | file id =>
          -- a file ends the path
          have hlast : rest = [] := rest_of_file hnode (hasked id rfl) h
          subst hlast
          cases h
          refine ⟨.name here name false, ?_, by simp [entryAt, hnode]⟩
          rw [walkVia, if_pos hdir, if_neg hblank, if_neg hup, if_neg hshort]
          simp [hnode]

theorem trace_leads (hdir : fs.isDirectory here) (h : fs.trace links here names = .ok l) :
    fs.Leads (fs.walk .followed links here names) l := by
  induction links generalizing here names with
  | zero => exact traceVia_leads (fun _ _ _ h' => by cases h') hdir h
  | succ links ih => exact traceVia_leads (fun _ _ hdir' h' => ih hdir' h') hdir h

theorem traceVia_of_reaches
    (henter : ∀ here names, fs.Reaches (walkOn here names) l →
      enter here names = .ok l ∨ enter here names = .error .nameTooLong)
    (h : fs.Reaches (walkVia fs .followed walkOn here names) l) :
    traceVia fs enter here names = .ok l ∨
      traceVia fs enter here names = .error .nameTooLong := by
  have hdir := h.start_isDirectory
  induction names generalizing here with
  | nil =>
    have heq : l = here := h.eq_of_blanks (by simp)
    exact .inl (congrArg Except.ok heq.symm)
  | cons name rest ih =>
    by_cases hblank : name = "" ∨ name = "."
    · rw [walkVia_blank hdir hblank] at h
      rw [traceVia, if_pos hblank]
      exact ih h hdir
    by_cases hup : name = ".."
    · rw [walkVia_up hdir hup] at h
      rw [traceVia, if_neg hblank, if_pos hup, if_pos h.start_isDirectory]
      exact ih h h.start_isDirectory
    obtain ⟨hshort, hcases⟩ := h.of_cons hdir hblank hup
    rw [traceVia, if_neg hblank, if_neg hup]
    rcases hcases with ⟨target, hnode, hreaches⟩ | ⟨hnode, hreaches⟩ <;>
      rcases lookUp_of_node hdir hshort hnode (by simp) (asksDirectory rest) with hlookUp | hlookUp
    · rw [hlookUp]
      exact henter _ _ hreaches
    · rw [hlookUp]
      exact .inr rfl
    · rw [hlookUp]
      exact ih hreaches hreaches.start_isDirectory
    · rw [hlookUp]
      exact .inr rfl

theorem trace_of_reaches (h : fs.Reaches (fs.walk .followed links here names) l) :
    fs.trace links here names = .ok l ∨ fs.trace links here names = .error .nameTooLong := by
  induction links generalizing here names with
  | zero => exact traceVia_of_reaches (fun _ _ h' => absurd h' not_reaches_error) h
  | succ links ih => exact traceVia_of_reaches (fun _ _ h' => ih h') h

/-! ### Tracing again

A trace looks at nothing but the ways and the entry that it ends at. -/

theorem traceVia_again {enter' : Location → List String → Except Errno Location}
    (ways : SameWays fs fs') (hnode : fs'.node? l = fs.node? l)
    (henter : ∀ here names, enter here names = .ok l → enter' here names = .ok l)
    (h : traceVia fs enter here names = .ok l) : traceVia fs' enter' here names = .ok l := by
  induction names generalizing here with
  | nil => exact h
  | cons name rest ih =>
    rw [traceVia] at h ⊢
    split_ifs at h with hblank hup habove
    · rw [if_pos hblank]
      exact ih h
    · rw [if_neg hblank, if_pos hup, if_pos (ways.isDirectory habove)]
      exact ih h
    · rw [if_neg hblank, if_neg hup]
      split at h
      · cases h
      · rename_i target hlookUp
        obtain ⟨-, -, hfound, -⟩ := lookUp_eq_ok hlookUp
        rw [lookUp_again ways ?_ hlookUp]
        · exact henter _ _ h
        · rwa [hfound, ← way?_eq_link, ways.way?_eq, way?_eq_link]
      · rename_i node hlink hlookUp
        obtain ⟨-, -, hfound, hasked⟩ := lookUp_eq_ok hlookUp
        cases node with
        | link target => exact absurd rfl (hlink target)
        | directory =>
          rw [lookUp_again ways (ways.node?_eq (isDirectory_iff.2 hfound)) hlookUp]
          exact ih h
        | file id =>
          have hlast : rest = [] := rest_of_file hfound (hasked id rfl) h
          subst hlast
          cases h
          rw [lookUp_again ways hnode hlookUp]
          rfl

theorem trace_again (ways : SameWays fs fs') (hnode : fs'.node? l = fs.node? l)
    (h : fs.trace links here names = .ok l) : fs'.trace links here names = .ok l := by
  induction links generalizing here names with
  | zero => exact traceVia_again ways hnode (fun _ _ h' => by cases h') h
  | succ links ih => exact traceVia_again ways hnode (fun _ _ h' => ih h') h

/-! ### Paths

A path is traced from the top or from where one is, and nothing else is in the way of a path that
can be handed to the system. -/

theorem locate_eq_ok {path : String} : fs.locate here path = .ok l ↔
    checkPath path = .ok () ∧ fs.isDirectory (if Path.isAbsolute path then [] else here) ∧
      fs.trace linkLimit (if Path.isAbsolute path then [] else here) (Path.names path) = .ok l := by
  unfold locate
  generalize (if Path.isAbsolute path then [] else here) = start
  cases hcheck : checkPath path with
  | error fault => simp
  | ok _ =>
    by_cases hdir : fs.isDirectory start = true
    · rw [if_pos hdir]
      cases fs.trace linkLimit start (Path.names path) <;> simp [Except.mapError, hdir]
    · simp [hdir]

theorem locate_leads {path : String} (h : fs.locate here path = .ok l) :
    fs.Leads (fs.follow .followed here path) l := by
  obtain ⟨-, hdir, htrace⟩ := locate_eq_ok.1 h
  exact trace_leads hdir htrace

/-- A path leads to the same location wherever the ways are the same, and what is there. -/
theorem locate_again (ways : SameWays fs fs') {path : String} (hnode : fs'.node? l = fs.node? l)
    (h : fs.locate here path = .ok l) : fs'.locate here path = .ok l := by
  obtain ⟨hcheck, hdir, htrace⟩ := locate_eq_ok.1 h
  exact locate_eq_ok.2 ⟨hcheck, ways.isDirectory hdir, trace_again ways hnode htrace⟩

/-! ### The parent of a path -/

theorem Reaches.eq_of_walk_nil {links : Nat} (h : fs.Reaches (fs.walk last links here []) l) :
    l = here := by
  cases links <;> exact h.eq_of_blanks nofun

theorem walk_slash {links : Nat} (h : fs.Reaches (fs.walk last links here []) l) :
    fs.Reaches (fs.walk last links here [""]) l := by
  cases links <;>
  · unfold walk at h ⊢
    rwa [walkVia_blank h.start_isDirectory (.inl rfl)]

theorem checkPath_of_isPrefix {path front : String} (h : front.toList <+: path.toList)
    (hne : front ≠ "") (hpath : checkPath path = .ok ()) : checkPath front = .ok () := by
  unfold checkPath at hpath ⊢
  split_ifs at hpath with hzero
  have hfront : ¬ front.toList.contains '\x00' = true := by
    intro hmem
    apply hzero
    rw [List.contains_iff_mem] at hmem ⊢
    exact h.subset hmem
  have hempty : ¬ front.isEmpty = true := by simpa using hne
  rw [if_neg hfront, if_neg hempty]

/-- The directory that the last name of a path is in is located by the parent of the path, unless
the path is a single name or something on the way lies too deep. -/
theorem locate_parent {path final : String} {parent : Location}
    (h : fs.approach .kept here path = .ok (.name parent final false)) :
    ∃ above, Path.parent? path = some above ∧ fs.isDirectory parent ∧
      ((above = "" ∧ '/' ∉ path.toList ∧ parent = here) ∨ fs.locate here above = .ok parent ∨
        fs.locate here above = .error (.os .nameTooLong)) := by
  obtain ⟨hcheck, -, hfollow⟩ := approach_eq_ok.1 h
  obtain ⟨hcounts, before, hnames, hreaches⟩ := walk_kept_name hfollow
  obtain ⟨above, habove, hcases⟩ := Path.parent?_of_names hnames hcounts
  refine ⟨above, habove, hreaches.directory, ?_⟩
  rcases hcases with ⟨rfl, rfl, hslash⟩ | ⟨hne, hprefix, core, dots, rfl, hdots, hwalk⟩
  · have hrelative : Path.isAbsolute path = false := by
      rw [Path.isAbsolute, Bool.eq_false_iff]
      intro habsolute
      exact hslash (List.mem_of_head? (by simpa using habsolute))
    rw [hrelative] at hreaches
    exact .inl ⟨rfl, hslash, hreaches.eq_of_walk_nil⟩
  · have hcore := walk_without_dots hdots hreaches
    have hparent : fs.Reaches (fs.follow .followed here above) parent := by
      unfold follow
      rw [Path.isAbsolute_of_isPrefix hprefix hne]
      rcases hwalk with hwalk | ⟨rfl, hwalk⟩
      · rwa [hwalk]
      · rw [hwalk]
        exact walk_slash hcore
    have hstart : fs.isDirectory (if Path.isAbsolute above then [] else here) :=
      hparent.start_isDirectory
    right
    unfold locate
    rw [checkPath_of_isPrefix hprefix hne hcheck]
    dsimp only
    rw [if_pos hstart]
    rcases trace_of_reaches hparent with htrace | htrace
    · exact .inl (by rw [htrace]; rfl)
    · exact .inr (by rw [htrace]; rfl)

/-- Where the parent of a path is located, the last name of the path is. -/
theorem eq_of_locate_parent {parent located : Location} {path final above : String}
    (habove : Path.parent? path = some above)
    (h : fs.approach .kept here path = .ok (.name parent final false))
    (hlocate : fs.locate here above = .ok located) : located = parent := by
  obtain ⟨above', habove', -, hcases⟩ := locate_parent h
  obtain rfl : above = above' := Option.some.inj (habove.symm.trans habove')
  rcases hcases with ⟨rfl, -⟩ | hparent | hdeep
  · have hempty : fs.locate here "" = .error (.os .noEntry) := rfl
    rw [hempty] at hlocate
    cases hlocate
  · rw [hparent] at hlocate
    cases hlocate
    rfl
  · rw [hdeep] at hlocate
    cases hlocate

end TftpUpload.FileSystem
