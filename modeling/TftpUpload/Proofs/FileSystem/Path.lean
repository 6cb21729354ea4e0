/-
  TftpUpload/Proofs/FileSystem/Path.lean
  ======================================
  **A path and its parent.**

  A path is its pieces, and pieces without slashes are those of the path that
  they make up (`ofPieces_pieces`, `pieces_ofPieces`).  The parent of a path
  that ends at a name is a beginning of the path, and a walk along it meets the
  names of the path but for the last one; of what comes before that, only pieces
  that lead nowhere are left out (`parent?_of_names`).
-/
import TftpUpload.FileSystem.Path

namespace TftpUpload.Path

/-! ### Pieces

To take a path to pieces and to put pieces together undo each other.  For the one direction the
pieces must hold no slash, which those of a path never do. -/

theorem notMem_of_mem_splitOn {a : Char} {cs piece : List Char} (h : piece ∈ cs.splitOn a) :
    a ∉ piece := by
  induction cs generalizing piece with
  | nil =>
    rw [List.splitOn_nil, List.mem_singleton] at h
    rw [h]
    exact List.not_mem_nil
  | cons c rest ih =>
    rw [List.splitOn_cons_eq_if_modifyHead] at h
    split at h
    · rcases List.mem_cons.1 h with rfl | hrest
      · exact List.not_mem_nil
      · exact ih hrest
    · rename_i hc
      cases hsplit : rest.splitOn a with
      | nil => exact absurd hsplit (List.splitOn_ne_nil a rest)
      | cons first more =>
        rw [hsplit] at h ih
        rcases List.mem_cons.1 h with rfl | hmore
        · have hfirst : a ∉ first := ih List.mem_cons_self
          intro hmem
          rcases List.mem_cons.1 hmem with rfl | hmem
          · exact hc (beq_self_eq_true a)
          · exact hfirst hmem
        · exact ih (List.mem_cons_of_mem first hmore)

theorem slash_notMem {path piece : String} (h : piece ∈ pieces path) : '/' ∉ piece.toList := by
  obtain ⟨cs, hcs, rfl⟩ := List.mem_map.1 h
  rw [String.toList_ofList]
  exact notMem_of_mem_splitOn hcs

theorem pieces_ne_nil (path : String) : pieces path ≠ [] := by
  simp [pieces, List.splitOn_ne_nil]

theorem ofPieces_pieces (path : String) : ofPieces (pieces path) = path := by
  apply String.toList_inj.1
  have htexts : ∀ css : List (List Char), (css.map String.ofList).map String.toList = css := by
    intro css
    simp [Function.comp_def]
  rw [ofPieces, String.toList_intercalate, pieces, htexts]
  exact List.intercalate_splitOn '/'

theorem pieces_ofPieces {ps : List String} (hne : ps ≠ []) (h : ∀ p ∈ ps, '/' ∉ p.toList) :
    pieces (ofPieces ps) = ps := by
  have hsplit : (ofPieces ps).toList.splitOn '/' = ps.map String.toList := by
    rw [ofPieces, String.toList_intercalate]
    apply List.splitOn_intercalate
    · intro cs hcs
      obtain ⟨p, hp, rfl⟩ := List.mem_map.1 hcs
      exact h p hp
    · simpa using hne
  rw [pieces, hsplit, List.map_map]
  simp [Function.comp_def]

theorem ofPieces_append {ps qs : List String} (hps : ps ≠ []) (hqs : qs ≠ []) :
    ofPieces (ps ++ qs) = ofPieces ps ++ "/" ++ ofPieces qs :=
  String.intercalate_append_of_ne_nil hps hqs

/-- A path that is put together from a base has a slash. -/
theorem slash_mem_join {base next : String} (hbase : base ≠ "") (hnext : isAbsolute next = false) :
    '/' ∈ (join base next).toList := by
  have hempty : base.isEmpty = false := by simpa using hbase
  unfold join
  rw [hnext, hempty]
  simp only [Bool.or_self, Bool.false_eq_true, if_false]
  split
  · rename_i hlast
    rw [String.toList_append]
    exact List.mem_append_left _ (List.mem_of_getLast? (by simpa using hlast))
  · simp [String.toList_append]

/-! ### Trimming

What is cut off the end of a list is the longest part that does not count, so what is left ends at
something that counts, or is empty. -/

/-- Trimming takes away pieces that count for nothing, and leaves one that counts or only one. -/
theorem trimEnd_spec (ps : List String) (hne : ps ≠ []) :
    ∃ cut head tail, ps = cut ++ trimEnd ps ∧ (∀ piece ∈ cut, piece = "" ∨ piece = ".") ∧
      trimEnd ps = head :: tail ∧ (tail = [] ∨ (head ≠ "" ∧ head ≠ ".")) := by
  fun_induction trimEnd ps with
  | case1 last before rest hblank ih =>
    obtain ⟨cut, head, tail, hsplit, hcut, hhead, hcounts⟩ := ih (List.cons_ne_nil _ _)
    refine ⟨last :: cut, head, tail, ?_, ?_, hhead, hcounts⟩
    · rw [List.cons_append, ← hsplit]
    · intro piece hpiece
      rcases List.mem_cons.1 hpiece with rfl | hpiece
      · exact hblank
      · exact hcut piece hpiece
  | case2 last before rest hcounts =>
    exact ⟨[], last, before :: rest, rfl, nofun, rfl, .inr (not_or.1 hcounts)⟩
  | case3 ps hshort =>
    cases ps with
    | nil => exact absurd rfl hne
    | cons only rest =>
      cases rest with
      | nil => exact ⟨[], only, [], rfl, nofun, rfl, .inl rfl⟩
      | cons before rest => exact absurd rfl (hshort only before rest)

theorem trimEnd_of_counts {last : String} (before : List String) (hname : last ≠ "" ∧ last ≠ ".") :
    trimEnd (last :: before) = last :: before := by
  cases before with
  | nil => rfl
  | cons before rest =>
    rw [trimEnd, if_neg (not_or.2 hname)]

/-! ### Names -/

/-- The pieces of a path that ends at a name. -/
theorem pieces_of_names {path last : String} {before : List String}
    (h : names path = before ++ [last]) (hname : last ≠ "") :
    ∃ front, pieces path = front ++ [last] ∧ before = front.filter (· != "") := by
  obtain ⟨front, final, hpieces⟩ : ∃ front final, pieces path = front ++ [final] :=
    ⟨_, _, (List.dropLast_concat_getLast (pieces_ne_nil path)).symm⟩
  unfold names at h
  rw [hpieces] at h
  simp only [List.getLast?_concat] at h
  by_cases hfinal : final = ""
  · subst hfinal
    have hlast := (List.append_inj' h (by simp)).2
    simp at hlast
    exact absurd hlast hname
  · have hslashed : (some final == some "") = false := by simpa using hfinal
    rw [hslashed] at h
    simp only [List.filter_append, Bool.false_eq_true, if_false, List.append_nil] at h
    have hkept : [final].filter (· != "") = [final] := by simpa using hfinal
    rw [hkept] at h
    obtain ⟨hbefore, hlast⟩ := List.append_inj' h rfl
    cases hlast
    exact ⟨front, hpieces, hbefore.symm⟩

/-- A walk along pieces that end at one that is not empty meets all but the empty ones. -/
theorem names_ofPieces {front : List String} {last : String}
    (hslash : ∀ p ∈ front ++ [last], '/' ∉ p.toList) (hlast : last ≠ "") :
    names (ofPieces (front ++ [last])) = (front ++ [last]).filter (· != "") := by
  have hslashed : (some last == some "") = false := by simpa using hlast
  unfold names
  rw [pieces_ofPieces (by simp) hslash]
  simp only [List.getLast?_concat, hslashed, Bool.false_eq_true, if_false, List.append_nil]

/-! ### The parent

The parent is taken by cutting pieces that lead nowhere off the end, then one name, and then again
what leads nowhere.  The path that is put together from the rest is a beginning of the path,
because nothing has been cut but its end. -/

theorem dots_of_cut {cut : List String} (hcut : ∀ piece ∈ cut, piece = "" ∨ piece = ".") :
    ∀ piece ∈ cut.reverse.filter (· != ""), piece = "." := by
  intro piece hpiece
  obtain ⟨hmem, hne⟩ := List.mem_filter.1 hpiece
  exact (hcut piece (List.mem_reverse.1 hmem)).resolve_left (by simpa using hne)

theorem toList_of_pieces {path : String} {ps qs : List String} (hps : ps ≠ []) (hqs : qs ≠ [])
    (h : pieces path = ps ++ qs) :
    path.toList = (ofPieces ps).toList ++ '/' :: (ofPieces qs).toList := by
  rw [← ofPieces_pieces path, h, ofPieces_append hps hqs]
  simp [String.toList_append]

theorem ofPieces_ne_empty {front : List String} {last : String}
    (hslash : ∀ p ∈ front ++ [last], '/' ∉ p.toList) (hlast : last ≠ "") :
    ofPieces (front ++ [last]) ≠ "" := by
  intro hempty
  have hpieces := pieces_ofPieces (by simp) hslash
  rw [hempty] at hpieces
  have hsingle : [] ++ [""] = front ++ [last] := hpieces
  cases (List.append_inj' hsingle rfl).2
  exact hlast rfl

/-- A path that ends at a name has a parent.  It is empty if the path is that name; otherwise the
path begins with it, and it leads past the names of the path but for the last one, without those
at the end that lead nowhere. -/
theorem parent?_of_names {path last : String} {before : List String}
    (h : names path = before ++ [last]) (hname : last ≠ "" ∧ last ≠ ".") :
    ∃ parent, parent? path = some parent ∧
      ((parent = "" ∧ before = [] ∧ '/' ∉ path.toList) ∨
        (parent ≠ "" ∧ parent.toList <+: path.toList ∧
          ∃ core dots, before = core ++ dots ∧ (∀ piece ∈ dots, piece = ".") ∧
            (names parent = core ∨ (core = [] ∧ names parent = [""])))) := by
  obtain ⟨front, hpieces, hbefore⟩ := pieces_of_names h hname.1
  unfold parent?
  rw [hpieces, List.reverse_append, List.reverse_singleton, List.singleton_append,
    trimEnd_of_counts _ hname]
  cases hrev : front.reverse with
  | nil =>
    have hfront : front = [] := List.reverse_eq_nil_iff.1 hrev
    subst hfront
    refine ⟨"", by simp [hname.1], .inl ⟨rfl, hbefore, ?_⟩⟩
    have hpath : path = last := by
      rw [← ofPieces_pieces path, hpieces]
      rfl
    have hmem : last ∈ pieces path := by simp [hpieces]
    rw [hpath]
    exact slash_notMem hmem
  | cons final rest =>
    dsimp only
    obtain ⟨cut, head, tail, hsplit, hcut, htrim, hcounts⟩ :=
      trimEnd_spec (final :: rest) (List.cons_ne_nil _ _)
    have hfront : front = (head :: tail).reverse ++ cut.reverse := by
      rw [← List.reverse_append, ← htrim, ← hsplit, ← hrev, List.reverse_reverse]
    have hdots := dots_of_cut hcut
    have hslash : ∀ p ∈ (head :: tail).reverse, '/' ∉ p.toList := by
      intro p hp
      have hmem : p ∈ pieces path := by
        rw [hpieces, hfront]
        exact List.mem_append_left _ (List.mem_append_left _ hp)
      exact slash_notMem hmem
    have htext : path.toList = (ofPieces (head :: tail).reverse).toList ++
        '/' :: (ofPieces (cut.reverse ++ [last])).toList := by
      apply toList_of_pieces (by simp) (by simp)
      rw [hpieces, hfront, List.append_assoc]
    rw [htrim]
    split
    · -- nothing but the slash at the beginning is left
      rename_i heq
      cases heq
      refine ⟨"/", rfl, .inr ⟨by decide, ?_, [], _, ?_, hdots, .inr ⟨rfl, by decide⟩⟩⟩
      · exact ⟨_, htext.symm⟩
      · rw [hbefore, hfront]
        simp
    · rename_i hnotRoot
      have hhead : head ≠ "" := by
        rintro rfl
        rcases hcounts with rfl | ⟨hempty, -⟩
        · exact hnotRoot rfl
        · exact hempty rfl
      rw [List.reverse_cons] at hslash htext ⊢
      refine ⟨_, rfl, .inr ⟨ofPieces_ne_empty hslash hhead, ⟨_, htext.symm⟩, _, _, ?_, hdots,
        .inl (names_ofPieces hslash hhead)⟩⟩
      · rw [hbefore, hfront, List.filter_append, List.reverse_cons]

/-- A path starts where a beginning of it does. -/
theorem isAbsolute_of_isPrefix {path front : String} (h : front.toList <+: path.toList)
    (hne : front ≠ "") : isAbsolute front = isAbsolute path := by
  obtain ⟨back, hpath⟩ := h
  unfold isAbsolute
  rw [← hpath]
  cases hfront : front.toList with
  | nil => exact absurd (by simpa using hfront) hne
  | cons c rest => rfl

end TftpUpload.Path
