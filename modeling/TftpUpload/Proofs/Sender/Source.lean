/-
  TftpUpload/Proofs/Sender/Source.lean
  ====================================
  **The blocks of a source.**

  A block is filled by reads that each bring a piece, until it is full or a read
  brings nothing or fails (`Filling`).  Whatever their sizes, a block is the
  next piece of the source (`readChunk_ok`), and it is shorter than 512 bytes
  only if the source has ended (`readChunk_short`), provided that no read
  returns nothing before that.  The blocks that are read one after another are a
  prefix of the source, and all of it once they are finished (`Reads.flatten_eq`).
-/
import TftpUpload.Proofs.Transfer.Order
import TftpUpload.Sender.Source

namespace TftpUpload

open Wire Transfer

namespace Source

variable {s s' : Source} {space : Nat} {chunk : Bytes} {pieces : List Bytes} {fault : Fault}
  {r : Except Fault (Bytes × Source)}

/-! ### Reads that bring something

How much a read brings is up to the source, within the room that there is.  Reads that bring nothing
are left out here, since they end a block. -/

@[simp]
theorem skip_rest (s : Source) (n : Nat) : (s.skip n).rest = s.rest.drop n := rfl

theorem readSize_le (s : Source) (space : Nat) : s.readSize space ≤ space := by
  simp only [readSize, List.length_take]
  omega

theorem length_take_readSize (s : Source) (space : Nat) :
    (s.rest.take (s.readSize space)).length = s.readSize space := by
  simp only [readSize, List.length_take]
  omega

/-- One read after another brings a piece, for a buffer with room for `space` bytes. -/
inductive Fills : Source → Nat → List Bytes → Source → Prop where
  | start {s : Source} {space : Nat} : Fills s space [] s
  | more {s s' : Source} {space : Nat} {pieces : List Bytes} (sound : s.fault? = none)
      (brings : 0 < s.readSize space)
      (rest : Fills (s.skip (s.readSize space)) (space - s.readSize space) pieces s') :
      Fills s space (s.rest.take (s.readSize space) :: pieces) s'

theorem length_flatten_pieces (s : Source) (space : Nat) (pieces : List Bytes) :
    (s.rest.take (s.readSize space) :: pieces).flatten.length =
      s.readSize space + pieces.flatten.length := by
  rw [List.flatten_cons, List.length_append, length_take_readSize]

theorem Fills.rest_eq (h : s.Fills space pieces s') : s.rest = pieces.flatten ++ s'.rest := by
  induction h with
  | start => rfl
  | more sound brings rest ih =>
    rw [List.flatten_cons, List.append_assoc, ← ih, skip_rest, List.take_append_drop]

theorem Fills.offset_eq (h : s.Fills space pieces s') :
    s'.offset = s.offset + pieces.flatten.length := by
  induction h with
  | start => rfl
  | more sound brings rest ih => rw [ih, length_flatten_pieces, skip, Nat.add_assoc]

theorem Fills.grant_eq (h : s.Fills space pieces s') : s'.grant = s.grant := by
  induction h with
  | start => rfl
  | more sound brings rest ih => exact ih

theorem Fills.damage_eq (h : s.Fills space pieces s') : s'.damage = s.damage := by
  induction h with
  | start => rfl
  | more sound brings rest ih => exact ih

/-- If every read brings something where there is something, the reads end with the source. -/
theorem Fills.rest_eq_nil (short : ∀ k, 0 < s.grant k) (h : s.Fills space pieces s')
    (room : pieces.flatten.length < space)
    (ended : s'.readSize (space - pieces.flatten.length) = 0) : s'.rest = [] := by
  have hgrant := short s'.reads
  have hlength : s'.rest.length = 0 := by
    simp only [readSize, List.length_take, h.grant_eq] at ended
    omega
  exact List.eq_nil_of_length_eq_zero hlength

/-! ### One block -/

/-- What becomes of filling a buffer.  Behind the reads that bring something there is none, or one
that brings nothing, or one that fails. -/
inductive Filling (s : Source) (space : Nat) : Except Fault (Bytes × Source) → Prop where
  | full {s' : Source} {pieces : List Bytes} (reads : s.Fills space pieces s')
      (full : pieces.flatten.length = space) : Filling s space (.ok (pieces.flatten, s'))
  | ended {s' : Source} {pieces : List Bytes} (reads : s.Fills space pieces s')
      (room : pieces.flatten.length < space) (sound : s'.fault? = none)
      (ended : s'.readSize (space - pieces.flatten.length) = 0) :
      Filling s space (.ok (pieces.flatten, s'.skip 0))
  | broken {s' : Source} {pieces : List Bytes} {fault : Fault} (reads : s.Fills space pieces s')
      (room : pieces.flatten.length < space) (fails : s'.fault? = some fault) :
      Filling s space (.error fault)

/-- A read in front of the others. -/
theorem Filling.more (sound : s.fault? = none) (brings : 0 < s.readSize space)
    (h : Filling (s.skip (s.readSize space)) (space - s.readSize space) r) :
    Filling s space (r.map fun (more, s') => (s.rest.take (s.readSize space) ++ more, s')) := by
  have hle := s.readSize_le space
  cases h with
  | @full s' pieces reads full =>
    exact .full (reads.more sound brings) (by rw [length_flatten_pieces]; omega)
  | @ended s' pieces reads room sound' ended =>
    refine .ended (reads.more sound brings) (by rw [length_flatten_pieces]; omega) sound' ?_
    rwa [length_flatten_pieces, ← Nat.sub_sub]
  | @broken s' pieces fault reads room fails =>
    exact .broken (reads.more sound brings) (by rw [length_flatten_pieces]; omega) fails

theorem fillWithin_filling {turns : Nat} (hturns : space ≤ turns) :
    Filling s space (fillWithin turns space s) := by
  induction turns generalizing space s with
  | zero =>
    obtain rfl : space = 0 := Nat.le_zero.1 hturns
    exact .full .start rfl
  | succ turns ih =>
    rw [fillWithin]
    split
    · rename_i hzero
      subst hzero
      exact .full .start rfl
    · rename_i hroom
      have hpos : 0 < space := Nat.pos_of_ne_zero hroom
      split
      · rename_i fault hfault
        exact .broken .start hpos hfault
      · rename_i sound
        dsimp only
        split
        · rename_i hnone
          exact .ended .start hpos sound hnone
        · rename_i hsome
          -- The turns that are left are enough, as this read brings a byte at least.
          have brings : 0 < s.readSize space := Nat.pos_of_ne_zero hsome
          have hturns' : space - s.readSize space ≤ turns := by omega
          have hmore := (ih (s := s.skip (s.readSize space)) hturns').more sound brings
          split
          all_goals
            rename_i hread
            rw [hread] at hmore
            exact hmore

theorem readChunk_filling (s : Source) : Filling s blockSize s.readChunk :=
  fillWithin_filling (Nat.le_refl _)

/-- A block comes from the front, and fits the room there is. -/
theorem readChunk_ok (h : s.readChunk = .ok (chunk, s')) :
    s.rest = chunk ++ s'.rest ∧ chunk.length ≤ blockSize ∧ s'.grant = s.grant := by
  have hfilling := s.readChunk_filling
  rw [h] at hfilling
  cases hfilling with
  | full reads full => exact ⟨reads.rest_eq, Nat.le_of_eq full, reads.grant_eq⟩
  | ended reads room sound ended => exact ⟨reads.rest_eq, Nat.le_of_lt room, reads.grant_eq⟩

theorem readChunk_short (short : ∀ k, 0 < s.grant k) (h : s.readChunk = .ok (chunk, s'))
    (hchunk : chunk.length < blockSize) : s'.rest = [] := by
  have hfilling := s.readChunk_filling
  rw [h] at hfilling
  cases hfilling with
  | full reads full => exact absurd full (Nat.ne_of_lt hchunk)
  | ended reads room sound ended =>
    rw [skip_rest, List.drop_zero]
    exact reads.rest_eq_nil short room ended

/-! ### Block after block

Blocks are read in order, and nothing is read twice. -/

inductive Reads (source : Source) : List Bytes → Source → Prop where
  | none : Reads source [] source
  | more {blocks : List Bytes} {rest rest' : Source} {chunk : Bytes}
      (before : Reads source blocks rest) (read : rest.readChunk = .ok (chunk, rest')) :
    Reads source (blocks ++ [chunk]) rest'

variable {source rest : Source} {blocks : List Bytes}

theorem Reads.rest_eq (h : source.Reads blocks rest) :
    source.rest = blocks.flatten ++ rest.rest := by
  induction h with
  | none => rfl
  | more before read ih =>
    obtain ⟨hrest, -, -⟩ := readChunk_ok read
    rw [ih, hrest, List.flatten_append, List.flatten_singleton, List.append_assoc]

theorem Reads.flatten_isPrefix (h : source.Reads blocks rest) : blocks.flatten <+: source.rest :=
  ⟨rest.rest, h.rest_eq.symm⟩

theorem Reads.grant_eq (h : source.Reads blocks rest) : rest.grant = source.grant := by
  induction h with
  | none => rfl
  | more before read ih =>
    obtain ⟨-, -, hgrant⟩ := readChunk_ok read
    rw [hgrant, ih]

theorem Reads.length_lt_of_full (h : source.Reads blocks rest) (full : Full blocks) :
    blocks.length < source.rest.length / blockSize + 1 := by
  have hle := h.flatten_isPrefix.length_le
  rw [length_flatten_of_full full] at hle
  simp only [blockSize] at hle ⊢
  omega

theorem Reads.length_le (h : source.Reads blocks rest) (orderly : Orderly blocks) :
    blocks.length ≤ source.rest.length / blockSize + 1 := by
  rcases orderly with full | finished
  · exact Nat.le_of_lt (h.length_lt_of_full full)
  · rw [finished.length_eq]
    have hle := h.flatten_isPrefix.length_le
    exact Nat.add_le_add_right (Nat.div_le_div_right hle) 1

/-- Finished blocks end with the one that is not full. -/
theorem Reads.last_of_finished (h : source.Reads blocks rest) (finished : Finished blocks) :
    ∃ init before last, source.Reads init before ∧ before.readChunk = .ok (last, rest) ∧
      blocks = init ++ [last] ∧ last.length < blockSize := by
  obtain ⟨init, last, hblocks, -, hlast⟩ := finished
  cases h with
  | none => exact absurd hblocks (by simp)
  | more before read =>
    obtain ⟨-, hchunk⟩ := List.append_inj' hblocks rfl
    cases hchunk
    exact ⟨_, _, last, before, read, rfl, hlast⟩

/-- Finished blocks are all of the source. -/
theorem Reads.flatten_eq (short : ∀ k, 0 < source.grant k) (h : source.Reads blocks rest)
    (finished : Finished blocks) : blocks.flatten = source.rest := by
  obtain ⟨init, before, last, hbefore, hread, -, hlast⟩ := h.last_of_finished finished
  have hend : rest.rest = [] := readChunk_short (hbefore.grant_eq ▸ short) hread hlast
  rw [h.rest_eq, hend, List.append_nil]

theorem Reads.flatten_take (h : source.Reads blocks rest) {k : Nat} (hk : k ≤ blocks.length)
    (full : Full (blocks.take k)) : (blocks.take k).flatten = source.rest.take (k * blockSize) := by
  have hlength : (blocks.take k).flatten.length = k * blockSize := by
    rw [length_flatten_of_full full, List.length_take, Nat.min_eq_left hk]
  have hsplit : source.rest =
      (blocks.take k).flatten ++ ((blocks.drop k).flatten ++ rest.rest) := by
    rw [← List.append_assoc, ← List.flatten_append, List.take_append_drop, h.rest_eq]
  rw [hsplit, List.take_append_of_le_length (Nat.le_of_eq hlength.symm),
    List.take_of_length_le (Nat.le_of_eq hlength)]

end Source

end TftpUpload
