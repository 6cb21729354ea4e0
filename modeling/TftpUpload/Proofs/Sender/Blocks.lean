/-
  TftpUpload/Proofs/Sender/Blocks.lean
  ====================================
  **Blocks do not depend on how a source is read.**

  A block that is full takes no read behind it, so no failure there does any
  harm.  A block that is not full takes one more read, which finds that the
  source has ended; if that one fails there is no block, and a short piece never
  stands for one (`readChunk_sound`).

  So the blocks of a source are its chunks of 512 bytes (`chunks`), and when a
  read fails they are those chunks that lie wholly before it
  (`blocks_are_exact`).
-/
import TftpUpload.Proofs.Sender.Train

namespace TftpUpload

open Wire Transfer

/-! ### The chunks of contents

There is one chunk more than full ones, which is empty if the contents end with a full one. -/

/-- The contents in chunks of 512 bytes.  The last one is shorter, and may be empty. -/
def chunks (contents : Bytes) : List Bytes :=
  (List.range (contents.length / blockSize + 1)).map (chunkAt contents)

@[simp]
theorem length_chunks (contents : Bytes) :
    (chunks contents).length = contents.length / blockSize + 1 := by
  simp [chunks]

theorem getElem?_chunks {contents : Bytes} {i : Nat} (h : i ≤ contents.length / blockSize) :
    (chunks contents)[i]? = some (chunkAt contents i) := by
  simp [chunks, List.getElem?_range (Nat.lt_succ_of_le h)]

theorem flatten_map_chunkAt (contents : Bytes) (k : Nat) :
    ((List.range k).map (chunkAt contents)).flatten = contents.take (k * blockSize) := by
  induction k with
  | zero => simp
  | succ k ih =>
    rw [List.range_succ, List.map_append, List.flatten_append, ih, Nat.succ_mul, List.take_add]
    simp [chunkAt]

theorem flatten_chunks (contents : Bytes) : (chunks contents).flatten = contents := by
  have hle : contents.length ≤ (contents.length / blockSize + 1) * blockSize := by
    simp only [blockSize]
    omega
  rw [chunks, flatten_map_chunkAt, List.take_of_length_le hle]

theorem finished_chunks (contents : Bytes) : Finished (chunks contents) := by
  refine ⟨(List.range (contents.length / blockSize)).map (chunkAt contents),
    chunkAt contents (contents.length / blockSize), ?_, ?_, ?_⟩
  · rw [chunks, List.range_succ, List.map_append]
    rfl
  · intro b hb
    obtain ⟨i, hi, rfl⟩ := List.mem_map.1 hb
    have hlt : i < contents.length / blockSize := List.mem_range.1 hi
    have hfull := (chunkAt_short_iff (Nat.le_of_lt hlt)).not.2 (Nat.ne_of_lt hlt)
    have hle : (chunkAt contents i).length ≤ blockSize := List.length_take_le _ _
    exact Nat.le_antisymm hle (Nat.le_of_not_lt hfull)
  · exact (chunkAt_short_iff (Nat.le_refl _)).2 rfl

namespace Source

variable {s s' source rest rest' : Source} {space : Nat} {chunk : Bytes}
  {pieces blocks blocks' : List Bytes} {fault : Fault}

/-! ### One block

Which reads a block takes depends on the sizes that the source grants.  None of them fails if the
bytes of the block are sound, and what is behind them as well when the block is not full. -/

/-- No read that begins among the next `n` bytes fails. -/
def Sound (s : Source) (n : Nat) : Prop :=
  ∀ start fault, s.damage = some (start, fault) → s.offset + n ≤ start

theorem fault?_eq_none_iff : s.fault? = none ↔ s.Sound 1 := by
  unfold fault? Sound
  split
  · rename_i start fault hdamage
    grind
  · rename_i hdamage
    simp [hdamage]

theorem fault?_eq_some_iff :
    s.fault? = some fault ↔ ∃ start, s.damage = some (start, fault) ∧ start ≤ s.offset := by
  unfold fault?
  split
  · rename_i start fault' hdamage
    simp [hdamage, and_comm]
  · rename_i hdamage
    simp [hdamage]

theorem Fills.sound {n : Nat} (h : s.Fills space pieces s') (sound : s.Sound n)
    (hn : pieces.flatten.length < n) : s'.fault? = none := by
  rw [fault?_eq_none_iff]
  intro start fault hdamage
  have hstart := sound start fault (h.damage_eq ▸ hdamage)
  rw [h.offset_eq]
  omega

/-- A block is all there is room for, whatever the sizes of the reads, if none of them fails; the
one that looks for the end is among them only if the block is not full. -/
theorem readChunk_sound (short : ∀ k, 0 < s.grant k)
    (sound : s.Sound (min blockSize (s.rest.length + 1))) :
    ∃ pieces s', s.Fills blockSize pieces s' ∧ pieces.flatten = s.rest.take blockSize ∧
      s'.rest = s.rest.drop blockSize ∧
      s.readChunk = .ok (s.rest.take blockSize,
        if s.rest.length < blockSize then s'.skip 0 else s') := by
  have hfilling := s.readChunk_filling
  generalize s.readChunk = r at hfilling ⊢
  cases hfilling with
  | @full s' pieces reads full =>
    have hrest := reads.rest_eq
    have htake : pieces.flatten = s.rest.take blockSize := by rw [hrest, ← full, List.take_left]
    have hdrop : s'.rest = s.rest.drop blockSize := by rw [hrest, ← full, List.drop_left]
    have hlong : ¬ s.rest.length < blockSize := by
      rw [hrest, List.length_append]
      omega
    exact ⟨pieces, s', reads, htake, hdrop, by rw [if_neg hlong, htake]⟩
  | @ended s' pieces reads room sound ended =>
    have hend := reads.rest_eq_nil short room ended
    have hrest : s.rest = pieces.flatten := by rw [reads.rest_eq, hend, List.append_nil]
    have hshort : s.rest.length < blockSize := hrest ▸ room
    have htake : pieces.flatten = s.rest.take blockSize := by
      rw [hrest, List.take_of_length_le (Nat.le_of_lt room)]
    have hdrop : s'.rest = s.rest.drop blockSize := by
      rw [hend, List.drop_of_length_le (Nat.le_of_lt hshort)]
    exact ⟨pieces, s', reads, htake, hdrop, by rw [if_pos hshort, htake]⟩
  | @broken s' pieces fault reads room fails =>
    have hle : pieces.flatten.length ≤ s.rest.length := by
      rw [reads.rest_eq, List.length_append]
      omega
    rw [reads.sound sound (by omega)] at fails
    cases fails

/-! ### Block after block -/

/-- Blocks as they are read are the chunks of the contents, as far as they go. -/
theorem Reads.eq_take_chunks (short : ∀ k, 0 < source.grant k) (h : source.Reads blocks rest)
    (orderly : Orderly blocks) : blocks = (chunks source.rest).take blocks.length := by
  have hlength := h.length_le orderly
  apply List.ext_getElem?
  intro i
  by_cases hi : i < blocks.length
  · have hblock : blocks[i]? = some blocks[i] := List.getElem?_eq_getElem hi
    rw [List.getElem?_take_of_lt hi, getElem?_chunks (by omega), hblock,
      h.getElem?_eq_chunkAt short orderly hblock]
  · rw [List.getElem?_eq_none (Nat.le_of_not_lt hi), List.getElem?_eq_none]
    rw [List.length_take]
    omega

theorem Reads.eq_chunks (short : ∀ k, 0 < source.grant k) (h : source.Reads blocks rest)
    (finished : Finished blocks) : blocks = chunks source.rest := by
  have hall : (chunks source.rest).length ≤ blocks.length := by
    rw [length_chunks, finished.length_eq, h.flatten_eq short finished]
  rw [h.eq_take_chunks short (.inr finished), List.take_of_length_le hall]

/-- Reading goes one way: two courses of it are the same as far as both go. -/
theorem Reads.isPrefix (h : source.Reads blocks rest) (h' : source.Reads blocks' rest')
    (hle : blocks.length ≤ blocks'.length) :
    blocks <+: blocks' ∧ (blocks.length = blocks'.length → rest = rest') := by
  induction h' generalizing blocks rest with
  | none =>
    cases h with
    | none => exact ⟨List.prefix_rfl, fun _ => rfl⟩
    | more before read => simp at hle
  | @more blocks' rest' next chunk' before' read' ih =>
    rw [List.length_append, List.length_singleton] at hle ⊢
    rcases Nat.lt_or_eq_of_le hle with hlt | heq
    · obtain ⟨hfront, -⟩ := ih h (Nat.le_of_lt_succ hlt)
      exact ⟨hfront.trans (List.prefix_append _ _), fun heq => absurd heq (Nat.ne_of_lt hlt)⟩
    · cases h with
      | none => simp at heq
      | @more blocks last _ chunk before read =>
        rw [List.length_append, List.length_singleton, Nat.add_right_cancel_iff] at heq
        obtain ⟨hfront, hrest⟩ := ih before (Nat.le_of_eq heq)
        rw [hrest heq, read'] at read
        cases read
        rw [hfront.eq_of_length heq]
        exact ⟨List.prefix_rfl, fun _ => rfl⟩

/-- Where reading has failed nothing more is read. -/
theorem Reads.isPrefix_of_error (h : source.Reads blocks rest)
    (hread : rest.readChunk = .error fault) (h' : source.Reads blocks' rest') :
    blocks' <+: blocks := by
  induction h' with
  | none => exact List.nil_prefix
  | @more blocks' rest' next chunk before read ih =>
    have hlt : blocks'.length < blocks.length := by
      refine Nat.lt_of_le_of_ne ih.length_le fun heq => ?_
      rw [(before.isPrefix h ih.length_le).2 heq, hread] at read
      cases read
    have hle : (blocks' ++ [chunk]).length ≤ blocks.length := by
      rw [List.length_append, List.length_singleton]
      exact hlt
    exact ((before.more read).isPrefix h hle).1

/-- Reading comes to an end: with a block that is not full, or with a failure. -/
theorem Reads.exists_end (h : source.Reads blocks rest) (full : Full blocks) :
    ∃ blocks rest, source.Reads blocks rest ∧
      (Finished blocks ∨ Full blocks ∧ ∃ fault, rest.readChunk = .error fault) := by
  induction hn : rest.rest.length using Nat.strong_induction_on generalizing blocks rest with
  | _ n ih =>
    cases hread : rest.readChunk with
    | error fault => exact ⟨blocks, rest, h, .inr ⟨full, fault, hread⟩⟩
    | ok read =>
      obtain ⟨chunk, rest'⟩ := read
      obtain ⟨hrest, hle, -⟩ := readChunk_ok hread
      rcases Nat.lt_or_eq_of_le hle with hlt | heq
      · exact ⟨_, rest', h.more hread, .inl ⟨blocks, chunk, rfl, full, hlt⟩⟩
      · have hless : rest'.rest.length < n := by
          rw [← hn, hrest, List.length_append, heq]
          simp only [blockSize]
          omega
        exact ih _ hless (h.more hread) (full.concat heq) rfl

/-! ### Failures and where they lie

A failure lies where the read that fails begins.  So the full blocks in front of it are as many as
lie wholly before that offset, and nothing has to be known of the reads before. -/

/-- While the next block is read, the read that begins at the offset fails. -/
def FailsAt (s : Source) (offset : Nat) (fault : Fault) : Prop :=
  s.readChunk = .error fault ∧ ∃ pieces s', s.Fills blockSize pieces s' ∧
    pieces.flatten.length < blockSize ∧ s'.fault? = some fault ∧ s'.offset = offset

theorem failsAt_of_error (h : s.readChunk = .error fault) : ∃ offset, s.FailsAt offset fault := by
  have hfilling := s.readChunk_filling
  rw [h] at hfilling
  cases hfilling with
  | broken reads room fails => exact ⟨_, h, _, _, reads, room, fails, rfl⟩

theorem readChunk_place (h : s.readChunk = .ok (chunk, s')) :
    s'.offset = s.offset + chunk.length ∧ s'.damage = s.damage := by
  have hfilling := s.readChunk_filling
  rw [h] at hfilling
  cases hfilling with
  | full reads full => exact ⟨reads.offset_eq, reads.damage_eq⟩
  | ended reads room sound ended => exact ⟨reads.offset_eq, reads.damage_eq⟩

theorem Reads.place (h : source.Reads blocks rest) :
    rest.offset = source.offset + blocks.flatten.length ∧ rest.damage = source.damage := by
  induction h with
  | none => exact ⟨rfl, rfl⟩
  | more before read ih =>
    obtain ⟨hoffset, hdamage⟩ := readChunk_place read
    rw [hoffset, hdamage, ih.1, ih.2, List.flatten_append, List.length_append,
      List.flatten_singleton, Nat.add_assoc]
    exact ⟨rfl, rfl⟩

/-- The full blocks in front of a failure are as many as lie wholly before it. -/
theorem Reads.length_eq_of_failsAt {offset : Nat} (h : source.Reads blocks rest)
    (full : Full blocks) (fails : rest.FailsAt offset fault) :
    blocks.length = (offset - source.offset) / blockSize := by
  obtain ⟨-, pieces, s', reads, room, -, rfl⟩ := fails
  have hlength : s'.offset - source.offset =
      blocks.length * blockSize + pieces.flatten.length := by
    rw [reads.offset_eq, h.place.1, length_flatten_of_full full]
    omega
  rw [hlength, Nat.mul_comm, Nat.mul_add_div (by decide), Nat.div_eq_of_lt room, Nat.add_zero]

/-- The read that fails begins within the source or at its end, and not before the damage. -/
theorem Reads.failure_within {offset : Nat} (h : source.Reads blocks rest)
    (fails : rest.FailsAt offset fault) :
    offset ≤ source.offset + source.rest.length ∧
      ∃ start, source.damage = some (start, fault) ∧ start ≤ offset := by
  obtain ⟨-, pieces, s', reads, -, hfault, rfl⟩ := fails
  obtain ⟨hoffset, hdamage⟩ := h.place
  constructor
  · rw [reads.offset_eq, hoffset, h.rest_eq, reads.rest_eq, List.length_append, List.length_append]
    omega
  · rw [fault?_eq_some_iff, reads.damage_eq, hdamage] at hfault
    exact hfault

/-- A source that is read to its end has no damage up to there. -/
theorem Reads.sound_of_finished (short : ∀ k, 0 < source.grant k) (h : source.Reads blocks rest)
    (finished : Finished blocks) : source.Sound (source.rest.length + 1) := by
  obtain ⟨init, before, last, hbefore, hread, -, hlast⟩ := h.last_of_finished finished
  obtain ⟨hoffset, hdamage⟩ := hbefore.place
  have hfilling := before.readChunk_filling
  rw [hread] at hfilling
  cases hfilling with
  | full reads full => exact absurd full (Nat.ne_of_lt hlast)
  | ended reads room sound ended =>
    intro start fault hstart
    have hend := fault?_eq_none_iff.1 sound start fault (by rw [reads.damage_eq, hdamage, hstart])
    rw [reads.offset_eq, hoffset] at hend
    have hnil := reads.rest_eq_nil (hbefore.grant_eq ▸ short) room ended
    rw [hbefore.rest_eq, reads.rest_eq, hnil, List.append_nil, List.length_append]
    omega

/-- A source without damage up to its end is read in chunks. -/
theorem exists_reads_chunks (short : ∀ k, 0 < s.grant k) (sound : s.Sound (s.rest.length + 1)) :
    ∃ rest, s.Reads (chunks s.rest) rest := by
  obtain ⟨blocks, rest, hreads, finished | ⟨full, fault, hread⟩⟩ := Reads.none.exists_end full_nil
  · exact ⟨rest, hreads.eq_chunks short finished ▸ hreads⟩
  · obtain ⟨offset, fails⟩ := failsAt_of_error hread
    obtain ⟨hend, start, hdamage, hstart⟩ := hreads.failure_within fails
    have hsound := sound start fault hdamage
    omega

/-- A source that is damaged before its end, or there, fails while one of its blocks is read.  The
blocks in front of it are the chunks that lie wholly before the failure. -/
theorem exists_failure {start : Nat} (short : ∀ k, 0 < s.grant k)
    (damage : s.damage = some (start, fault)) (hstart : start ≤ s.offset + s.rest.length) :
    ∃ blocks rest offset, s.Reads blocks rest ∧ rest.FailsAt offset fault ∧
      start ≤ offset ∧ offset ≤ s.offset + s.rest.length ∧ Full blocks ∧
      blocks = (chunks s.rest).take ((offset - s.offset) / blockSize) ∧
      ∀ blocks' rest', s.Reads blocks' rest' → blocks' <+: blocks := by
  obtain ⟨blocks, rest, hreads, finished | ⟨full, fault', hread⟩⟩ := Reads.none.exists_end full_nil
  · have hsound := hreads.sound_of_finished short finished start fault damage
    omega
  · obtain ⟨offset, fails⟩ := failsAt_of_error hread
    obtain ⟨hend, start', hdamage, hoffset⟩ := hreads.failure_within fails
    rw [damage] at hdamage
    cases hdamage
    refine ⟨blocks, rest, offset, hreads, fails, hoffset, hend, full, ?_,
      fun blocks' rest' => hreads.isPrefix_of_error hread⟩
    rw [← hreads.length_eq_of_failsAt full fails]
    exact hreads.eq_take_chunks short (.inl full)

/-- **The blocks of a source are its chunks, however it is read.**  A block that lies wholly before
any damage is the next 512 bytes or all that is left, and only in the second case has a read looked
behind it.  Blocks that are read up to the first that is not full are the chunks of the contents.
With damage the blocks are those chunks that lie wholly before the read that fails; the last chunk
includes the end of the source. -/
theorem blocks_are_exact (s : Source) (short : ∀ k, 0 < s.grant k) :
    (s.Sound (min blockSize (s.rest.length + 1)) →
      ∃ pieces s', s.Fills blockSize pieces s' ∧ pieces.flatten = s.rest.take blockSize ∧
        s'.rest = s.rest.drop blockSize ∧
        s.readChunk = .ok (s.rest.take blockSize,
          if s.rest.length < blockSize then s'.skip 0 else s')) ∧
    (s.Sound (s.rest.length + 1) → ∃ rest, s.Reads (chunks s.rest) rest) ∧
    (∀ blocks rest, s.Reads blocks rest → Finished blocks → blocks = chunks s.rest) ∧
    (Finished (chunks s.rest) ∧ (chunks s.rest).flatten = s.rest ∧
      (chunks s.rest).length = s.rest.length / blockSize + 1) ∧
    ∀ start fault, s.damage = some (start, fault) → start ≤ s.offset + s.rest.length →
      ∃ blocks rest offset, s.Reads blocks rest ∧ rest.FailsAt offset fault ∧
        start ≤ offset ∧ offset ≤ s.offset + s.rest.length ∧ Full blocks ∧
        blocks = (chunks s.rest).take ((offset - s.offset) / blockSize) ∧
        ∀ blocks' rest', s.Reads blocks' rest' → blocks' <+: blocks := by
  refine ⟨readChunk_sound short, exists_reads_chunks short, ?_, ?_, ?_⟩
  · exact fun blocks rest hreads finished => hreads.eq_chunks short finished
  · exact ⟨finished_chunks s.rest, flatten_chunks s.rest, length_chunks s.rest⟩
  · exact fun start fault damage hstart => exists_failure short damage hstart

def damagedInside : Source where
  rest := List.replicate 700 7
  grant k := k % 3 + 1
  damage := some (600, .stated "read failed")

/-- The first block is read, and the bytes between it and the damage are no block. -/
theorem damaged_block_is_not_cut_short :
    (∀ k, 0 < damagedInside.grant k) ∧
      ∃ rest offset, damagedInside.Reads [List.replicate 512 7] rest ∧
        rest.FailsAt offset (.stated "read failed") ∧ 600 ≤ offset ∧
        ∀ blocks rest', damagedInside.Reads blocks rest' → blocks <+: [List.replicate 512 7] := by
  have short : ∀ k, 0 < damagedInside.grant k := fun k => Nat.succ_pos (k % 3)
  have hend : damagedInside.offset + damagedInside.rest.length = 700 := by
    rw [damagedInside, List.length_replicate]
  obtain ⟨-, -, -, -, hfailure⟩ := blocks_are_exact damagedInside short
  obtain ⟨blocks, rest, offset, hreads, fails, hlow, hhigh, -, hblocks, honly⟩ :=
    hfailure 600 (.stated "read failed") rfl (by omega)
  have hcount : (offset - damagedInside.offset) / blockSize = 1 := by
    simp only [damagedInside, blockSize] at hend hhigh ⊢
    omega
  obtain rfl : blocks = [List.replicate 512 7] := by
    rw [hblocks, hcount]
    decide +kernel
  exact ⟨short, rest, offset, hreads, fails, hlow, honly⟩

end Source

end TftpUpload
