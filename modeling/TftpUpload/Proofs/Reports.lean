/-
  TftpUpload/Proofs/Reports.lean
  ==============================
  **Progress is reported in order, and nothing is reported twice.**

  Both sides of a transfer report blocks one after another, and each block once,
  whatever is sent again and whatever comes again (`reports_follow_the_blocks`).
  They differ in what a report means.  An upload reports a block that has been
  sent; that it names as hint the number of the last block relies on the size it
  was told.  A reception reports a block that has been written, and the hint 0
  says that it does not know of an end; only when it has acknowledged the last
  block it names its number.
-/
import TftpUpload.Proofs.Receiver.Reports
import TftpUpload.Proofs.Sender.Reports

namespace TftpUpload

open Wire Transfer Storage

/-- An upload reports the blocks whose datagrams the endpoint has taken, each once: with the hint
that its size gives where they are full, and with their own number otherwise.  A reception reports
blocks that it has written, without a hint; if it succeeds, it reports all of them, and the last one
as such. -/
theorem reports_follow_the_blocks (settings : Settings) (inputs : List Input) (log : Log) :
    (∀ (filename : String) (source : Source) (size : Option Nat) (status : Upload.Status),
      (∀ k, 0 < source.grant k) →
      Upload.machine.History (Upload.start filename source size settings) inputs status log →
      (∃ k, ∃ error : Option Bytes, ∃ taken, delivered inputs log = taken ++ error.toList ∧
        (∀ d ∈ error, IsError d) ∧
        Upload.Tallies filename source settings size k taken log.progress.toList) ∧
      (size = some source.rest.length → source.rest.length / blockSize + 1 ≤ 65535 →
        ∀ report ∈ log.progress.toList,
          report.hint.toNat = source.rest.length / blockSize + 1)) ∧
    ∀ (σ κ : Type) (st : Storage σ κ) (connected : Bool) (request : Bytes) (initial : σ)
      (status : Reception.Status κ) (store : σ) (calls : List Call),
      (Reception.machine st.recorded).History
        (Reception.start st.recorded connected request settings (initial, [])) inputs
        (status, store, calls) log →
      (Reception.Partly (Reception.blocksIn inputs) calls log.progress.toList ∨
        log.progress.toList = Reception.whole (Reception.blocksIn inputs).length ∧
          ∀ failure, status ≠ .ended (.error failure)) ∧
      ∀ summary, status = .ended (.ok summary) →
        1 ≤ summary.blocks ∧ log.progress.toList = Reception.whole summary.blocks := by
  constructor
  · intro filename source size status short h
    obtain ⟨k, error, taken, htaken, herror, htallies⟩ :=
      (Upload.history_reported filename size settings short h).tallies
    refine ⟨⟨k, error, taken, htaken, herror, htallies⟩, ?_⟩
    rintro rfl few
    exact htallies.hints few
  · intro σ κ st connected request initial status store calls h
    have hreports := Reception.history_reports st connected request settings initial h
    rcases Reception.history_stands st connected request settings initial h with
      ⟨name, mode, hrequest, hstands⟩ | hrefused
    · refine ⟨hreports.partly_or_whole hstands, ?_⟩
      rintro summary rfl
      cases hreports with
      | succeeded all =>
        cases hstands with
        | succeeded finished filed =>
          refine ⟨?_, all⟩
          rw [finished.length_eq]
          exact Nat.le_add_left 1 _
    · refine ⟨.inl (hreports.partly_of_refused hrefused), ?_⟩
      rintro summary rfl
      cases hrefused

set_option maxRecDepth 20000 in
/-- Two bytes are reported as one block, though the request was sent twice; and so is one byte that
is received. -/
theorem one_block_is_reported_once :
    (Upload.machine.History (Upload.start "a" Upload.twoBytes (some 2) { maxRetries := 2 })
        [.verdict (.ok ()), .arrival .silence, .verdict (.ok ()), .arrival (.datagram [0, 4, 0, 0]),
          .verdict (.ok ()), .arrival (.datagram [0, 4, 0, 1])]
        (.ended (.ok ⟨"a", 1, 2⟩)) ⟨Upload.twoBytesSent.toArray, #[⟨1, 1⟩]⟩ ∧
      ∀ report ∈ [(⟨1, 1⟩ : Progress)], report.hint.toNat = 1) ∧
    ((Reception.machine (Memory.storage {}).recorded).History
        (Reception.start (Memory.storage {}).recorded true [0, 2, 97, 0, 111, 0] {} ({}, []))
        [.verdict (.ok ()), .arrival (.datagram [0, 3, 0, 1, 7]), .verdict (.ok ()),
          .arrival .silence]
        (.ended (.ok ⟨"a", 1, 1⟩), (Memory.put {} ⟨"a", Content.empty.append [7]⟩),
          [.create "a" true, .write [7], .flush true])
        ⟨#[[0, 4, 0, 0], [0, 4, 0, 1]], #[⟨1, 1⟩]⟩ ∧
      [(⟨1, 1⟩ : Progress)] = Reception.whole 1) := by
  have hstart : Upload.machine.History
      (Upload.start "a" Upload.twoBytes (some 2) { maxRetries := 2 }) [] _ {} := .start
  have hsilent := (hstart.verdict (.ok ()) rfl).arrival .silence rfl
  have hopened := (hsilent.verdict (.ok ()) rfl).arrival (.datagram [0, 4, 0, 0]) rfl
  have hupload : Upload.machine.History
      (Upload.start "a" Upload.twoBytes (some 2) { maxRetries := 2 }) _
      (.ended (.ok ⟨"a", 1, 2⟩)) ⟨Upload.twoBytesSent.toArray, #[⟨1, 1⟩]⟩ :=
    (hopened.verdict (.ok ()) rfl).arrival (.datagram [0, 4, 0, 1]) rfl
  have hreception : (Reception.machine (Memory.storage {}).recorded).History
      (Reception.start (Memory.storage {}).recorded true [0, 2, 97, 0, 111, 0] {} ({}, []))
      [.verdict (.ok ()), .arrival (.datagram [0, 3, 0, 1, 7]), .verdict (.ok ()),
        .arrival .silence]
      (.ended (.ok ⟨"a", 1, 1⟩), (Memory.put {} ⟨"a", Content.empty.append [7]⟩),
        [.create "a" true, .write [7], .flush true])
      ⟨#[[0, 4, 0, 0], [0, 4, 0, 1]], #[⟨1, 1⟩]⟩ :=
    .arrival .silence (.verdict (.ok ()) (.arrival (.datagram [0, 3, 0, 1, 7])
      (.verdict (.ok ()) .start rfl) rfl) rfl) rfl
  have hhints := ((reports_follow_the_blocks _ _ _).1 "a" Upload.twoBytes (some 2) _
    (fun _ => Nat.one_pos) hupload).2 rfl (by decide)
  have hwhole := ((reports_follow_the_blocks _ _ _).2 _ _ _ _ _ _ _ _ _ hreception).2 _ rfl
  exact ⟨⟨hupload, hhints⟩, hreception, hwhole.2⟩

end TftpUpload
