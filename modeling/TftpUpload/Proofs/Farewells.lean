/-
  TftpUpload/Proofs/Farewells.lean
  ================================
  **A failure that has something to tell is told.**

  A transfer that fails sends at most one ERROR, and sends it last; which one is
  decided by its failure alone (`failures_are_told`).  The disk under a directory
  may fail as it likes.  What is left unsaid are two kinds of failures whose text
  fits no packet: a directory refuses a name of more than 463 bytes, which it
  quotes, and a source states its fault at length or with a zero byte.  A peer
  that is refused such a name hears nothing at all
  (`long_name_is_refused_in_silence`).
-/
import TftpUpload.Proofs.Receiver.Farewell
import TftpUpload.Proofs.Sender.Farewell
import TftpUpload.Proofs.Storage.Refusals

namespace TftpUpload

open Wire Transfer Text Storage

/-! ### Names that are quoted

The refusal of a directory puts 48 bytes around the name, and an ERROR has room for a text of
511. -/

/-- The longest name that can be quoted in the refusal of a name that leads out of a directory. -/
def quotableLimit : Nat := 463

/-- A name that leads out of a directory is refused, and is too long to be quoted. -/
def Overlong (failure : Failure) : Prop :=
  ∃ name, failure = .rejected .accessViolation (Directory.outside name).message ∧
    quotableLimit < name.utf8ByteSize

theorem size_outside (name : String) :
    (Directory.outside name).message.utf8ByteSize = name.utf8ByteSize + 48 := by
  have hopen : "'".utf8ByteSize = 1 := by decide
  have hclose : "' is outside the storage root".utf8ByteSize = 29 := by decide
  have hkind : "access violation: ".utf8ByteSize = 18 := by decide
  unfold Directory.outside Refusal.message
  rw [String.utf8ByteSize_append, String.utf8ByteSize_append, String.utf8ByteSize_append, hopen,
    hclose, hkind]
  omega

theorem plain_outside {name : String} (nonzero : 0 ∉ Utf8.encode name)
    (size : name.utf8ByteSize ≤ quotableLimit) :
    Plain errorTextLimit (Directory.outside name).message := by
  have hname : Plain quotableLimit name := ⟨nonzero, size⟩
  have hquoted := ((by decide : Plain 1 "'").append hname).append
    (by decide : Plain 29 "' is outside the storage root")
  exact ((by decide : Plain 18 "access violation: ").append hquoted).mono (by decide)

theorem farewell_of_not_plain {failure : Failure} {code : ErrorCode} {text : String}
    (hreply : failure.reply = some (.error code text)) (h : ¬ Plain errorTextLimit text) :
    failure.farewell = none := by
  unfold Failure.farewell packet?
  rw [hreply, Option.bind_some]
  split
  · rename_i datagram hpacket
    exact absurd (packet_error_iff.1 ⟨datagram, hpacket⟩) h
  · rfl

theorem Overlong.farewell {failure : Failure} (h : Overlong failure) : failure.farewell = none := by
  obtain ⟨name, rfl, hlong⟩ := h
  refine farewell_of_not_plain rfl fun hplain => ?_
  have hsize := hplain.size
  rw [size_outside] at hsize
  simp only [quotableLimit] at hlong
  simp only [errorTextLimit, maxPacketSize, headerSize, blockSize] at hsize
  omega

/-- A directory gives reasons that can be told, unless it refuses a long name. -/
theorem Storage.Directory.storage_frank (d : Directory) (faults : Faults) :
    (d.storage faults).Frank Overlong where
  create name fs refusal fs' nonzero h := by
    rcases storage_create_refusal h with hplain | rfl
    · exact .inl (Failure.tellable_of_text rfl (hplain.mono (by decide)))
    · by_cases hlong : quotableLimit < name.utf8ByteSize
      · exact .inr ⟨name, rfl, hlong⟩
      · exact .inl (Failure.tellable_of_text rfl (plain_outside nonzero (Nat.le_of_not_lt hlong)))
  write file bytes fs fault fs' h :=
    .inl (Failure.tellable_of_text rfl ((storage_writeAll_brief h).mono (by decide)))
  flush file fs fault fs' h :=
    .inl (Failure.tellable_of_text rfl ((storage_flush_brief h).mono (by decide)))

/-! ### Sources that say too much

The text of such a failure is the reader's own, and nothing is known of it. -/

/-- A source has failed, and its words fit no packet. -/
def Unspeakable (failure : Failure) : Prop :=
  ∃ fault, failure = .storage fault ∧ ¬ Plain errorTextLimit fault.message

theorem Unspeakable.farewell {failure : Failure} (h : Unspeakable failure) :
    failure.farewell = none := by
  obtain ⟨fault, rfl, hlong⟩ := h
  exact farewell_of_not_plain rfl hlong

theorem Upload.Speaks.tellableUnless {failure : Failure} (h : Upload.Speaks failure) :
    failure.TellableUnless Unspeakable := by
  rcases h with htellable | ⟨fault, rfl⟩
  · exact .inl htellable
  · by_cases hplain : Plain errorTextLimit fault.message
    · exact .inl (Failure.tellable_of_text rfl hplain)
    · exact .inr ⟨fault, rfl, hplain⟩

/-! ### Transfers

Both kinds of exceptions are stated on the failure, so they are the same for every history that ends
with it. -/

/-- Every failure of a transfer that has something to tell is told, with the last datagram and
with no other ERROR, unless its text fits no packet; and nothing else is told. -/
theorem failures_are_told (settings : Settings) (inputs : List Input)
    (result : Except Failure Summary) (log : Log) :
    (∀ (d : Directory) (faults : Faults) (connected : Bool) (request : Bytes) (fs fs' : FileSystem),
      request.length ≤ receiveLimit →
      (Reception.machine (d.storage faults)).History
        (Reception.start (d.storage faults) connected request settings fs) inputs
          (.ended result, fs') log →
      TellsUnless Overlong result log.sent) ∧
    (∀ (filename : String) (source : Source) (size : Option Nat),
      Upload.machine.History (Upload.start filename source size settings) inputs (.ended result)
        log →
      TellsUnless Unspeakable result log.sent) := by
  constructor
  · intro d faults connected request fs fs' hrequest h
    cases Reception.history_tells (d.storage_frank faults) connected hrequest settings fs h with
    | ended told speaks => exact told.tellsUnless speaks fun _ hlong => hlong.farewell
  · intro filename source size h
    cases Upload.history_tells filename source size settings h with
    | ended told speaks =>
      exact told.tellsUnless (fun failure hfailure => (speaks failure hfailure).tellableUnless)
        fun _ hlong => hlong.farewell

def fullDisk : Faults := { write := fun _ _ _ => some (⟨28⟩, 0) }

set_option maxRecDepth 20000 in
/-- A name that leads out of a directory is refused, a full disk is reported, and an upload that is
stopped says so. -/
theorem three_farewells :
    ((Reception.machine (Directory.storage ⟨"root", []⟩)).History
        (Reception.start (Directory.storage ⟨"root", []⟩) true [0, 2, 47, 97, 0, 111, 0] {} {})
        [.verdict (.ok ())]
        (.ended (.error (.rejected .accessViolation
          "access violation: '/a' is outside the storage root")), {})
        ⟨#[(Message.error .accessViolation
          "access violation: '/a' is outside the storage root").form], #[]⟩ ∧
      TellsUnless Overlong
        (.error (.rejected .accessViolation "access violation: '/a' is outside the storage root"))
        #[(Message.error .accessViolation
          "access violation: '/a' is outside the storage root").form]) ∧
    (∃ fs', (Reception.machine (Directory.storage ⟨"", []⟩ fullDisk)).History
        (Reception.start (Directory.storage ⟨"", []⟩ fullDisk) true [0, 2, 97, 0, 111, 0] {} {})
        [.verdict (.ok ()), .arrival (.datagram [0, 3, 0, 1, 7]), .verdict (.ok ())]
        (.ended (.error (.rejected .diskFull "No space left on device (os error 28)")), fs')
        ⟨#[[0, 4, 0, 0], (Message.error .diskFull "No space left on device (os error 28)").form],
          #[]⟩ ∧
      TellsUnless Overlong
        (.error (.rejected .diskFull "No space left on device (os error 28)"))
        #[[0, 4, 0, 0], (Message.error .diskFull "No space left on device (os error 28)").form]) ∧
    (Upload.machine.History (Upload.start "a" (Source.ofBytes []) none { mode := "o" })
        [.verdict (.ok ()), .arrival .stopped, .verdict (.ok ())] (.ended (.error .cancelled))
        ⟨#[[0, 2, 97, 0, 111, 0], (Message.error .notDefined "transfer cancelled").form], #[]⟩ ∧
      TellsUnless Unspeakable (.error .cancelled)
        #[[0, 2, 97, 0, 111, 0], (Message.error .notDefined "transfer cancelled").form]) := by
  have hrefused : (Reception.machine (Directory.storage ⟨"root", []⟩)).History
      (Reception.start (Directory.storage ⟨"root", []⟩) true [0, 2, 47, 97, 0, 111, 0] {} {})
      [.verdict (.ok ())]
      (.ended (.error (.rejected .accessViolation
        "access violation: '/a' is outside the storage root")), {})
      ⟨#[(Message.error .accessViolation
        "access violation: '/a' is outside the storage root").form], #[]⟩ :=
    .verdict (.ok ()) .start rfl
  have hfull : (Reception.machine (Directory.storage ⟨"", []⟩ fullDisk)).History
      (Reception.start (Directory.storage ⟨"", []⟩ fullDisk) true [0, 2, 97, 0, 111, 0] {} {})
      [.verdict (.ok ()), .arrival (.datagram [0, 3, 0, 1, 7]), .verdict (.ok ())]
      (.ended (.error (.rejected .diskFull "No space left on device (os error 28)")), _)
      ⟨#[[0, 4, 0, 0], (Message.error .diskFull "No space left on device (os error 28)").form],
        #[]⟩ :=
    .verdict (.ok ()) (.arrival (.datagram [0, 3, 0, 1, 7]) (.verdict (.ok ()) .start rfl) rfl) rfl
  have hstopped : Upload.machine.History
      (Upload.start "a" (Source.ofBytes []) none { mode := "o" })
      [.verdict (.ok ()), .arrival .stopped, .verdict (.ok ())] (.ended (.error .cancelled))
      ⟨#[[0, 2, 97, 0, 111, 0], (Message.error .notDefined "transfer cancelled").form], #[]⟩ :=
    .verdict (.ok ()) (.arrival .stopped (.verdict (.ok ()) .start rfl) rfl) rfl
  exact ⟨⟨hrefused, (failures_are_told _ _ _ _).1 _ _ _ _ _ _ (by decide) hrefused⟩,
    ⟨_, hfull, (failures_are_told _ _ _ _).1 _ _ _ _ _ _ (by decide) hfull⟩,
    ⟨hstopped, (failures_are_told _ _ _ _).2 _ _ _ hstopped⟩⟩

/-! ### A refusal that nobody hears of -/

theorem resolve_of_absolute (d : Directory) {name : String} (fs : FileSystem)
    (absolute : Path.isAbsolute name) : d.resolve name fs = .error (Directory.outside name) := by
  have hempty : ¬ name.isEmpty := by
    intro hempty
    rw [String.isEmpty_iff.1 hempty] at absolute
    cases absolute
  have hdescending : ¬ Path.isDescending name := by simp [Path.isDescending, absolute]
  unfold Directory.resolve Directory.resolveVia
  rw [if_neg hempty, if_neg hdescending]

/-- The request of a long name that leads out of the directory ends a reception at once, and
nothing is sent. -/
theorem start_of_long_name (d : Directory) {name mode : String} (settings : Settings)
    (fs : FileSystem) (clean : ∀ field ∈ (Message.writeRequest name mode).fields, field.Clean)
    (absolute : Path.isAbsolute name) (long : quotableLimit < name.utf8ByteSize) :
    Reception.start d.storage true (Message.writeRequest name mode).form settings fs =
      (.ended (.error (.rejected .accessViolation (Directory.outside name).message)), fs) := by
  have hcreate : d.storage.create name fs = (.error (Directory.outside name), fs) := by
    simp only [Directory.storage, Directory.create, resolve_of_absolute d fs absolute]
  have hfarewell := Overlong.farewell ⟨name, rfl, long⟩
  have hstep : Session.step d.storage {} (.writeRequest name mode) fs =
      ({ phase := .failed },
        .error (.rejected .accessViolation (Directory.outside name).message), fs) := by
    simp only [Session.step, Session.advance, Session.accept, hcreate]
    rfl
  have hfits : (Message.writeRequest name mode).Fits := by rintro _ _ ⟨⟩
  unfold Reception.start
  rw [if_pos rfl, decode_form clean hfits]
  simp only [Reception.feed, hstep, Reception.fail, hfarewell, Reception.abandon]

def longName : String := String.ofList ('/' :: List.replicate quotableLimit 'a')

theorem encode_longName : Utf8.encode longName = 47 :: List.replicate quotableLimit 97 := by
  have ha : String.utf8EncodeChar 'a' = [97] := by decide
  have hslash : String.utf8EncodeChar '/' = [47] := by decide
  unfold longName
  rw [Utf8.encode_ofList, List.flatMap_cons, List.flatMap_replicate, hslash, ha]
  simp

/-- A peer that asks for a long name is refused it and is told nothing. -/
theorem long_name_is_refused_in_silence :
    (Message.writeRequest longName "octet").form.length ≤ receiveLimit ∧
      (Reception.machine (Directory.storage ⟨"root", []⟩)).History
        (Reception.start (Directory.storage ⟨"root", []⟩) true
          (Message.writeRequest longName "octet").form {} {}) []
        (.ended (.error (.rejected .accessViolation (Directory.outside longName).message)), {})
        ⟨#[], #[]⟩ ∧
      (Failure.rejected .accessViolation (Directory.outside longName).message).reply =
        some (.error .accessViolation (Directory.outside longName).message) := by
  have hlong : quotableLimit < longName.utf8ByteSize := by
    rw [← Utf8.length_encode, encode_longName, List.length_cons, List.length_replicate]
    omega
  have hclean : ∀ field ∈ (Message.writeRequest longName "octet").fields, field.Clean := by
    simp only [Message.fields, List.forall_mem_cons, Field.Clean, encode_longName]
    exact ⟨trivial, by simp, by decide, List.forall_mem_nil _⟩
  have habsolute : Path.isAbsolute longName := by
    simp [Path.isAbsolute, longName]
  refine ⟨?_, ?_, rfl⟩
  · have hmode : (Utf8.encode "octet").length = 5 := by decide
    simp only [Message.form, Message.fields, List.map_cons, List.map_nil, List.flatten_cons,
      List.flatten_nil, Field.form, List.length_append, List.length_nil, List.length_cons,
      List.length_replicate, length_wordBytes, encode_longName, hmode]
    decide
  · rw [← start_of_long_name ⟨"root", []⟩ {} {} hclean habsolute hlong]
    exact .start

end TftpUpload
