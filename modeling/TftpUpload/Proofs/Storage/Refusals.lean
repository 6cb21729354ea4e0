/-
  TftpUpload/Proofs/Storage/Refusals.lean
  =======================================
  **The reasons that a directory gives.**

  An error number is told in a few words, whichever it is (`Errno.brief`).  All
  other reasons of a directory are as short, except that it quotes a name that
  leads out of it (`create_refusal`).  This holds of a disk with faults of its own,
  too (`storage_create_refusal`); on one without, a write never fails
  (`writeAll_eq`).
-/
import Mathlib.Tactic.SplitIfs
import TftpUpload.Proofs.Text.Plain
import TftpUpload.Storage.Directory

namespace TftpUpload

open Text

/-! ### Faults in few words

A fault is told in at most a hundred bytes.  The meanings are looked up in a table, so this is read
off the table and off the length of a number. -/

def Errno.Brief (e : Errno) : Prop := Plain 100 e.message

def Fault.Brief (fault : Fault) : Prop := Plain 100 fault.message

instance (e : Errno) : Decidable e.Brief := inferInstanceAs (Decidable (Plain 100 _))

instance (fault : Fault) : Decidable fault.Brief := inferInstanceAs (Decidable (Plain 100 _))

/-- Whatever an error number means is said in few words, and also that it means nothing. -/
theorem Errno.brief (e : Errno) : e.Brief := by
  have htable : ∀ entry ∈ meanings, Plain 60 entry.2 := by decide +kernel
  have hnumber : Plain (1 + 10) (toString e.number) := by
    have hlow := e.number.le_toInt
    have hhigh := e.number.toInt_lt
    exact plain_toString_int e.number.toInt (by decide) (by omega)
  have hmeaning : Plain 60 e.meaning := by
    unfold meaning
    cases hlookup : meanings.lookup e.number with
    | none => exact ((by decide : Plain 14 "Unknown error ").append hnumber).mono (by omega)
    | some text =>
      obtain ⟨before, after, htable', -⟩ := List.lookup_eq_some_iff.1 hlookup
      refine htable (e.number, text) ?_
      rw [htable']
      exact List.mem_append_right _ List.mem_cons_self
  have hmessage := ((hmeaning.append (by decide : Plain 11 " (os error ")).append hnumber).append
    (by decide : Plain 1 ")")
  exact hmessage.mono (by omega)

theorem Fault.brief_os (e : Errno) : (Fault.os e).Brief := e.brief

namespace FileSystem

theorem checkPath_brief {path : String} {fault : Fault} (h : checkPath path = .error fault) :
    fault.Brief := by
  unfold checkPath at h
  split_ifs at h <;> cases h
  · decide
  · exact Fault.brief_os _

theorem approach_brief {fs : FileSystem} {last : LastLink} {here : Location} {path : String}
    {fault : Fault} (h : fs.approach last here path = .error fault) : fault.Brief := by
  unfold approach at h
  split at h
  · rename_i hcheck
    cases h
    exact checkPath_brief hcheck
  · split_ifs at h
    · cases h
      exact Fault.brief_os _
    · cases hfollow : fs.follow last here path with
      | error e =>
        rw [hfollow] at h
        cases h
        exact e.brief
      | ok spot =>
        rw [hfollow] at h
        cases h

theorem locate_brief {fs : FileSystem} {here : Location} {path : String} {fault : Fault}
    (h : fs.locate here path = .error fault) : fault.Brief := by
  unfold locate at h
  split at h
  · rename_i hcheck
    cases h
    exact checkPath_brief hcheck
  · dsimp only at h
    generalize (if Path.isAbsolute path then [] else here) = start at h
    split_ifs at h
    · cases htrace : fs.trace linkLimit start (Path.names path) with
      | error e =>
        rw [htrace] at h
        cases h
        exact e.brief
      | ok l =>
        rw [htrace] at h
        cases h
    · cases h
      exact Fault.brief_os _

theorem create_brief {fs fs' : FileSystem} {here : Location} {path : String} {fault : Fault}
    (h : fs.create here path = (.error fault, fs')) : fault.Brief := by
  unfold create at h
  split at h
  · rename_i happroach
    cases h
    exact approach_brief happroach
  · split at h <;> cases h
    exact Fault.brief_os _

end FileSystem

/-! ### Directories -/

namespace Storage.Directory

/-- The text of the refusal is short, or it quotes the name. -/
def Reasonable (name : String) (refusal : Refusal) : Prop :=
  Plain 200 refusal.message ∨ refusal = outside name

theorem reasonable_fault {name : String} {fault : Fault} (h : fault.Brief) :
    Reasonable name (.fault fault) :=
  .inl (Plain.mono h (by omega))

theorem resolve_refusal {d : Directory} {name : String} {fs : FileSystem} {refusal : Refusal}
    (h : d.resolve name fs = .error refusal) : Reasonable name refusal := by
  unfold resolve resolveVia at h
  split at h
  · cases h
    exact .inl (by decide)
  · split at h
    · dsimp only at h
      split at h
      · rename_i hconfine
        cases h
        unfold confine at hconfine
        split at hconfine
        · split at hconfine
          · rename_i hlocate
            cases hconfine
            exact reasonable_fault (FileSystem.locate_brief hlocate)
          · split at hconfine <;> cases hconfine
            exact .inr rfl
        · cases hconfine
      · cases h
    · cases h
      exact .inr rfl

/-- Why a file is not created. -/
theorem create_refusal {d : Directory} {name : String} {fs fs' : FileSystem} {refusal : Refusal}
    (h : d.create name fs = (.error refusal, fs')) : Reasonable name refusal := by
  unfold create at h
  split at h
  · rename_i hresolve
    cases h
    exact resolve_refusal hresolve
  · split at h
    · cases h
    · rename_i hcreate
      cases h
      exact reasonable_fault (FileSystem.create_brief hcreate)

/-! ### Disks with faults

A fault that the disk adds is an error number like any other.  So what a storage gives as its reason
is short, or quotes the name, however its disk fails. -/

theorem storage_create_refusal {d : Directory} {faults : Faults} {name : String}
    {fs fs' : FileSystem} {refusal : Refusal}
    (h : (d.storage faults).create name fs = (.error refusal, fs')) : Reasonable name refusal := by
  simp only [storage] at h
  split at h
  · cases h
    exact reasonable_fault (Fault.brief_os _)
  · exact create_refusal h

theorem storage_write_brief {d : Directory} {faults : Faults} {file : OpenFile} {bytes : Bytes}
    {fs fs' : FileSystem} {fault : Fault}
    (h : (d.storage faults).write file bytes fs = (.error fault, fs')) : fault.Brief := by
  simp only [storage] at h
  split at h <;> cases h
  exact Fault.brief_os _

theorem storage_writeAll_brief {d : Directory} {faults : Faults} {file : OpenFile} {bytes : Bytes}
    {fs fs' : FileSystem} {fault : Fault}
    (h : (d.storage faults).writeAll file bytes fs = (.error fault, fs')) : fault.Brief := by
  unfold writeAll at h
  generalize bytes.length = turns at h
  induction turns generalizing file bytes fs with
  | zero => cases h
  | succ turns ih =>
    unfold writeWithin at h
    split at h
    · cases h
    · split at h
      · rename_i hwrite
        cases h
        exact storage_write_brief hwrite
      · split at h
        · cases h
          decide
        · exact ih h

theorem storage_flush_brief {d : Directory} {faults : Faults} {file : OpenFile}
    {fs fs' : FileSystem} {fault : Fault}
    (h : (d.storage faults).flush file fs = (.error fault, fs')) : fault.Brief := by
  simp only [storage] at h
  split at h <;> cases h
  exact Fault.brief_os _

/-- On a disk without faults all of some bytes are written at once. -/
theorem writeAll_eq (d : Directory) (file : OpenFile) (bytes : Bytes) (fs : FileSystem) :
    d.storage.writeAll file bytes fs =
      if bytes = [] then (.ok file, fs) else (.ok (fs.write file bytes).1, (fs.write file bytes).2)
    := by
  cases bytes with
  | nil => rfl
  | cons b rest =>
    have hlength : (b :: rest).length ≠ 0 := by simp
    simp only [Storage.writeAll, List.length_cons, Storage.writeWithin, storage]
    cases rest <;> simp [Storage.writeWithin]

end Storage.Directory

end TftpUpload
