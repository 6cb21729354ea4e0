/-
  TftpUpload/Wire/Message.lean
  ============================
  **The five packets of a write transfer.**

  A transfer is opened by a request, carried by DATA packets of at most 512
  bytes, each answered by an ACK of the same block number, and broken off by an
  ERROR.  Opcodes and error codes are the words 1 to 5 and 0 to 7; both tables
  are read by `ofWord?` and written by `word`, and each undoes the other.
-/
import TftpUpload.Text.Utf8

namespace TftpUpload.Wire

/-! ### Sizes -/

/-- Bytes of a full block.  A shorter block ends its transfer. -/
def blockSize : Nat := 512

def headerSize : Nat := 4

/-- The longest packet that is ever sent or accepted. -/
def maxPacketSize : Nat := headerSize + blockSize

/-! ### Opcodes

The words are those of the wire, and nothing else in this library has to know them. -/

inductive Opcode where
  | readRequest
  | writeRequest
  | data
  | ack
  | error
deriving DecidableEq, Repr

namespace Opcode

def word : Opcode → UInt16
  | readRequest => 1
  | writeRequest => 2
  | data => 3
  | ack => 4
  | error => 5

def ofWord? (w : UInt16) : Option Opcode :=
  match w.toNat with
  | 1 => some readRequest
  | 2 => some writeRequest
  | 3 => some data
  | 4 => some ack
  | 5 => some error
  | _ => none

/-- The name by which texts speak of the kind. -/
def name : Opcode → String
  | readRequest => "RRQ"
  | writeRequest => "WRQ"
  | data => "DATA"
  | ack => "ACK"
  | error => "ERROR"

@[simp]
theorem ofWord?_word (op : Opcode) : ofWord? op.word = some op := by
  cases op <;> rfl

theorem word_of_ofWord? {w : UInt16} {op : Opcode} (h : ofWord? w = some op) : op.word = w := by
  unfold ofWord? at h
  apply UInt16.toNat_inj.1
  split at h <;> cases h <;> simp_all [word]

theorem ofWord?_eq_none_iff {w : UInt16} : ofWord? w = none ↔ w.toNat < 1 ∨ 5 < w.toNat := by
  unfold ofWord?
  split
  case h_6 => grind
  all_goals simp_all

end Opcode

/-! ### Error codes -/

/-- The standard reasons an ERROR packet can give. -/
inductive ErrorCode where
  | notDefined
  | fileNotFound
  | accessViolation
  | diskFull
  | illegalOperation
  | unknownTransferId
  | fileAlreadyExists
  | noSuchUser
deriving DecidableEq, Repr

namespace ErrorCode

def word : ErrorCode → UInt16
  | notDefined => 0
  | fileNotFound => 1
  | accessViolation => 2
  | diskFull => 3
  | illegalOperation => 4
  | unknownTransferId => 5
  | fileAlreadyExists => 6
  | noSuchUser => 7

def ofWord? (w : UInt16) : Option ErrorCode :=
  match w.toNat with
  | 0 => some notDefined
  | 1 => some fileNotFound
  | 2 => some accessViolation
  | 3 => some diskFull
  | 4 => some illegalOperation
  | 5 => some unknownTransferId
  | 6 => some fileAlreadyExists
  | 7 => some noSuchUser
  | _ => none

/-- The text an ERROR carries when its sender has nothing more to say. -/
def defaultText : ErrorCode → String
  | notDefined => "Undefined error"
  | fileNotFound => "File not found"
  | accessViolation => "Access violation"
  | diskFull => "Disk full or allocation exceeded"
  | illegalOperation => "Illegal TFTP operation"
  | unknownTransferId => "Unknown transfer ID"
  | fileAlreadyExists => "File already exists"
  | noSuchUser => "No such user"

/-- The code as texts show it: its meaning, then its number in brackets. -/
def label (code : ErrorCode) : String :=
  code.defaultText ++ " (" ++ toString code.word.toNat ++ ")"

@[simp]
theorem ofWord?_word (code : ErrorCode) : ofWord? code.word = some code := by
  cases code <;> rfl

theorem word_of_ofWord? {w : UInt16} {code : ErrorCode} (h : ofWord? w = some code) :
    code.word = w := by
  unfold ofWord? at h
  apply UInt16.toNat_inj.1
  split at h <;> cases h <;> simp_all [word]

theorem ofWord?_eq_none_iff {w : UInt16} : ofWord? w = none ↔ 7 < w.toNat := by
  unfold ofWord?
  split
  case h_9 => grind
  all_goals simp_all

end ErrorCode

/-! ### Messages -/

inductive Message where
  | readRequest (filename mode : String)
  | writeRequest (filename mode : String)
  | data (block : UInt16) (payload : Bytes)
  | ack (block : UInt16)
  | error (code : ErrorCode) (text : String)
deriving DecidableEq, Repr

namespace Message

def opcode : Message → Opcode
  | readRequest .. => .readRequest
  | writeRequest .. => .writeRequest
  | data .. => .data
  | ack _ => .ack
  | error .. => .error

/-- The last DATA packet of a transfer is the one that is not full. -/
def isTerminal : Message → Bool
  | data _ payload => payload.length < blockSize
  | _ => false

/-- An ERROR that says no more than its code. -/
def plainError (code : ErrorCode) : Message := error code code.defaultText

private def describeRequest (op : Opcode) (filename mode : String) : String :=
  op.name ++ " '" ++ filename ++ "' (" ++ mode ++ ")"

/-- The message in one line, for people. -/
def describe : Message → String
  | readRequest filename mode => describeRequest .readRequest filename mode
  | writeRequest filename mode => describeRequest .writeRequest filename mode
  | data block payload =>
    "DATA #" ++ toString block.toNat ++ " (" ++ toString payload.length ++ " bytes)"
  | ack block => "ACK #" ++ toString block.toNat
  | error code text => "ERROR " ++ code.label ++ ": " ++ text

end Message

end TftpUpload.Wire
