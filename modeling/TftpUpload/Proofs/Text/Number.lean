/-
  TftpUpload/Proofs/Text/Number.lean
  ==================================
  **Which texts spell a number, and what is wrong with the others.**

  A number is spelled by decimal digits, with any zeros in front of them and one
  plus sign in front of all (`Spells`).  A text that spells none up to the limit
  has a first fault, from left to right (`Misspells`): the digits in front of a
  stray character do not exceed the limit, or else they would be at fault
  themselves.  Every text is in one of the two relations (`spells_or_misspells`),
  and reading gives a number or a fault accordingly (`readNatural_of_spells`,
  `readNatural_of_misspells`).
-/
import Mathlib.Data.List.TakeWhile
import TftpUpload.Text.Number

namespace TftpUpload.Text

variable {limit n : Nat} {text ds rest : List Char} {c : Char} {reason : NumberError}

/-! ### Digits -/

def Digits (ds : List Char) : Prop := ∀ c ∈ ds, c.isDigit = true

theorem isDigit_iff : c.isDigit = true ↔ '0' ≤ c ∧ c ≤ '9' := by
  simp [Char.isDigit, Char.le_def]

theorem digitValue?_digit (h : c.isDigit = true) :
    digitValue? 10 c = some (c.toNat - '0'.toNat) := by
  have hlast : c.toNat ≤ '9'.toNat := (Char.isDigit_iff_toNat.1 h).2
  have hlt : c.toNat - '0'.toNat < 10 := Nat.lt_succ_of_le (Nat.sub_le_sub_right hlast _)
  rw [digitValue?, if_pos (isDigit_iff.1 h), Option.filter_some, if_pos (by simpa using hlt)]

theorem digitValue?_stray (h : c.isDigit = false) : digitValue? 10 c = none := by
  have hrange : ¬ ('0' ≤ c ∧ c ≤ '9') := by
    rw [← isDigit_iff, h]
    exact Bool.false_ne_true
  simp only [digitValue?, if_neg hrange]
  split
  · simp
  · split <;> simp

theorem ofDigitChars_le (ds : List Char) (value : Nat) :
    value ≤ Nat.ofDigitChars 10 ds value := by
  induction ds generalizing value with
  | nil => simp
  | cons c ds ih =>
    rw [Nat.ofDigitChars_cons]
    exact Nat.le_trans (by omega) (ih _)

/-- Digits are read one after another as long as the number does not exceed the limit. -/
theorem readDigits_append {value : Nat} (hds : Digits ds)
    (h : Nat.ofDigitChars 10 ds value ≤ limit) (rest : List Char) :
    readDigits limit value (ds ++ rest) =
      readDigits limit (Nat.ofDigitChars 10 ds value) rest := by
  induction ds generalizing value with
  | nil => simp
  | cons c ds ih =>
    rw [Digits, List.forall_mem_cons] at hds
    rw [Nat.ofDigitChars_cons] at h ⊢
    have hle := ofDigitChars_le ds (10 * value + (c.toNat - '0'.toNat))
    rw [List.cons_append, readDigits, digitValue?_digit hds.1]
    dsimp only
    rw [Nat.mul_comm value, if_neg (by omega), ih hds.2 h]

theorem readDigits_excess {value : Nat} (hds : Digits ds) (hvalue : value ≤ limit)
    (h : limit < Nat.ofDigitChars 10 ds value) (rest : List Char) :
    readDigits limit value (ds ++ rest) = .error .tooLarge := by
  induction ds generalizing value with
  | nil =>
    rw [Nat.ofDigitChars_nil] at h
    omega
  | cons c ds ih =>
    rw [Digits, List.forall_mem_cons] at hds
    rw [Nat.ofDigitChars_cons] at h
    rw [List.cons_append, readDigits, digitValue?_digit hds.1]
    dsimp only
    split
    · rfl
    · rename_i hle
      rw [Nat.mul_comm value] at hle ⊢
      exact ih hds.2 (by omega) h

/-- A text is made of digits, or there is a first character that is none. -/
theorem digits_or_stray (text : List Char) :
    Digits text ∨ ∃ ds c rest, text = ds ++ c :: rest ∧ Digits ds ∧ c.isDigit = false := by
  have hds : Digits (text.takeWhile Char.isDigit) := fun c hc => List.mem_takeWhile_imp hc
  have hsplit := List.takeWhile_append_dropWhile (p := Char.isDigit) (l := text)
  cases hdrop : text.dropWhile Char.isDigit with
  | nil =>
    rw [hdrop, List.append_nil] at hsplit
    exact .inl (hsplit ▸ hds)
  | cons c rest =>
    have hc := List.head?_dropWhile_not Char.isDigit text
    rw [hdrop] at hc
    rw [hdrop] at hsplit
    exact .inr ⟨_, c, rest, hsplit.symm, hds, by simpa using hc⟩

/-! ### Numbers and faults

A text is looked at from left to right.  What is spelled by the digits in front of a stray character
has to be within the limit: otherwise a digit among them is the first fault. -/

def unsigned : List Char → List Char
  | '+' :: rest => rest
  | text => text

/-- Decimal digits, behind any zeros and at most one plus sign, spell the number. -/
structure Spells (text : List Char) (n : Nat) : Prop where
  nonempty : unsigned text ≠ []
  digits : Digits (unsigned text)
  value : Nat.ofDigitChars 10 (unsigned text) 0 = n

theorem Spells.mem_cases (h : Spells text n) (hc : c ∈ text) : c = '+' ∨ c.isDigit = true := by
  have hdigits := h.digits
  unfold unsigned at hdigits
  split at hdigits
  · rcases List.mem_cons.1 hc with hsign | hmem
    · exact .inl hsign
    · exact .inr (hdigits c hmem)
  · exact .inr (hdigits c hc)

/-- The first fault of a text that spells no number up to the limit. -/
inductive Misspells (limit : Nat) : List Char → NumberError → Prop where
  | empty : Misspells limit [] .empty
  | sign : Misspells limit ['+'] .invalidDigit
  | stray {text ds rest : List Char} {c : Char} (split : unsigned text = ds ++ c :: rest)
      (digits : Digits ds) (within : Nat.ofDigitChars 10 ds 0 ≤ limit)
      (stray : c.isDigit = false) : Misspells limit text .invalidDigit
  | excess {text ds rest : List Char} (split : unsigned text = ds ++ rest) (digits : Digits ds)
      (excess : limit < Nat.ofDigitChars 10 ds 0) : Misspells limit text .tooLarge

theorem readNatural_unsigned (h : unsigned text ≠ []) :
    readNatural limit text = readDigits limit 0 (unsigned text) := by
  unfold unsigned at h ⊢
  split at h
  · rename_i rest
    cases rest with
    | nil => exact absurd rfl h
    | cons c rest => rfl
  · rename_i hsign
    rw [readNatural]
    · exact h
    · rintro rfl
      exact hsign [] rfl
    · exact hsign

theorem readNatural_of_spells (h : Spells text n) (hn : n ≤ limit) :
    readNatural limit text = .ok n := by
  have hread := readDigits_append h.digits (h.value.symm ▸ hn) []
  rw [List.append_nil, h.value] at hread
  rw [readNatural_unsigned h.nonempty, hread, readDigits]

theorem readNatural_of_misspells (h : Misspells limit text reason) :
    readNatural limit text = .error reason := by
  cases h with
  | empty => rfl
  | sign => rfl
  | @stray _ ds rest c split digits within stray =>
    rw [readNatural_unsigned (by simp [split]), split, readDigits_append digits within, readDigits,
      digitValue?_stray stray]
  | @excess _ ds rest split digits excess =>
    have hds : ds ≠ [] := by
      rintro rfl
      simp at excess
    rw [readNatural_unsigned (by simp [split, hds]), split]
    exact readDigits_excess digits (Nat.zero_le limit) excess rest

/-- Every text spells a number or has a fault. -/
theorem spells_or_misspells (limit : Nat) (text : List Char) :
    (∃ n ≤ limit, Spells text n) ∨ ∃ reason, Misspells limit text reason := by
  by_cases hempty : unsigned text = []
  · right
    unfold unsigned at hempty
    split at hempty
    · exact hempty ▸ ⟨_, .sign⟩
    · exact hempty ▸ ⟨_, .empty⟩
  · rcases digits_or_stray (unsigned text) with hds | ⟨ds, c, rest, hsplit, hds, hc⟩
    · rcases Nat.lt_or_ge limit (Nat.ofDigitChars 10 (unsigned text) 0) with hlt | hge
      · exact .inr ⟨_, .excess (List.append_nil _).symm hds hlt⟩
      · exact .inl ⟨_, hge, hempty, hds, rfl⟩
    · right
      rcases Nat.lt_or_ge limit (Nat.ofDigitChars 10 ds 0) with hlt | hge
      · exact ⟨_, .excess hsplit hds hlt⟩
      · exact ⟨_, .stray hsplit hds hge hc⟩

/-- Where a condition for a result or one for an error always holds, an answer that is as they say
comes about in no other way. -/
theorem answers_iff {ε α : Type} {answer : Except ε α} {P : α → Prop} {Q : ε → Prop}
    (ok : ∀ a, P a → answer = .ok a) (error : ∀ e, Q e → answer = .error e)
    (total : (∃ a, P a) ∨ ∃ e, Q e) :
    (∀ a, answer = .ok a ↔ P a) ∧ ∀ e, answer = .error e ↔ Q e := by
  refine ⟨fun a => ⟨fun h => ?_, ok a⟩, fun e => ⟨fun h => ?_, error e⟩⟩
  · rcases total with ⟨a', ha⟩ | ⟨e, he⟩
    · rw [ok a' ha] at h
      cases h
      exact ha
    · rw [error e he] at h
      cases h
  · rcases total with ⟨a, ha⟩ | ⟨e', he⟩
    · rw [ok a ha] at h
      cases h
    · rw [error e' he] at h
      cases h
      exact he

end TftpUpload.Text
