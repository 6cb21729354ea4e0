/-
  TftpUpload/Text/ByteCount.lean
  ==============================
  **Sizes for people.**

  Fewer than 1024 bytes are written as they are.  Other sizes are written in the
  largest of KB, MB, GB and TB that gives at least 1, with two decimals; a
  number just between two such decimals goes to the even one.  Sizes are held in
  53 significant bits, so a size beyond 2^53 is first rounded to that many,
  likewise to even.
-/

namespace TftpUpload.Text.ByteCount

/-! ### Rounding

There are two roundings, to the bits that are held of a size and to hundredths of a unit, and both
are this one. -/

/-- The quotient rounded to the nearest whole number, and to the even one of two. -/
def roundDiv (num den : Nat) : Nat :=
  let q := num / den
  let twice := 2 * (num % den)
  if twice < den then q
  else if den < twice then q + 1
  else if q % 2 = 0 then q else q + 1

/-- Rounding is off by at most half. -/
theorem roundDiv_bounds (num den : Nat) (h : 0 < den) :
    2 * num ≤ 2 * (roundDiv num den * den) + den ∧
      2 * (roundDiv num den * den) ≤ 2 * num + den := by
  have hdiv := Nat.div_add_mod num den
  have hmod := Nat.mod_lt num h
  have hcomm : den * (num / den) = num / den * den := Nat.mul_comm _ _
  simp only [roundDiv]
  split
  · omega
  · have hsucc : (num / den + 1) * den = num / den * den + den := by
      rw [Nat.add_mul, Nat.one_mul]
    split
    · omega
    · split <;> omega

def precision : Nat := 53

/-- A size with no more significant bits than are held. -/
def held (n : Nat) : Nat :=
  let step := Nat.pow 2 (n.log2 + 1 - precision)
  roundDiv n step * step

/-! ### Units -/

def units : List String := ["KB", "MB", "GB", "TB"]

def hundredths (n : Nat) : String :=
  let cents := n % 100
  toString (n / 100) ++ "." ++ (if cents < 10 then "0" else "") ++ toString cents

/-- A size over `scale`, in the first of the units that it does not exceed 1024 times. -/
def inUnits (n : Nat) : Nat → List String → String
  | _, [] => ""
  | scale, [last] => hundredths (roundDiv (100 * n) scale) ++ " " ++ last
  | scale, unit :: larger =>
    if n < 1024 * scale then hundredths (roundDiv (100 * n) scale) ++ " " ++ unit
    else inUnits n (1024 * scale) larger

def text (n : Nat) : String :=
  if n < 1024 then toString n ++ " B" else inUnits (held n) 1024 units

end TftpUpload.Text.ByteCount
