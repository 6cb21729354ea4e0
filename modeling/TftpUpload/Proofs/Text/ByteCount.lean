/-
  TftpUpload/Proofs/Text/ByteCount.lean
  =====================================
  **The number and the unit that a size is shown with.**

  The unit is chosen by the size, and the number is rounded after that.  So the
  number is the size in its unit to the nearest hundredth (`Nearest`), it is at
  least 1.00, and in one unit a larger size shows no smaller number.  It is less
  than 1024.00 except just below the next unit, where rounding takes it up to
  1024.00 and leaves the unit as it is (`Label.eq_limit_iff`).

  A text shows at most one number and one unit (`Shows.unique`), so that all this
  is about the text itself.
-/
import Mathlib.Algebra.Group.Nat.Defs
import Mathlib.Data.List.Nodup
import TftpUpload.Text.ByteCount

namespace TftpUpload.Text.ByteCount

/-! ### The nearest number

The quotient is taken in floating point before it is rounded, and loses nothing there that the
rounding would show. -/

/-- `q` is `num / den` rounded to the nearest whole number, and to the even one of two. -/
structure Nearest (num den q : Nat) : Prop where
  below : 2 * num ≤ 2 * (q * den) + den
  above : 2 * (q * den) ≤ 2 * num + den
  even : 2 * num = 2 * (q * den) + den ∨ 2 * (q * den) = 2 * num + den → q % 2 = 0

variable {num num' den q q' : Nat}

theorem nearest_roundDiv (num : Nat) (h : 0 < den) : Nearest num den (roundDiv num den) := by
  obtain ⟨below, above⟩ := roundDiv_bounds num den h
  refine ⟨below, above, ?_⟩
  have hdiv := Nat.div_add_mod num den
  have hmod := Nat.mod_lt num h
  have hcomm : den * (num / den) = num / den * den := Nat.mul_comm _ _
  have hsucc : (num / den + 1) * den = num / den * den + den := Nat.succ_mul _ _
  simp only [roundDiv]
  split
  · omega
  · split
    · omega
    · split
      · omega
      · omega

/-- Rounding keeps the order: of two neighbours that are equally near only one is even. -/
theorem Nearest.le (h : Nearest num den q) (h' : Nearest num' den q') (hden : 0 < den)
    (hle : num ≤ num') : q ≤ q' := by
  by_contra hlt
  obtain ⟨d, rfl⟩ : ∃ d, q = q' + 1 + d := Nat.exists_eq_add_of_le (Nat.lt_of_not_le hlt)
  have hmul : (q' + 1 + d) * den = q' * den + den + d * den := by
    rw [Nat.add_mul, Nat.add_mul, Nat.one_mul]
  have below := h'.below
  have above := h.above
  have hd : d * den = 0 := by omega
  have hzero : d = 0 := (Nat.mul_eq_zero.1 hd).resolve_right (Nat.ne_of_gt hden)
  have even' := h'.even (.inl (by omega))
  have even := h.even (.inr (by omega))
  omega

/-- Up to 2^53 sizes are held as they are. -/
theorem held_eq {n : Nat} (h : n ≤ 2 ^ 53) : held n = n := by
  rcases Nat.lt_or_eq_of_le h with hlt | rfl
  · have hlog : n.log2 + 1 - precision = 0 := by
      rcases Nat.eq_zero_or_pos n with rfl | hpos
      · decide
      · have := (Nat.log2_lt (Nat.ne_of_gt hpos)).2 hlt
        rw [precision]
        omega
    simp [held, hlog, roundDiv, Nat.mod_one]
  · decide

/-! ### Numbers and units in a text -/

/-- The text shows a number of hundredths, with two decimals, and a unit. -/
def Shows (text : String) (cents : Nat) (unit : String) : Prop :=
  text = toString (cents / 100) ++ "." ++ toString (cents / 10 % 10) ++ toString (cents % 10) ++
    " " ++ unit

instance (text : String) (cents : Nat) (unit : String) : Decidable (Shows text cents unit) :=
  inferInstanceAs (Decidable (text = _))

theorem hundredths_eq (cents : Nat) : hundredths cents =
    toString (cents / 100) ++ "." ++ toString (cents / 10 % 10) ++ toString (cents % 10) := by
  have htenths : cents % 100 / 10 = cents / 10 % 10 := by omega
  have hlast : cents % 100 % 10 = cents % 10 := by omega
  simp only [hundredths]
  split
  · rename_i hlt
    have hzero : cents / 10 % 10 = 0 := by omega
    have hsame : cents % 100 = cents % 10 := by omega
    rw [hzero, hsame]
    rfl
  · rename_i hge
    rw [Nat.toString_eq_repr (n := cents % 100), Nat.repr_eq_repr_append_repr (by omega), htenths,
      hlast, String.append_empty, ← String.append_assoc]
    rfl

theorem shows_hundredths (cents : Nat) (unit : String) :
    Shows (hundredths cents ++ " " ++ unit) cents unit := by
  rw [Shows, hundredths_eq]

theorem toList_toString_of_lt {d : Nat} (h : d < 10) : (toString d).toList = [d.digitChar] := by
  rw [Nat.toString_eq_repr, Nat.repr_of_lt h, String.toList_singleton]

theorem Shows.toList {text unit : String} {cents : Nat} (h : Shows text cents unit) :
    text.toList = (toString (cents / 100)).toList ++ '.' :: (cents / 10 % 10).digitChar ::
      (cents % 10).digitChar :: ' ' :: unit.toList := by
  rw [h]
  simp only [String.toList_append, toList_toString_of_lt (Nat.mod_lt _ (by decide))]
  simp

/-- The digits in front of the point are the whole part. -/
theorem takeWhile_isDigit (n : Nat) (rest : List Char) :
    ((toString n).toList ++ '.' :: rest).takeWhile Char.isDigit = (toString n).toList := by
  have hdigits : ∀ c ∈ (toString n).toList, c.isDigit = true := by
    intro c hc
    rw [Nat.toString_eq_repr, Nat.toList_repr] at hc
    exact Nat.isDigit_of_mem_toDigits (by decide) (by decide) hc
  rw [List.takeWhile_append_of_pos hdigits, List.takeWhile_cons_of_neg (by decide), List.append_nil]

theorem toList_toString_inj {n m : Nat} (h : (toString n).toList = (toString m).toList) :
    n = m := by
  rw [Nat.toString_eq_repr, Nat.toString_eq_repr, Nat.toList_repr, Nat.toList_repr] at h
  calc n = Nat.ofDigitChars 10 (Nat.toDigits 10 n) 0 := Nat.ofDigitChars_ten_toDigits.symm
    _ = m := by rw [h, Nat.ofDigitChars_ten_toDigits]

theorem digitChar_inj {d d' : Nat} (hd : d < 10) (hd' : d' < 10) (h : d.digitChar = d'.digitChar) :
    d = d' := by
  have hnat := congrArg Char.toNat h
  rw [Nat.toNat_digitChar_of_lt_ten hd, Nat.toNat_digitChar_of_lt_ten hd'] at hnat
  exact Nat.add_left_cancel hnat

/-- A text shows at most one number and one unit. -/
theorem Shows.unique {text unit unit' : String} {cents cents' : Nat} (h : Shows text cents unit)
    (h' : Shows text cents' unit') : cents = cents' ∧ unit = unit' := by
  have heq := h.toList.symm.trans h'.toList
  have hwhole : (toString (cents / 100)).toList = (toString (cents' / 100)).toList := by
    have hdigits := congrArg (List.takeWhile Char.isDigit) heq
    rwa [takeWhile_isDigit, takeWhile_isDigit] at hdigits
  rw [hwhole, List.append_cancel_left_eq] at heq
  simp only [List.cons.injEq, true_and] at heq
  obtain ⟨htenths, hlast, hunit⟩ := heq
  have hhundreds : cents / 100 = cents' / 100 := toList_toString_inj hwhole
  have htens := digitChar_inj (Nat.mod_lt _ (by decide)) (Nat.mod_lt _ (by decide)) htenths
  have hones := digitChar_inj (Nat.mod_lt _ (by decide)) (Nat.mod_lt _ (by decide)) hlast
  exact ⟨by omega, String.toList_inj.1 hunit⟩

/-! ### Sizes in their units

In the largest unit there is no bound.  In the others a number of hundredths is at most 102400, and
it is that for the sizes just below the next unit only. -/

/-- A size is shown in the unit number `k`, as the nearest number of hundredths.  The unit is the
largest that the size reaches. -/
structure Label (n k : Nat) (unit : String) (cents : Nat) : Prop where
  unit_eq : units[k]? = some unit
  shows : Shows (text n) cents unit
  reached : 1024 ^ (k + 1) ≤ n
  largest : unit ≠ "TB" → n < 1024 ^ (k + 2)
  nearest : Nearest (100 * n) (1024 ^ (k + 1)) cents

/-- Going through the units, the scale grows until the size does not reach the next one. -/
theorem exists_unit (n scale : Nat) {larger : List String} (hne : larger ≠ []) :
    ∃ k unit, larger[k]? = some unit ∧
      inUnits n scale larger =
        hundredths (roundDiv (100 * n) (scale * 1024 ^ k)) ++ " " ++ unit ∧
      (scale ≤ n → scale * 1024 ^ k ≤ n) ∧
      (k + 1 < larger.length → n < scale * 1024 ^ (k + 1)) := by
  induction larger generalizing scale with
  | nil => exact absurd rfl hne
  | cons unit larger ih =>
    cases larger with
    | nil => exact ⟨0, unit, rfl, by simp [inUnits], by simp, by simp⟩
    | cons next larger =>
      by_cases hlt : n < 1024 * scale
      · refine ⟨0, unit, rfl, ?_, by simp, fun _ => ?_⟩
        · rw [inUnits, if_pos hlt, Nat.pow_zero, Nat.mul_one]
          exact List.cons_ne_nil _ _
        · rwa [Nat.pow_one, Nat.mul_comm]
      · have hpow : ∀ i, 1024 * scale * 1024 ^ i = scale * 1024 ^ (i + 1) := by
          intro i
          rw [Nat.pow_succ', Nat.mul_comm 1024 scale, Nat.mul_assoc]
        obtain ⟨k, unit', hunit, htext, hlow, hhigh⟩ := ih (1024 * scale) (List.cons_ne_nil _ _)
        refine ⟨k + 1, unit', hunit, ?_, fun _ => ?_, fun hk => ?_⟩
        · rw [inUnits, if_neg hlt, htext, hpow]
          exact List.cons_ne_nil _ _
        · rw [← hpow]
          exact hlow (Nat.le_of_not_lt hlt)
        · rw [← hpow]
          exact hhigh (Nat.lt_of_succ_lt_succ hk)

variable {n k m k' cents cents' : Nat} {unit : String}

theorem succ_lt_length (hunit : units[k]? = some unit) (hne : unit ≠ "TB") :
    k + 1 < units.length := by
  have hlt : k < units.length := (List.getElem?_eq_some_iff.1 hunit).1
  refine Nat.lt_of_le_of_ne hlt fun hlast => hne ?_
  obtain rfl : k = 3 := Nat.succ.inj hlast
  exact (Option.some.inj hunit).symm

/-- Every size of 1024 bytes and more is shown in a unit. -/
theorem exists_label (hlow : 1024 ≤ n) (hhigh : n ≤ 2 ^ 53) :
    ∃ k unit cents, Label n k unit cents := by
  obtain ⟨k, unit, hunit, htext, hreached, hlargest⟩ :=
    exists_unit n 1024 (show units ≠ [] by decide)
  have hpow : ∀ i, 1024 * 1024 ^ i = 1024 ^ (i + 1) := fun i => (Nat.pow_succ' ..).symm
  rw [hpow] at htext hreached hlargest
  refine ⟨k, unit, _, hunit, ?_, hreached hlow,
    fun hne => hlargest (succ_lt_length hunit hne),
    nearest_roundDiv _ (Nat.pow_pos (by decide))⟩
  rw [text, if_neg (Nat.not_lt.2 hlow), held_eq hhigh, htext]
  exact shows_hundredths _ _

theorem Label.le_cents (h : Label n k unit cents) : 100 ≤ cents := by
  by_contra hlt
  have hmul : cents * 1024 ^ (k + 1) ≤ 99 * 1024 ^ (k + 1) :=
    Nat.mul_le_mul_right _ (Nat.le_of_lt_succ (Nat.lt_of_not_le hlt))
  have hpos : 0 < 1024 ^ (k + 1) := Nat.pow_pos (by decide)
  have reached := h.reached
  have below := h.nearest.below
  omega

theorem Label.cents_le_limit (h : Label n k unit cents) (hne : unit ≠ "TB") :
    cents ≤ 102400 := by
  by_contra hlt
  have hmul : 102401 * 1024 ^ (k + 1) ≤ cents * 1024 ^ (k + 1) :=
    Nat.mul_le_mul_right _ (Nat.lt_of_not_le hlt)
  have largest := h.largest hne
  have hpow : 1024 ^ (k + 2) = 1024 ^ (k + 1) * 1024 := Nat.pow_succ ..
  have above := h.nearest.above
  omega

/-- 1024.00 is shown from 1023.995 on; the size in the middle goes there as well, because 102399 is
odd. -/
theorem Label.eq_limit_iff (h : Label n k unit cents) (hne : unit ≠ "TB") :
    cents = 102400 ↔ 204799 * 1024 ^ (k + 1) ≤ 200 * n := by
  have below := h.nearest.below
  have above := h.nearest.above
  constructor
  · rintro rfl
    omega
  · intro hband
    refine Nat.le_antisymm (h.cents_le_limit hne) (Nat.le_of_not_lt fun hlt => ?_)
    have hmul : cents * 1024 ^ (k + 1) ≤ 102399 * 1024 ^ (k + 1) :=
      Nat.mul_le_mul_right _ (Nat.le_of_lt_succ hlt)
    have htie : cents * 1024 ^ (k + 1) = 102399 * 1024 ^ (k + 1) := by omega
    obtain rfl : cents = 102399 := Nat.eq_of_mul_eq_mul_right (Nat.pow_pos (by decide)) htie
    have even := h.nearest.even (.inl (by omega))
    exact absurd even (by decide)

/-- In one unit a larger size shows no smaller number. -/
theorem Label.le_of_le (h : Label m k unit cents) (h' : Label n k' unit cents') (hle : m ≤ n) :
    cents ≤ cents' := by
  have hk : k = k' := by
    have hlt : k < units.length := (List.getElem?_eq_some_iff.1 h.unit_eq).1
    exact (List.getElem?_inj hlt (by decide)).1 (h.unit_eq.trans h'.unit_eq.symm)
  subst hk
  exact h.nearest.le h'.nearest (Nat.pow_pos (by decide)) (Nat.mul_le_mul_left 100 hle)

/-- **A size shows its nearest number in its unit.**  The number is at least 1.00; it is 1024.00 and
not less, in another unit than TB, exactly from 1023.995 on; and a smaller size that is shown in the
same unit shows no larger number. -/
theorem sizes_show_their_nearest_number (hlow : 1024 ≤ n) (hhigh : n ≤ 2 ^ 53) :
    ∃ k unit cents, Label n k unit cents ∧
      (∀ cents' unit', Shows (text n) cents' unit' → cents' = cents ∧ unit' = unit) ∧
      100 ≤ cents ∧
      (unit ≠ "TB" →
        cents ≤ 102400 ∧ (cents = 102400 ↔ 204799 * 1024 ^ (k + 1) ≤ 200 * n)) ∧
      ∀ m cents', 1024 ≤ m → m ≤ n → Shows (text m) cents' unit → cents' ≤ cents := by
  obtain ⟨k, unit, cents, hlabel⟩ := exists_label hlow hhigh
  refine ⟨k, unit, cents, hlabel, fun cents' unit' h => h.unique hlabel.shows, hlabel.le_cents,
    fun hne => ⟨hlabel.cents_le_limit hne, hlabel.eq_limit_iff hne⟩, ?_⟩
  intro m cents' hm hle hshows
  obtain ⟨k', unit', cents'', hlabel'⟩ := exists_label hm (Nat.le_trans hle hhigh)
  obtain ⟨rfl, rfl⟩ := hshows.unique hlabel'.shows
  exact hlabel'.le_of_le hlabel hle

/-- The last size in KB before the number is rounded up to 1024.00. -/
theorem size_below_the_band :
    1024 ≤ 1048570 ∧ 1048570 ≤ 2 ^ 53 ∧ text 1048570 = "1023.99 KB" ∧
      (∃ k, Label 1048570 k "KB" 102399) ∧
      ∀ m cents, 1024 ≤ m → m ≤ 1048570 → Shows (text m) cents "KB" → cents ≤ 102399 := by
  have hshows : Shows (text 1048570) 102399 "KB" := by decide +kernel
  obtain ⟨k, unit, cents, hlabel, hunique, -, -, hsmaller⟩ :=
    sizes_show_their_nearest_number (n := 1048570) (by decide) (by decide)
  obtain ⟨rfl, rfl⟩ := hunique _ _ hshows
  exact ⟨by decide, by decide, by decide +kernel, ⟨k, hlabel⟩, hsmaller⟩

/-- A size that is no whole MB is shown as 1024.00 KB. -/
theorem number_reaches_the_next_unit :
    text 1048575 = "1024.00 KB" ∧
      ¬ ∀ n cents unit, 1024 ≤ n → n ≤ 2 ^ 53 → Shows (text n) cents unit → unit ≠ "TB" →
        cents < 102400 := by
  refine ⟨by decide +kernel, fun h => ?_⟩
  have hshows : Shows (text 1048575) 102400 "KB" := by decide +kernel
  exact absurd (h 1048575 102400 "KB" (by decide) (by decide) hshows (by decide)) (by decide)

end TftpUpload.Text.ByteCount
