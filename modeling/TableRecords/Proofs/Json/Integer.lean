import TableRecords.Json.Schema
import TableRecords.Proofs.Json.Quoted

/-!
# JSON integers are read back

An integer is written in its decimal digits.  They are taken up to what may stand behind a value
(`Ends`) and collected again:

    takeNumber negative (utf8 (Nat.toDigits 10 n) ++ tail) = some (…, tail)   (takeNumber_digits)
    isReadable n → number? ⟨n < 0, digitsOf n.natAbs, none, none⟩ = some n    (number?_integer)
-/

namespace TableRecords.Json

open Source

/-- What may stand behind a value in a compact text: nothing, a comma or a closing bracket. -/
def Ends (tail : List UInt8) : Prop := ∀ b ∈ tail.head?, b = 0x2c ∨ b = 0x5d ∨ b = 0x7d

/-- The decimal digits of a number. -/
def digitsOf (n : Nat) : List Nat := (Nat.toDigits 10 n).map fun c => c.toNat - '0'.toNat

/-- A decimal digit is one byte. -/
theorem exists_digitByte {c : Char} (hc : c.isDigit = true) :
    ∃ b, String.utf8EncodeChar c = [b] ∧ decimalDigit? b = some (c.toNat - '0'.toNat) := by
  have hlow : 48 ≤ c.toNat ∧ c.toNat ≤ 57 := by
    simpa [Char.isDigit, UInt32.le_iff_toNat_le] using hc
  obtain ⟨hlow, hhigh⟩ := hlow
  rw [← Char.ofNat_toNat c]
  interval_cases c.toNat <;> exact ⟨_, rfl, rfl⟩

theorem takeDigits_digits {cs : List Char} (hcs : ∀ c ∈ cs, c.isDigit = true) {tail : List UInt8}
    (htail : Ends tail) :
    takeDigits (utf8 cs ++ tail) = (cs.map fun c => c.toNat - '0'.toNat, tail) := by
  induction cs with
  | nil =>
    cases tail with
    | nil => rfl
    | cons b tail =>
      show takeDigits (b :: tail) = _
      rw [takeDigits]
      rcases htail b rfl with rfl | rfl | rfl <;> rfl
  | cons c cs ih =>
    obtain ⟨b, hb, hdigit⟩ := exists_digitByte (hcs c List.mem_cons_self)
    rw [utf8_cons, hb, List.append_assoc, List.singleton_append, takeDigits, hdigit]
    dsimp only
    rw [ih fun c hc => hcs c (List.mem_cons_of_mem _ hc)]
    rfl

/-- No number but zero begins with zero. -/
theorem head?_digitsOf {n : Nat} (hn : 0 < n) : (digitsOf n).head? ≠ some 0 := by
  induction n using Nat.strongRecOn with
  | ind n ih =>
    by_cases hlt : n < 10
    · rw [digitsOf, Nat.toDigits_of_lt_base hlt]
      interval_cases n <;> decide
    · have hne : (Nat.toDigits 10 (n / 10)).map (fun c => c.toNat - '0'.toNat) ≠ [] := by
        rw [ne_eq, List.map_eq_nil_iff]
        exact Nat.toDigits_ne_nil
      rw [digitsOf, Nat.toDigits_of_base_le (by decide) (by omega), List.map_append,
        List.head?_append_of_ne_nil _ hne]
      exact ih (n / 10) (by omega) (by omega)

/-- The digits of a number are those of a whole part. -/
theorem not_leading_zero (n : Nat) : ¬ ((digitsOf n).head? = some 0 ∧ 1 < (digitsOf n).length) := by
  rcases Nat.eq_zero_or_pos n with rfl | hn
  · decide
  · exact fun h => head?_digitsOf hn h.1

theorem takeDigits1_of_ne_nil {bs tail : List UInt8} {ds : List Nat}
    (h : takeDigits bs = (ds, tail)) (hne : ds ≠ []) : takeDigits1 bs = some (ds, tail) := by
  rw [takeDigits1, h]
  cases ds with
  | nil => exact absurd rfl hne
  | cons d ds => rfl

theorem takeNumber_digits (negative : Bool) (n : Nat) {tail : List UInt8} (htail : Ends tail) :
    takeNumber negative (utf8 (Nat.toDigits 10 n) ++ tail) =
      some (⟨negative, digitsOf n, none, none⟩, tail) := by
  have hdigits : ∀ c ∈ Nat.toDigits 10 n, c.isDigit = true := fun c hc =>
    Nat.isDigit_of_mem_toDigits (by decide) (by decide) hc
  have hne : digitsOf n ≠ [] := by
    rw [digitsOf, ne_eq, List.map_eq_nil_iff]
    exact Nat.toDigits_ne_nil
  have htake : takeDigits1 (utf8 (Nat.toDigits 10 n) ++ tail) = some (digitsOf n, tail) :=
    takeDigits1_of_ne_nil (takeDigits_digits hdigits htail) hne
  have hpart : takePart tail = some (none, tail) := by
    cases tail with
    | nil => rfl
    | cons b tail => rcases htail b rfl with rfl | rfl | rfl <;> rfl
  have hexponent : takeExponent tail = some (none, tail) := by
    cases tail with
    | nil => rfl
    | cons b tail => rcases htail b rfl with rfl | rfl | rfl <;> rfl
  simp only [takeNumber, htake, Option.bind_eq_bind, Option.bind_some, if_neg (not_leading_zero n),
    hpart, hexponent]
  rfl

theorem le_ofDigitChars (cs : List Char) (n : Nat) : n ≤ Nat.ofDigitChars 10 cs n := by
  induction cs generalizing n with
  | nil => exact le_rfl
  | cons c cs ih =>
    rw [Nat.ofDigitChars_cons]
    exact le_trans (by omega) (ih _)

/-- Digits are collected if 64 bits hold their number. -/
theorem collect_digits {cs : List Char} {n : Nat} (h : Nat.ofDigitChars 10 cs n ≤ maxSignificand) :
    collect n (cs.map fun c => c.toNat - '0'.toNat) = (Nat.ofDigitChars 10 cs n, []) := by
  induction cs generalizing n with
  | nil => rfl
  | cons c cs ih =>
    rw [Nat.ofDigitChars_cons] at h ⊢
    have hle : n * 10 + (c.toNat - '0'.toNat) ≤ maxSignificand := by
      rw [Nat.mul_comm n 10]
      exact le_trans (le_ofDigitChars cs _) h
    rw [List.map_cons, collect, if_pos hle, Nat.mul_comm n 10]
    exact ih h

/-- The digits of a number that 64 bits hold are read as this number. -/
theorem number?_digits (negative : Bool) {n : Nat} (hn : n ≤ maxSignificand) :
    NumberSource.number? ⟨negative, digitsOf n, none, none⟩ = some (integerNumber negative n) := by
  have hvalue : Nat.ofDigitChars 10 (Nat.toDigits 10 n) 0 = n :=
    Nat.ofDigitChars_toDigits (by decide) (by decide)
  have hcollect : collect 0 (digitsOf n) = (n, []) := by
    rw [digitsOf, collect_digits (hvalue.symm ▸ hn), hvalue]
  rw [NumberSource.number?, hcollect]
  rfl

/-- The sign and the size of an integer that 64 bits hold, with or without sign. -/
theorem integerNumber_natAbs {n : Int} (hn : -0x8000000000000000 ≤ n) :
    integerNumber (decide (n < 0)) n.natAbs = .integer n := by
  by_cases hneg : n < 0
  · rw [decide_eq_true hneg, integerNumber, if_pos rfl, if_pos (by omega)]
    congr 1
    omega
  · rw [decide_eq_false hneg, integerNumber, if_neg (by decide)]
    congr 1
    omega

/-- **A readable integer is read from its sign and its digits.** -/
theorem number?_integer {n : Int} (h : isReadable (.integer n) = true) :
    NumberSource.number? ⟨decide (n < 0), digitsOf n.natAbs, none, none⟩ = some (.integer n) := by
  rw [isReadable, Bool.and_eq_true, decide_eq_true_iff, decide_eq_true_iff] at h
  obtain ⟨hmin, hmax⟩ : -0x8000000000000000 ≤ n ∧ n ≤ 0xffffffffffffffff := h
  have hsize : n.natAbs ≤ maxSignificand := by
    show n.natAbs ≤ 0xffffffffffffffff
    omega
  rw [number?_digits _ hsize, integerNumber_natAbs hmin]

end TableRecords.Json
