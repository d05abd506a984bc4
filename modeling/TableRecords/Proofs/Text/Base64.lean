import Mathlib
import TableRecords.Text.Base64

/-!
# What base64 writes

The bits of the bytes, the most significant first, are cut into sixes.  Zeros fill up the last six,
and `=` fills up the last four characters (`Writes`).

    writes_encodeBytes : encodeBytes bytes is such a text
-/

namespace TableRecords.Text.Base64

/-- The lowest `width` bits of a number, the most significant first. -/
def bits : (width : Nat) → Nat → List Bool
  | 0, _ => []
  | width + 1, n => n.testBit width :: bits width n

/-- A text is base64 of some bytes, with characters of the values `digits` and some padding. -/
structure Writes (bytes : List UInt8) (text : List Char) (digits : List Nat) (padding : Nat) :
    Prop where
  text_eq : text = digits.map digit ++ List.replicate padding '='
  digits_lt : ∀ n ∈ digits, n < 64
  padding_lt : padding < 4
  length : 4 ∣ text.length
  bits_eq : ∃ fill < 6, digits.flatMap (bits 6) =
    bytes.flatMap (fun b => bits 8 b.toNat) ++ List.replicate fill false

/-! ## Bits -/

theorem bits_mod {width k : Nat} (h : width ≤ k) (n : Nat) :
    bits width (n % 2 ^ k) = bits width n := by
  induction width with
  | zero => rfl
  | succ width ih =>
    have hlt : width < k := by omega
    rw [bits, bits, ih (by omega), Nat.testBit_mod_two_pow]
    simp [hlt]

theorem bits_add (width width' n : Nat) :
    bits (width + width') n = bits width (n / 2 ^ width') ++ bits width' n := by
  induction width with
  | zero => rw [Nat.zero_add, bits, List.nil_append]
  | succ width ih =>
    rw [Nat.add_right_comm, bits, bits, ih, Nat.testBit_div_two_pow, List.cons_append]

theorem bits_zero (width : Nat) : bits width 0 = List.replicate width false := by
  induction width with
  | zero => rfl
  | succ width ih => rw [bits, ih, Nat.zero_testBit, List.replicate_succ]

/-- The bits of a number that is made up of three bytes, cut into sixes and into bytes. -/
theorem bits_group (a b c : UInt8) {n : Nat}
    (hn : n = a.toNat * 65536 + b.toNat * 256 + c.toNat) :
    bits 6 (n / 262144) ++ (bits 6 (n / 4096 % 64) ++ (bits 6 (n / 64 % 64) ++ bits 6 (n % 64))) =
      bits 8 a.toNat ++ (bits 8 b.toNat ++ bits 8 c.toNat) := by
  have hb := b.toNat_lt
  have hc := c.toNat_lt
  have hsixes : bits 24 n = bits 6 (n / 262144) ++ (bits 6 (n / 4096 % 64) ++
      (bits 6 (n / 64 % 64) ++ bits 6 (n % 64))) := by
    have hmod (k : Nat) : bits 6 (k % 64) = bits 6 k := bits_mod (le_refl 6) k
    rw [hmod, hmod, hmod, bits_add 6 18, bits_add 6 12, bits_add 6 6]
    norm_num
  have hbytes : bits 24 n = bits 8 a.toNat ++ (bits 8 b.toNat ++ bits 8 c.toNat) := by
    have ha : n / 2 ^ 16 = a.toNat := by omega
    have hb : n / 2 ^ 8 % 2 ^ 8 = b.toNat := by omega
    have hc : n % 2 ^ 8 = c.toNat := by omega
    rw [bits_add 8 16, bits_add 8 8, ha, ← bits_mod (k := 8) (by omega) (n / 2 ^ 8), hb,
      ← bits_mod (k := 8) (by omega) n, hc]
  rw [← hsixes, hbytes]

/-! ## Texts -/

theorem writes_nil : Writes [] [] [] 0 where
  text_eq := rfl
  digits_lt _ hn := absurd hn List.not_mem_nil
  padding_lt := by decide
  length := Nat.dvd_zero 4
  bits_eq := ⟨0, by decide, rfl⟩

theorem group_eq (a b c : UInt8) {n : Nat} (hn : n = a.toNat * 65536 + b.toNat * 256 + c.toNat) :
    group a b c =
      [digit (n / 262144), digit (n / 4096 % 64), digit (n / 64 % 64), digit (n % 64)] := by
  rw [hn]
  rfl

theorem writes_one (a : UInt8) {n : Nat}
    (hn : n = a.toNat * 65536 + (0 : UInt8).toNat * 256 + (0 : UInt8).toNat) :
    Writes [a] ((group a 0 0).take 2 ++ ['=', '=']) [n / 262144, n / 4096 % 64] 2 where
  text_eq := by
    rw [group_eq a 0 0 hn]
    rfl
  digits_lt k hk := by
    have ha := a.toNat_lt
    have hzero : (0 : UInt8).toNat = 0 := rfl
    simp only [List.mem_cons, List.not_mem_nil, or_false] at hk
    omega
  padding_lt := by decide
  length := by
    rw [group_eq a 0 0 hn]
    exact ⟨1, rfl⟩
  bits_eq := by
    have h := bits_group a 0 0 hn
    have hzero : (0 : UInt8).toNat = 0 := rfl
    have hthird : n / 64 % 64 = 0 := by omega
    have hfourth : n % 64 = 0 := by omega
    refine ⟨4, by decide, (List.append_left_inj (List.replicate 12 false)).1 ?_⟩
    simpa [hthird, hfourth, bits_zero] using h

theorem writes_two (a b : UInt8) {n : Nat}
    (hn : n = a.toNat * 65536 + b.toNat * 256 + (0 : UInt8).toNat) :
    Writes [a, b] ((group a b 0).take 3 ++ ['=']) [n / 262144, n / 4096 % 64, n / 64 % 64] 1 where
  text_eq := by
    rw [group_eq a b 0 hn]
    rfl
  digits_lt k hk := by
    have ha := a.toNat_lt
    have hb := b.toNat_lt
    have hzero : (0 : UInt8).toNat = 0 := rfl
    simp only [List.mem_cons, List.not_mem_nil, or_false] at hk
    omega
  padding_lt := by decide
  length := by
    rw [group_eq a b 0 hn]
    exact ⟨1, rfl⟩
  bits_eq := by
    have h := bits_group a b 0 hn
    have hzero : (0 : UInt8).toNat = 0 := rfl
    have hfourth : n % 64 = 0 := by omega
    refine ⟨2, by decide, (List.append_left_inj (List.replicate 6 false)).1 ?_⟩
    simpa [hfourth, bits_zero] using h

/-- A group of three bytes goes in front without padding of its own. -/
theorem Writes.group {bytes : List UInt8} {text : List Char} {digits : List Nat} {padding : Nat}
    (h : Writes bytes text digits padding) (a b c : UInt8) {n : Nat}
    (hn : n = a.toNat * 65536 + b.toNat * 256 + c.toNat) :
    Writes (a :: b :: c :: bytes) (Base64.group a b c ++ text)
      (n / 262144 :: n / 4096 % 64 :: n / 64 % 64 :: n % 64 :: digits) padding where
  text_eq := by
    rw [h.text_eq, group_eq a b c hn]
    rfl
  digits_lt k hk := by
    have ha := a.toNat_lt
    have hb := b.toNat_lt
    have hc := c.toNat_lt
    simp only [List.mem_cons] at hk
    rcases hk with hk | hk | hk | hk | hk
    · omega
    · omega
    · omega
    · omega
    · exact h.digits_lt k hk
  padding_lt := h.padding_lt
  length := by
    obtain ⟨k, hk⟩ := h.length
    refine ⟨k + 1, ?_⟩
    rw [List.length_append, hk]
    show 4 + 4 * k = _
    omega
  bits_eq := by
    obtain ⟨fill, hfill, hbits⟩ := h.bits_eq
    refine ⟨fill, hfill, ?_⟩
    have hgroup := congrArg (· ++ digits.flatMap (bits 6)) (bits_group a b c hn)
    simp only [List.append_assoc] at hgroup
    simp only [List.flatMap_cons, List.append_assoc]
    rw [hgroup, hbits]

/-- **Every list of bytes is written in base64.** -/
theorem writes_encodeBytes (bytes : List UInt8) :
    ∃ digits padding, Writes bytes (encodeBytes bytes) digits padding := by
  fun_induction encodeBytes bytes with
  | case1 => exact ⟨_, _, writes_nil⟩
  | case2 a => exact ⟨_, _, writes_one a rfl⟩
  | case3 a b => exact ⟨_, _, writes_two a b rfl⟩
  | case4 a b c rest ih =>
    obtain ⟨digits, padding, hrest⟩ := ih
    exact ⟨_, _, hrest.group a b c rfl⟩

/-- The text of three bytes and one. -/
example : encodeBytes [77, 97, 110, 255] = "TWFu/w==".toList := by
  decide

end TableRecords.Text.Base64
