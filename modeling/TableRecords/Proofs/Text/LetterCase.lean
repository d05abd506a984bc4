import TableRecords.Text.Ascii
import Mathlib.Data.List.Forall2

/-!
# Letter case

What it means that two texts differ in the case of ASCII letters at most, said character by
character:

    sameIgnoringCase s t = true ↔ SameLetters s t                      (sameIgnoringCase_iff)
-/

namespace TableRecords.Text

/-- Two characters are one, or the capital and the small form of one of the 26 letters. -/
def SameLetter (c d : Char) : Prop :=
  c = d ∨ ∃ k < 26, (c.toNat = 65 + k ∧ d.toNat = 97 + k) ∨ (c.toNat = 97 + k ∧ d.toNat = 65 + k)

/-- Two texts are one but for the case of letters. -/
def SameLetters (s t : String) : Prop := List.Forall₂ SameLetter s.toList t.toList

theorem toNat_toLower (c : Char) :
    c.toLower.toNat = if 65 ≤ c.toNat ∧ c.toNat ≤ 90 then c.toNat + 32 else c.toNat := by
  have hcapital : (c.val ≥ 'A'.val ∧ c.val ≤ 'Z'.val) ↔ (65 ≤ c.toNat ∧ c.toNat ≤ 90) := by
    rw [ge_iff_le, UInt32.le_iff_toNat_le, UInt32.le_iff_toNat_le]
    exact Iff.rfl
  unfold Char.toLower
  split
  · next h =>
    have hc := hcapital.1 h
    rw [if_pos hc]
    show (c.val + ('a'.val - 'A'.val)).toNat = _
    rw [UInt32.toNat_add, show ('a'.val - 'A'.val).toNat = 32 from rfl,
      Nat.mod_eq_of_lt (by have : c.val.toNat = c.toNat := rfl; omega)]
    rfl
  · next h => rw [if_neg (mt hcapital.2 h)]

theorem toLower_eq_iff {c d : Char} : c.toLower = d.toLower ↔ SameLetter c d := by
  rw [← Char.toNat_inj, toNat_toLower, toNat_toLower, SameLetter, ← Char.toNat_inj]
  constructor
  · intro h
    by_cases hc : 65 ≤ c.toNat ∧ c.toNat ≤ 90
    · by_cases hd : 65 ≤ d.toNat ∧ d.toNat ≤ 90
      · rw [if_pos hc, if_pos hd] at h
        exact .inl (by omega)
      · rw [if_pos hc, if_neg hd] at h
        exact .inr ⟨c.toNat - 65, by omega, .inl (by omega)⟩
    · by_cases hd : 65 ≤ d.toNat ∧ d.toNat ≤ 90
      · rw [if_neg hc, if_pos hd] at h
        exact .inr ⟨d.toNat - 65, by omega, .inr (by omega)⟩
      · rw [if_neg hc, if_neg hd] at h
        exact .inl h
  · rintro (h | ⟨k, hk, ⟨hc, hd⟩ | ⟨hc, hd⟩⟩)
    · rw [h]
    · rw [if_pos (by omega), if_neg (by omega)]
      omega
    · rw [if_neg (by omega), if_pos (by omega)]
      omega

theorem asciiLower_eq_iff {s t : String} : asciiLower s = asciiLower t ↔ SameLetters s t := by
  rw [asciiLower, asciiLower, String.ofList_inj, ← List.forall₂_eq_eq_eq,
    List.forall₂_map_left_iff, List.forall₂_map_right_iff, SameLetters]
  simp only [toLower_eq_iff]

theorem sameIgnoringCase_iff {s t : String} : sameIgnoringCase s t = true ↔ SameLetters s t := by
  rw [sameIgnoringCase, beq_iff_eq, asciiLower_eq_iff]

end TableRecords.Text
