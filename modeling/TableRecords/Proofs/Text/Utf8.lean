/-!
# Well-formed UTF-8

Which byte strings are the UTF-8 of a text, said by ranges of bytes and without an encoder: no
character in a longer form than it needs, no surrogate, nothing beyond the last character, and no
character cut off.  These are the byte strings that the core library takes:

    bytes.IsValidUTF8 ↔ WellFormed bytes.data.toList                        (isValidUTF8_iff)
-/

namespace TableRecords.Text.Utf8

/-- A byte that goes on with a character. -/
structure Continues (b : UInt8) : Prop where
  le : 0x80 ≤ b
  ge : b ≤ 0xbf

/-- The bytes of one character. -/
inductive CharBytes : List UInt8 → Prop
  | one {a : UInt8} : a ≤ 0x7f → CharBytes [a]
  /-- `C0` and `C1` would begin a longer form of one byte. -/
  | two {a b : UInt8} : 0xc2 ≤ a → a ≤ 0xdf → Continues b → CharBytes [a, b]
  /-- Behind `E0` small bytes would be a longer form of two, behind `ED` great ones a surrogate. -/
  | three {a b c : UInt8} : 0xe0 ≤ a → a ≤ 0xef → (a = 0xe0 → 0xa0 ≤ b) → (a = 0xed → b ≤ 0x9f) →
      Continues b → Continues c → CharBytes [a, b, c]
  /-- Behind `F0` small bytes would be a longer form of three, and behind `F4` great ones are beyond
  the last character. -/
  | four {a b c d : UInt8} : 0xf0 ≤ a → a ≤ 0xf4 → (a = 0xf0 → 0x90 ≤ b) → (a = 0xf4 → b ≤ 0x8f) →
      Continues b → Continues c → Continues d → CharBytes [a, b, c, d]

/-- The bytes of characters one after the other. -/
inductive WellFormed : List UInt8 → Prop
  | nil : WellFormed []
  | append {front rest : List UInt8} : CharBytes front → WellFormed rest → WellFormed (front ++ rest)

/-! ## One character -/

theorem continues_ofNat (n : Nat) : Continues (UInt8.ofNat (n % 64 + 0x80)) := by
  constructor
  all_goals
    simp only [UInt8.le_iff_toNat_le, UInt8.toNat_ofNat', UInt8.reduceToNat]
    omega

theorem charBytes_utf8EncodeChar (c : Char) : CharBytes (String.utf8EncodeChar c) := by
  have hvalid : c.val.toNat < 0xd800 ∨ 0xdfff < c.val.toNat ∧ c.val.toNat < 0x110000 := c.valid
  unfold String.utf8EncodeChar
  generalize c.val.toNat = v at hvalid
  dsimp only
  split
  · refine .one ?_
    simp only [UInt8.le_iff_toNat_le, UInt8.toNat_ofNat', UInt8.reduceToNat]
    omega
  split
  · refine .two ?_ ?_ (continues_ofNat v)
    all_goals
      simp only [UInt8.le_iff_toNat_le, UInt8.toNat_ofNat', UInt8.reduceToNat]
      omega
  split
  · refine .three ?_ ?_ ?_ ?_ (continues_ofNat (v / 64)) (continues_ofNat v)
    all_goals
      simp only [UInt8.le_iff_toNat_le, ← UInt8.toNat_inj, UInt8.toNat_ofNat', UInt8.reduceToNat]
      omega
  · refine .four ?_ ?_ ?_ ?_ (continues_ofNat (v / 4096)) (continues_ofNat (v / 64))
      (continues_ofNat v)
    all_goals
      simp only [UInt8.le_iff_toNat_le, ← UInt8.toNat_inj, UInt8.toNat_ofNat', UInt8.reduceToNat]
      omega

/-- A character with a number outside of the surrogates. -/
theorem exists_char {v : Nat} (h : v < 0xd800 ∨ 0xdfff < v ∧ v < 0x110000) :
    ∃ c : Char, c.val.toNat = v :=
  ⟨Char.ofNatAux v h, rfl⟩

theorem eq_ofNat_iff {a : UInt8} {n : Nat} (hn : n < 256) : UInt8.ofNat n = a ↔ n = a.toNat := by
  rw [← UInt8.toNat_inj, UInt8.toNat_ofNat', Nat.mod_eq_of_lt hn]

/-- The bytes of one character are those that one is written with. -/
theorem exists_of_charBytes {bs : List UInt8} (h : CharBytes bs) :
    ∃ c : Char, String.utf8EncodeChar c = bs := by
  simp only [String.utf8EncodeChar]
  cases h with
  | @one a ha =>
    simp only [UInt8.le_iff_toNat_le, UInt8.reduceToNat] at ha
    obtain ⟨c, hc⟩ := exists_char (v := a.toNat) (by omega)
    refine ⟨c, ?_⟩
    rw [hc, if_pos ha, UInt8.ofNat_toNat]
  | @two a b hle hge hb =>
    obtain ⟨hb, hb'⟩ := hb
    simp only [UInt8.le_iff_toNat_le, UInt8.reduceToNat] at hle hge hb hb'
    obtain ⟨c, hc⟩ := exists_char (v := (a.toNat - 0xc0) * 64 + (b.toNat - 0x80)) (by omega)
    refine ⟨c, ?_⟩
    rw [hc, if_neg (by omega), if_pos (by omega)]
    simp only [List.cons.injEq, and_true]
    refine ⟨(eq_ofNat_iff ?_).2 ?_, (eq_ofNat_iff ?_).2 ?_⟩ <;> omega
  | @three a b c hle hge hshort hsurrogate hb hc =>
    obtain ⟨⟨hb, hb'⟩, hc, hc'⟩ := hb, hc
    simp only [UInt8.le_iff_toNat_le, ← UInt8.toNat_inj, UInt8.reduceToNat] at *
    obtain ⟨x, hx⟩ := exists_char
      (v := (a.toNat - 0xe0) * 4096 + (b.toNat - 0x80) * 64 + (c.toNat - 0x80)) (by omega)
    refine ⟨x, ?_⟩
    rw [hx, if_neg (by omega), if_neg (by omega), if_pos (by omega)]
    simp only [List.cons.injEq, and_true]
    refine ⟨(eq_ofNat_iff ?_).2 ?_, (eq_ofNat_iff ?_).2 ?_, (eq_ofNat_iff ?_).2 ?_⟩ <;> omega
  | @four a b c d hle hge hshort hbeyond hb hc hd =>
    obtain ⟨⟨hb, hb'⟩, ⟨hc, hc'⟩, hd, hd'⟩ := hb, hc, hd
    simp only [UInt8.le_iff_toNat_le, ← UInt8.toNat_inj, UInt8.reduceToNat] at *
    obtain ⟨x, hx⟩ := exists_char
      (v := (a.toNat - 0xf0) * 262144 + (b.toNat - 0x80) * 4096 + (c.toNat - 0x80) * 64 +
        (d.toNat - 0x80)) (by omega)
    refine ⟨x, ?_⟩
    rw [hx, if_neg (by omega), if_neg (by omega), if_neg (by omega)]
    simp only [List.cons.injEq, and_true]
    refine ⟨(eq_ofNat_iff ?_).2 ?_, (eq_ofNat_iff ?_).2 ?_, (eq_ofNat_iff ?_).2 ?_,
      (eq_ofNat_iff ?_).2 ?_⟩ <;> omega

/-! ## Texts -/

theorem wellFormed_iff {bs : List UInt8} :
    WellFormed bs ↔ ∃ cs : List Char, cs.flatMap String.utf8EncodeChar = bs := by
  constructor
  · intro h
    induction h with
    | nil => exact ⟨[], rfl⟩
    | append hfront _ ih =>
      obtain ⟨c, rfl⟩ := exists_of_charBytes hfront
      obtain ⟨cs, rfl⟩ := ih
      exact ⟨c :: cs, List.flatMap_cons⟩
  · rintro ⟨cs, rfl⟩
    induction cs with
    | nil => exact .nil
    | cons c cs ih =>
      rw [List.flatMap_cons]
      exact .append (charBytes_utf8EncodeChar c) ih

/-- **The byte strings that are texts** are the well-formed ones. -/
theorem isValidUTF8_iff (bytes : ByteArray) :
    bytes.IsValidUTF8 ↔ WellFormed bytes.data.toList := by
  rw [wellFormed_iff]
  constructor
  · rintro ⟨cs, rfl⟩
    exact ⟨cs, by rw [List.utf8Encode, List.toList_data_toByteArray]⟩
  · rintro ⟨cs, hcs⟩
    refine ⟨cs, ?_⟩
    rw [List.utf8Encode, hcs]
    exact ByteArray.ext List.data_toByteArray.symm

/-- A text is read from its own bytes alone. -/
theorem fromUTF8?_eq_some_iff {bytes : ByteArray} {s : String} :
    String.fromUTF8? bytes = some s ↔ s.toUTF8 = bytes := by
  rw [String.fromUTF8?, Option.dite_none_right_eq_some]
  constructor
  · rintro ⟨h, hs⟩
    obtain rfl := Option.some.inj hs
    rfl
  · rintro rfl
    exact ⟨s.isValidUTF8, rfl⟩

theorem exists_toUTF8_iff {bytes : ByteArray} :
    (∃ s : String, s.toUTF8 = bytes) ↔ WellFormed bytes.data.toList := by
  rw [← isValidUTF8_iff]
  constructor
  · rintro ⟨s, rfl⟩
    exact s.isValidUTF8
  · intro h
    exact ⟨String.fromUTF8 bytes h, rfl⟩

theorem fromUTF8?_eq_none_iff {bytes : ByteArray} :
    String.fromUTF8? bytes = none ↔ ¬ WellFormed bytes.data.toList := by
  rw [String.fromUTF8?, ← isValidUTF8_iff]
  split <;> simp_all

end TableRecords.Text.Utf8
