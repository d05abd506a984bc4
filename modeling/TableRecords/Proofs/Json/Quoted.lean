import Mathlib
import TableRecords.Json.Source

/-!
# JSON strings are read back

A string is written character by character: as it is, in UTF-8, or as an escape.  Reading takes it
back byte by byte and escape by escape up to the closing quote (`TakesString`), so that no character
of a string is taken for its end:

    takeString_escaped : what is written for a string is read as this string
-/

namespace TableRecords.Json

open Source

/-- The bytes of characters in UTF-8. -/
def utf8 (cs : List Char) : List UInt8 := cs.flatMap String.utf8EncodeChar

theorem utf8_cons (c : Char) (cs : List Char) :
    utf8 (c :: cs) = String.utf8EncodeChar c ++ utf8 cs := List.flatMap_cons

theorem utf8_append (cs cs' : List Char) : utf8 (cs ++ cs') = utf8 cs ++ utf8 cs' :=
  List.flatMap_append

theorem toByteArray_eq (s : String) : s.toByteArray = (utf8 s.toList).toByteArray := by
  rw [← String.utf8Encode_toList, List.utf8Encode, utf8]

theorem bytes_toUTF8 (s : String) : s.toUTF8.data.toList = utf8 s.toList := by
  rw [String.toUTF8_eq_toByteArray, toByteArray_eq, List.toList_data_toByteArray]

theorem charBytes_eq (c : Char) : charBytes c = String.utf8EncodeChar c := by
  rw [charBytes, bytes_toUTF8, String.toList_singleton, utf8, List.flatMap_singleton]

/-- The bytes of a text are read as this text. -/
theorem fromUTF8?_utf8 (s : String) : String.fromUTF8? ⟨(utf8 s.toList).toArray⟩ = some s := by
  have hbytes : (⟨(utf8 s.toList).toArray⟩ : ByteArray) = s.toByteArray := by
    rw [toByteArray_eq]
    exact congrArg ByteArray.mk List.data_toByteArray.symm
  rw [hbytes, String.fromUTF8?, dif_pos s.isValidUTF8]
  rfl

/-! ## Units -/

/-- A string of these bytes stands in front, up to its closing quote, and `tail` behind it. -/
def TakesString (bs bytes tail : List UInt8) : Prop :=
  ∃ units, takeString bs = some (units, tail) ∧ unitBytes? units = some bytes

variable {bs bytes tail : List UInt8}

theorem takesString_end (tail : List UInt8) : TakesString (0x22 :: tail) [] tail :=
  ⟨[], rfl, rfl⟩

/-- A byte that is no control character, quote or backslash stands for itself. -/
def IsPlainByte (b : UInt8) : Prop := ¬ b < 0x20 ∧ b ≠ 0x22 ∧ b ≠ 0x5c

theorem TakesString.byte {b : UInt8} (hb : IsPlainByte b) (h : TakesString bs bytes tail) :
    TakesString (b :: bs) (b :: bytes) tail := by
  obtain ⟨units, htake, hbytes⟩ := h
  obtain ⟨hcontrol, hquote, hbackslash⟩ := hb
  refine ⟨.byte b :: units, ?_, by rw [unitBytes?, hbytes]; rfl⟩
  rw [takeString]
  · simp [htake, hcontrol, hbackslash]
  · exact hquote
  all_goals simp_all

theorem TakesString.append {plain : List UInt8} (hplain : ∀ b ∈ plain, IsPlainByte b)
    (h : TakesString bs bytes tail) : TakesString (plain ++ bs) (plain ++ bytes) tail := by
  induction plain with
  | nil => exact h
  | cons b plain ih =>
    have hrest := ih fun b hb => hplain b (List.mem_cons_of_mem _ hb)
    exact hrest.byte (hplain b List.mem_cons_self)

/-- A `\u` escape of a code that is no surrogate. -/
theorem TakesString.code {a b c d : UInt8} {i j k l : Nat} (ha : hexDigit? a = some i)
    (hb : hexDigit? b = some j) (hc : hexDigit? c = some k) (hd : hexDigit? d = some l)
    (hlow : i * 4096 + j * 256 + k * 16 + l < 0xd800) (h : TakesString bs bytes tail) :
    TakesString (0x5c :: 0x75 :: a :: b :: c :: d :: bs)
      (String.utf8EncodeChar (Char.ofNat (i * 4096 + j * 256 + k * 16 + l)) ++ bytes) tail := by
  obtain ⟨units, htake, hbytes⟩ := h
  refine ⟨.code (i * 4096 + j * 256 + k * 16 + l) :: units, ?_, ?_⟩
  · rw [takeString, ha, hb, hc, hd, htake]
    rfl
  · rw [unitBytes?.eq_def]
    dsimp only
    rw [if_neg (by omega), if_neg (by omega), hbytes, charBytes_eq]
    rfl

/-! ## Characters -/

theorem isPlainByte_ofNat {n : Nat} (hcontrol : ¬ n % 256 < 0x20) (hquote : n % 256 ≠ 0x22)
    (hbackslash : n % 256 ≠ 0x5c) : IsPlainByte (UInt8.ofNat n) := by
  have hn : (UInt8.ofNat n).toNat = n % 256 := UInt8.toNat_ofNat'
  refine ⟨?_, ?_, ?_⟩
  · rw [UInt8.lt_iff_toNat_lt, hn]
    exact hcontrol
  · rw [ne_eq, ← UInt8.toNat_inj, hn]
    exact hquote
  · rw [ne_eq, ← UInt8.toNat_inj, hn]
    exact hbackslash

/-- A character that is written as it is has plain bytes only: it is one byte itself, or all its
bytes have their highest bit set. -/
theorem isPlainByte_utf8 {c : Char} (hcontrol : ¬ c.toNat < 0x20) (hquote : c ≠ '\x22')
    (hbackslash : c ≠ '\\') : ∀ b ∈ String.utf8EncodeChar c, IsPlainByte b := by
  have hquote : c.toNat ≠ 0x22 := fun h => hquote (Char.toNat_inj.1 h)
  have hbackslash : c.toNat ≠ 0x5c := fun h => hbackslash (Char.toNat_inj.1 h)
  have hval : c.val.toNat = c.toNat := rfl
  intro b hb
  have hbytes : ∃ n, b = UInt8.ofNat n ∧ (n = c.toNat ∧ n ≤ 0x7f ∨ 0x80 ≤ n % 256) := by
    revert hb
    fun_cases String.utf8EncodeChar c with
    | case1 v hv =>
      intro hb
      exact ⟨_, List.mem_singleton.1 hb, .inl ⟨rfl, hv⟩⟩
    | case2 v hv =>
      simp only [List.mem_cons, List.not_mem_nil, or_false]
      rintro (rfl | rfl) <;> exact ⟨_, rfl, .inr (by omega)⟩
    | case3 v hv =>
      simp only [List.mem_cons, List.not_mem_nil, or_false]
      rintro (rfl | rfl | rfl) <;> exact ⟨_, rfl, .inr (by omega)⟩
    | case4 v hv =>
      simp only [List.mem_cons, List.not_mem_nil, or_false]
      rintro (rfl | rfl | rfl | rfl) <;> exact ⟨_, rfl, .inr (by omega)⟩
  obtain ⟨n, rfl, ⟨rfl, hn⟩ | hn⟩ := hbytes
  · exact isPlainByte_ofNat (by omega) (by omega) (by omega)
  · exact isPlainByte_ofNat (by omega) (by omega) (by omega)

/-- A hexadecimal digit is one byte. -/
theorem exists_hexByte {k : Nat} (hk : k < 16) :
    ∃ b, String.utf8EncodeChar (Nat.digitChar k) = [b] ∧ hexDigit? b = some k := by
  interval_cases k <;> exact ⟨_, rfl, rfl⟩

/-- The bytes that stand behind a backslash for a character. -/
def letters : List (UInt8 × Char) :=
  [(0x22, '\x22'), (0x5c, '\\'), (0x62, '\x08'), (0x66, '\x0c'), (0x6e, '\n'), (0x72, '\x0d'),
    (0x74, '\t')]

theorem takeString_letter {e : UInt8} {c : Char} (he : (e, c) ∈ letters) {units : List StringUnit}
    (h : takeString bs = some (units, tail)) :
    takeString (0x5c :: e :: bs) = some (.char c :: units, tail) := by
  simp only [letters, List.mem_cons, Prod.mk.injEq, List.not_mem_nil, or_false] at he
  rcases he with ⟨rfl, rfl⟩ | ⟨rfl, rfl⟩ | ⟨rfl, rfl⟩ | ⟨rfl, rfl⟩ | ⟨rfl, rfl⟩ | ⟨rfl, rfl⟩ |
    ⟨rfl, rfl⟩
  all_goals
    rw [takeString]
    simp [h]

theorem TakesString.letter {e : UInt8} {c : Char} (he : (e, c) ∈ letters)
    (h : TakesString bs bytes tail) :
    TakesString (0x5c :: e :: bs) (String.utf8EncodeChar c ++ bytes) tail := by
  obtain ⟨units, htake, hbytes⟩ := h
  refine ⟨.char c :: units, takeString_letter he htake, ?_⟩
  rw [unitBytes?, hbytes, charBytes_eq]
  rfl

/-- A control character that has no letter. -/
theorem TakesString.control {c : Char} (hc : c.toNat < 0x20) (h : TakesString bs bytes tail) :
    TakesString (utf8 ('\\' :: 'u' :: '0' :: '0' :: twoHexDigits c.toNat) ++ bs)
      (String.utf8EncodeChar c ++ bytes) tail := by
  obtain ⟨b, hb, hdigit⟩ := exists_hexByte (Nat.mod_lt (c.toNat / 16) (by decide))
  obtain ⟨b', hb', hdigit'⟩ := exists_hexByte (Nat.mod_lt c.toNat (by decide))
  have hcode : 0 * 4096 + 0 * 256 + c.toNat / 16 % 16 * 16 + c.toNat % 16 = c.toNat := by omega
  have hwritten : utf8 ('\\' :: 'u' :: '0' :: '0' :: twoHexDigits c.toNat) =
      [0x5c, 0x75, 0x30, 0x30, b, b'] := by
    rw [twoHexDigits]
    simp only [utf8, List.flatMap_cons, List.flatMap_nil, hb, hb']
    rfl
  have hzero : hexDigit? 0x30 = some 0 := rfl
  have hread := h.code hzero hzero hdigit hdigit' (by omega)
  rw [hcode, Char.ofNat_toNat] at hread
  rw [hwritten]
  exact hread

/-- What is written for a character is read as this character. -/
theorem TakesString.escapeChar (c : Char) (h : TakesString bs bytes tail) :
    TakesString (utf8 (escapeChar c) ++ bs) (String.utf8EncodeChar c ++ bytes) tail := by
  fun_cases Json.escapeChar c with
  | case1 => exact h.letter (show (0x22, '\x22') ∈ letters by decide)
  | case2 => exact h.letter (show (0x5c, '\\') ∈ letters by decide)
  | case3 => exact h.letter (show (0x62, '\x08') ∈ letters by decide)
  | case4 => exact h.letter (show (0x66, '\x0c') ∈ letters by decide)
  | case5 => exact h.letter (show (0x6e, '\n') ∈ letters by decide)
  | case6 => exact h.letter (show (0x72, '\x0d') ∈ letters by decide)
  | case7 => exact h.letter (show (0x74, '\t') ∈ letters by decide)
  | case8 _ _ _ _ _ _ _ _ hcontrol => exact h.control hcontrol
  | case9 _ hquote hbackslash _ _ _ _ _ hcontrol =>
    rw [utf8, List.flatMap_singleton]
    exact h.append (isPlainByte_utf8 hcontrol hquote hbackslash)

/-- **A string is read back.** -/
theorem takeString_escaped (cs : List Char) (tail : List UInt8) :
    TakesString (utf8 (cs.flatMap Json.escapeChar) ++ 0x22 :: tail) (utf8 cs) tail := by
  induction cs with
  | nil => exact takesString_end tail
  | cons c cs ih =>
    rw [List.flatMap_cons, utf8_append, List.append_assoc, utf8_cons]
    exact ih.escapeChar c

/-- Its units are those of the string. -/
theorem TakesString.string? {s : String} (h : TakesString bs (utf8 s.toList) tail) :
    ∃ units, takeString bs = some (units, tail) ∧ Source.string? units = some s := by
  obtain ⟨units, htake, hbytes⟩ := h
  refine ⟨units, htake, ?_⟩
  rw [Source.string?, hbytes]
  exact fromUTF8?_utf8 s

/-- The bytes of a string with its quotes. -/
theorem utf8_quote (s : String) :
    utf8 (quote s).toList = 0x22 :: (utf8 (s.toList.flatMap Json.escapeChar) ++ [0x22]) := by
  rw [quote, String.toList_ofList, List.cons_append, utf8_cons, utf8_append]
  rfl

end TableRecords.Json
