import TableRecords.Embedded.Cell
import TableRecords.Field.Type
import TableRecords.Proofs.Text.Utf8

/-!
# Nothing is lost at the boundary to the engine

A stored text whose bytes are no UTF-8 is read as a blob, so that no byte of it is lost: a field of
bytes takes it as it is, and a field of text takes it exactly if it is UTF-8, and is bound as the
same bytes again.  A bound value is read as the value that it was:

    boundary_loses_nothing
-/

namespace TableRecords.Embedded.Cell

open Text.Utf8 (WellFormed fromUTF8?_eq_some_iff fromUTF8?_eq_none_iff exists_toUTF8_iff)

variable {bytes : ByteArray}

/-! ## Stored texts -/

theorem toValue_text_eq_text_iff {s : String} :
    (text bytes).toValue = .text s ↔ s.toUTF8 = bytes := by
  rw [toValue, Value.ofTextBytes, ← fromUTF8?_eq_some_iff]
  cases String.fromUTF8? bytes with
  | some s' => rw [Value.text.injEq, Option.some.injEq]
  | none => exact iff_of_false Value.noConfusion nofun

theorem toValue_text_eq_blob_iff :
    (text bytes).toValue = .blob bytes ↔ ¬ WellFormed bytes.data.toList := by
  rw [toValue, Value.ofTextBytes, ← fromUTF8?_eq_none_iff]
  cases String.fromUTF8? bytes with
  | some s => exact iff_of_false Value.noConfusion nofun
  | none => exact iff_of_true rfl rfl

/-- A stored text is read as the text of its bytes, or else as a blob of them. -/
theorem toValue_text_cases (bytes : ByteArray) :
    (∃ s : String, s.toUTF8 = bytes ∧ (text bytes).toValue = .text s) ∨
      String.fromUTF8? bytes = none ∧ (text bytes).toValue = .blob bytes := by
  cases h : String.fromUTF8? bytes with
  | some s =>
    have hs := fromUTF8?_eq_some_iff.1 h
    exact .inl ⟨s, hs, toValue_text_eq_text_iff.2 hs⟩
  | none => exact .inr ⟨rfl, toValue_text_eq_blob_iff.2 (fromUTF8?_eq_none_iff.1 h)⟩

theorem exists_toValue_text_iff :
    (∃ s, (text bytes).toValue = .text s) ↔ WellFormed bytes.data.toList := by
  simp only [toValue_text_eq_text_iff, exists_toUTF8_iff]

/-! ## In fields -/

theorem decode_bytes_toValue (bytes : ByteArray) :
    FieldType.bytes.decode (text bytes).toValue = .ok bytes := by
  rcases toValue_text_cases bytes with ⟨s, rfl, hs⟩ | ⟨-, hblob⟩
  · rw [hs]
    rfl
  · rw [hblob]
    rfl

theorem decodeText_toValue_of_none (h : String.fromUTF8? bytes = none) :
    FieldType.decodeText (text bytes).toValue = .error (.mismatch "String" "non-UTF-8 blob") := by
  rw [toValue_text_eq_blob_iff.2 (fromUTF8?_eq_none_iff.1 h), FieldType.decodeText, h]

theorem decodeText_toValue_eq_ok_iff {s : String} :
    FieldType.decodeText (text bytes).toValue = .ok s ↔ s.toUTF8 = bytes := by
  rcases toValue_text_cases bytes with ⟨s', rfl, hs⟩ | ⟨hnone, -⟩
  · rw [hs, FieldType.decodeText, Except.ok.injEq, String.toUTF8_eq_toByteArray,
      String.toUTF8_eq_toByteArray, String.toByteArray_inj, eq_comm]
  · rw [decodeText_toValue_of_none hnone, ← fromUTF8?_eq_some_iff, hnone]
    exact iff_of_false (by simp) (by simp)

theorem decodeText_toValue_eq_error_iff :
    FieldType.decodeText (text bytes).toValue = .error (.mismatch "String" "non-UTF-8 blob") ↔
      ¬ WellFormed bytes.data.toList := by
  rcases toValue_text_cases bytes with ⟨s, rfl, hs⟩ | ⟨hnone, -⟩
  · rw [hs, FieldType.decodeText]
    exact iff_of_false (by simp) (not_not_intro (exists_toUTF8_iff.1 ⟨s, rfl⟩))
  · exact iff_of_true (decodeText_toValue_of_none hnone) (fromUTF8?_eq_none_iff.1 hnone)

/-! ## Bound values -/

/-- What is bound for a value is read as the value. -/
theorem toValue_bound (v : Value) : (bound v).toValue = v := by
  cases v with
  | text s => exact toValue_text_eq_text_iff.2 rfl
  | null | integer n | real x | blob b => rfl

/-- The engine gives back every value that is bound but NaN. -/
theorem toValue_ofValue_iff (v : Value) :
    (ofValue v).toValue = v ↔ ∀ x, v = .real x → x.isNaN = false := by
  cases v with
  | real x =>
    rw [ofValue, bound, taken]
    split
    · next hnan =>
      exact iff_of_false Value.noConfusion fun hx => Bool.noConfusion (hnan.symm.trans (hx x rfl))
    · next hnan =>
      exact iff_of_true rfl fun y hy => Value.real.inj hy ▸ Bool.eq_false_iff.2 hnan
  | text s => exact iff_of_true (toValue_bound (.text s)) fun x hx => Value.noConfusion hx
  | null | integer n | blob b => exact iff_of_true rfl fun x hx => Value.noConfusion hx

/-- **Nothing is lost at the boundary.**  A stored text is read as a text exactly if its bytes are
well-formed UTF-8, and else as a blob of them; a field of bytes takes these bytes as they are, and a
field of text takes just the text that is bound as them, or refuses what is no text.  What is bound
for a value is read as the value, and the engine gives back all but NaN. -/
theorem boundary_loses_nothing :
    (∀ bytes : ByteArray,
      ((∃ s, (text bytes).toValue = .text s) ↔ WellFormed bytes.data.toList) ∧
      ((text bytes).toValue = .blob bytes ↔ ¬ WellFormed bytes.data.toList) ∧
      FieldType.bytes.decode (text bytes).toValue = .ok bytes ∧
      ((∃ s, FieldType.text.decode (text bytes).toValue = .ok s) ↔
        WellFormed bytes.data.toList) ∧
      (FieldType.text.decode (text bytes).toValue =
          .error (.mismatch "String" "non-UTF-8 blob") ↔ ¬ WellFormed bytes.data.toList) ∧
      ∀ s : String, FieldType.text.decode (text bytes).toValue = .ok s ↔
        (FieldType.text.encode s).map bound = .ok (text bytes)) ∧
    (∀ v, (bound v).toValue = v) ∧
    ∀ v, (ofValue v).toValue = v ↔ ∀ x, v = .real x → x.isNaN = false := by
  refine ⟨fun bytes => ⟨exists_toValue_text_iff, toValue_text_eq_blob_iff,
    decode_bytes_toValue bytes, ?_, decodeText_toValue_eq_error_iff, fun s => ?_⟩,
    toValue_bound, toValue_ofValue_iff⟩
  · exact (exists_congr fun s => decodeText_toValue_eq_ok_iff).trans exists_toUTF8_iff
  · have hbound : (FieldType.text.encode s).map bound = .ok (text s.toUTF8) := rfl
    rw [hbound, Except.ok.injEq, text.injEq]
    exact decodeText_toValue_eq_ok_iff

end TableRecords.Embedded.Cell
