import TableRecords.Proofs.Field.Binary
import TableRecords.Field.Type

/-!
# Integers in fields

What a field holds after it took an integer is encoded again, and as a zero only if the integer is
zero.  It is encoded as the integer itself by the types of `KeepsInteger` alone.
-/

namespace TableRecords

theorem IntKind.int64_holds (n : Int64) : IntKind.int64.Holds n.toInt := by
  have hlt := Int64.toInt_lt n
  refine ⟨Int64.le_toInt n, ?_⟩
  show n.toInt ≤ 9223372036854775807
  omega

theorem Value.isZero_real {x : Float} : (Value.real x).isZero = (x == 0) := rfl

namespace FieldType

theorem encode_int_of_int64 {k : IntKind} {n : Int64} (h : k.Holds n.toInt) :
    (int k).encode ⟨n.toInt, h⟩ = .ok (.integer n) := by
  show ofInteger n.toInt = _
  rw [ofInteger, if_pos (IntKind.int64_holds n), Int64.ofInt_toInt]

theorem decode_option_integer {t : FieldType} {n : Int64} :
    (option t).decode (.integer n) = (t.decode (.integer n)).map some := rfl

/-- **A field that took an integer holds zero only if the integer is.** -/
theorem isZero_of_decode_integer {t : FieldType} {n : Int64} {x : t.Carrier}
    (h : t.decode (.integer n) = .ok x) :
    ∃ v, t.encode x = .ok v ∧ (v.isZero = true → n = 0) := by
  induction t with
  | int k =>
    have h : decodeInteger k (.integer n) = .ok x := h
    rw [decodeInteger] at h
    split at h
    · next hk =>
      obtain rfl := Except.ok.inj h
      exact ⟨_, encode_int_of_int64 hk, by simp [Value.isZero]⟩
    · exact absurd h (by simp)
  | float32 =>
    have h : Except.ok (Binary.narrowOfInt64 n) = .ok x := h
    obtain rfl := Except.ok.inj h
    refine ⟨_, rfl, fun hzero => Classical.byContradiction fun hn => ?_⟩
    rw [ofFloat32, Value.isZero_real, Binary.widen_narrowOfInt64_beq_zero hn] at hzero
    exact absurd hzero (by simp)
  | float64 =>
    have h : Except.ok (Binary.ofInt64 n) = .ok x := h
    obtain rfl := Except.ok.inj h
    refine ⟨_, rfl, fun hzero => Classical.byContradiction fun hn => ?_⟩
    rw [Value.isZero_real, Binary.ofInt64_beq_zero hn] at hzero
    exact absurd hzero (by simp)
  | bool =>
    have h : Except.ok (n != 0) = .ok x := h
    obtain rfl := Except.ok.inj h
    refine ⟨_, rfl, fun hzero => Classical.byContradiction fun hn => ?_⟩
    have hone : ofBool (n != 0) = .integer 1 := by rw [bne_iff_ne.2 hn]; rfl
    rw [hone] at hzero
    exact absurd hzero (by decide)
  | text =>
    have h : decodeText (.integer n) = .ok x := h
    exact absurd h (by simp [decodeText])
  | bytes =>
    have h : decodeBytes (.integer n) = .ok x := h
    exact absurd h (by simp [decodeBytes])
  | value =>
    have h : Except.ok (Value.integer n) = .ok x := h
    obtain rfl := Except.ok.inj h
    exact ⟨_, rfl, by simp [Value.isZero]⟩
  | enumeration name first others =>
    have h : Except.error (CoerceError.ofKind name (.integer n)) = .ok x := h
    exact absurd h (by simp)
  | json t =>
    have h : Except.error (CoerceError.ofKind "JSON text" (.integer n)) = .ok x := h
    exact absurd h (by simp)
  | option t ih =>
    rw [decode_option_integer] at h
    cases hx : t.decode (.integer n) with
    | error e =>
      rw [hx] at h
      exact absurd h (by simp [Except.map])
    | ok y =>
      rw [hx] at h
      obtain rfl := Except.ok.inj h
      exact ih hx

/-- A field of the type takes an integer and gives it back.  A truth value does so for the two
numbers that it is stored as, and a float for none. -/
def KeepsInteger : FieldType → Int64 → Prop
  | int k, n => k.Holds n.toInt
  | bool, n => n = 0 ∨ n = 1
  | value, _ => True
  | option t, n => t.KeepsInteger n
  | _, _ => False

theorem not_keeps_of_encode {t : FieldType} {n : Int64} (h : ∀ x, t.encode x ≠ .ok (.integer n)) :
    ¬ ∃ x, t.decode (.integer n) = .ok x ∧ t.encode x = .ok (.integer n) := by
  rintro ⟨x, -, hx⟩
  exact h x hx

/-- **Which types give an integer back.** -/
theorem keepsInteger_iff {t : FieldType} {n : Int64} :
    (∃ x, t.decode (.integer n) = .ok x ∧ t.encode x = .ok (.integer n)) ↔ t.KeepsInteger n := by
  induction t with
  | int k =>
    show (∃ x, decodeInteger k (.integer n) = .ok x ∧ _) ↔ k.Holds n.toInt
    rw [decodeInteger]
    by_cases hk : k.Holds n.toInt
    · rw [dif_pos hk]
      exact iff_of_true ⟨_, rfl, encode_int_of_int64 hk⟩ hk
    · rw [dif_neg hk]
      exact iff_of_false (by simp) hk
  | bool =>
    constructor
    · rintro ⟨x, -, hx⟩
      have hx : Except.ok (ofBool x) = .ok (.integer n) := hx
      cases x with
      | false => exact .inl (Value.integer.inj (Except.ok.inj hx)).symm
      | true => exact .inr (Value.integer.inj (Except.ok.inj hx)).symm
    · rintro (rfl | rfl)
      · exact ⟨false, rfl, rfl⟩
      · exact ⟨true, rfl, rfl⟩
  | value => exact iff_of_true ⟨.integer n, rfl, rfl⟩ trivial
  | option t ih =>
    show _ ↔ t.KeepsInteger n
    rw [← ih, decode_option_integer]
    cases t.decode (.integer n) with
    | error e => simp [Except.map]
    | ok y =>
      constructor
      · rintro ⟨x, hx, hencode⟩
        obtain rfl := Except.ok.inj hx
        exact ⟨y, rfl, hencode⟩
      · rintro ⟨x, hx, hencode⟩
        obtain rfl := Except.ok.inj hx
        exact ⟨some y, rfl, hencode⟩
  -- All other types are stored as values of other kinds.
  | float32 => exact iff_of_false (not_keeps_of_encode fun x => nofun) id
  | float64 => exact iff_of_false (not_keeps_of_encode fun x => nofun) id
  | text => exact iff_of_false (not_keeps_of_encode fun x => nofun) id
  | bytes => exact iff_of_false (not_keeps_of_encode fun x => nofun) id
  | enumeration => exact iff_of_false (not_keeps_of_encode fun x => nofun) id
  | json => exact iff_of_false (not_keeps_of_encode fun x => nofun) id

end FieldType
end TableRecords
