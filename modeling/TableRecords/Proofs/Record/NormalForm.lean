import TableRecords.Proofs.Field.Narrow
import TableRecords.Proofs.Scan.RoundTrip

/-!
# Normal forms of fields

What a field of the library holds is bound, unless it is a number that is too large, and read back
as it was; only something that is there and bound to NULL is read back as nothing
(`LibraryType.readAs`).  What was read is bound to a value that is read as the same, so reading and
binding bring every value that can be read to a normal form:

    T.codec.encode x = .ok v → T.codec.decode v = .ok (T.readAs x)                (decode_of_encode)
    T.codec.decode v = .ok x → ∃ w, T.codec.encode x = .ok w ∧ T.codec.decode w = .ok x
                                                                           (exists_encode_of_decode)

Of what it takes from others the library relies on one thing: a JSON text that is printed is read
back (`LibraryType.ReadsBack`).  The types are those of `FieldType` and of JSON of every kind, and
the codecs are the same (`FieldType.codec_of_library?`).
-/

namespace TableRecords

/-! ## Types -/

/-- How contents go to JSON text and back, by whatever type they have. -/
structure JsonForm where
  Content : Type
  /-- What NULL stands for. -/
  zero : Content
  /-- The text of a content, if it has one. -/
  print : Content → Option String
  parse? : ByteArray → Option Content

/-- Reads a JSON text. -/
def JsonForm.read (form : JsonForm) (bytes : ByteArray) : Except CoerceError form.Content :=
  match form.parse? bytes with
  | some j => .ok j
  | none => .error .json

/-- The codec of a field that is stored as JSON text. -/
def Codec.json (form : JsonForm) : Codec where
  Content := form.Content
  encode j := match form.print j with
    | some s => .ok (.text s)
    | none => .error .json
  decode
    | .null => .ok form.zero
    | .text s => form.read s.toUTF8
    | .blob b => form.read b
    | v => .error (.ofKind "JSON text" v)

/-- The types that the library has fields of: those of `FieldType` that no user declares, and JSON
of every type. -/
inductive LibraryType : Type 1 where
  | int (kind : IntKind)
  | float32
  | float64
  | bool
  | text
  | bytes
  | value
  | json (form : JsonForm)
  | option (t : LibraryType)

namespace LibraryType

/-- How a field of the type goes to a column and back. -/
def codec : LibraryType → Codec
  | int k => (FieldType.int k).codec
  | float32 => FieldType.float32.codec
  | float64 => FieldType.float64.codec
  | bool => FieldType.bool.codec
  | text => FieldType.text.codec
  | bytes => FieldType.bytes.codec
  | value => FieldType.value.codec
  | json form => .json form
  | option t => t.codec.option

/-- What a field of the type holds. -/
abbrev Content (T : LibraryType) : Type := T.codec.Content

/-- JSON that is held is printed, and the text is read back. -/
def ReadsBack : (T : LibraryType) → T.Content → Prop
  | json form, j => ∃ s, form.print j = some s ∧ form.parse? s.toUTF8 = some j
  | option t, x => match x with
    | none => True
    | some y => t.ReadsBack y
  | _, _ => True

/-- A number that is too large to be bound is held, perhaps in options. -/
inductive TooLarge : (T : LibraryType) → T.Content → Int → Prop where
  | number {k : IntKind} (n : k.Carrier) (hkind : k = .uint64 ∨ k = .usize)
    (hlarge : 9223372036854775807 < n.val) : TooLarge (int k) n n.val
  | something {t : LibraryType} {y : t.Content} {n : Int} (h : TooLarge t y n) :
    TooLarge (option t) (some y) n

/-- What is read back for a content: the same, but nothing for what is there and bound to NULL. -/
def readAs : (T : LibraryType) → T.Content → T.Content
  | option t, x => match x with
    | none => none
    | some y => match t.codec.encode y with
      | .ok .null => none
      | _ => some y
  | _, x => x

end LibraryType

/-! ## Types of fields -/

/-- JSON of a type, which always has a text. -/
def JsonForm.ofType (t : JsonType) : JsonForm where
  Content := t.Carrier
  zero := ⟨t.zero, t.admits_zero⟩
  print j := some j.val.render
  parse? := t.parse?

/-- The type of a field among those of the library.  Enumerations are a user's own. -/
def FieldType.library? : FieldType → Option LibraryType
  | int k => some (.int k)
  | float32 => some .float32
  | float64 => some .float64
  | bool => some .bool
  | text => some .text
  | bytes => some .bytes
  | value => some .value
  | enumeration .. => none
  | json t => some (.json (.ofType t))
  | option t => t.library?.map .option

theorem FieldType.codec_json (t : JsonType) :
    (FieldType.json t).codec = Codec.json (.ofType t) := by
  have hread : ∀ bytes, decodeJson t bytes = (JsonForm.ofType t).read bytes := by
    intro bytes
    have hparse : (JsonForm.ofType t).parse? bytes = t.parse? bytes := rfl
    unfold decodeJson JsonForm.read
    rw [hparse]
    cases t.parse? bytes <;> rfl
  have hdecode : (FieldType.json t).decode = (Codec.json (.ofType t)).decode := by
    funext v
    cases v with
    | text s => exact hread s.toUTF8
    | blob b => exact hread b
    | _ => rfl
  show (⟨_, _, _⟩ : Codec) = ⟨_, _, _⟩
  rw [hdecode]
  rfl

theorem FieldType.codec_option (t : FieldType) : (FieldType.option t).codec = t.codec.option := by
  have hencode : (FieldType.option t).encode = t.codec.option.encode := by
    funext x
    cases x <;> rfl
  have hdecode : (FieldType.option t).decode = t.codec.option.decode := by
    funext v
    cases v <;> rfl
  show (⟨_, _, _⟩ : Codec) = ⟨_, _, _⟩
  rw [hencode, hdecode]
  rfl

/-- The library's fields are bound and read as all others are. -/
theorem FieldType.codec_of_library? {t : FieldType} {T : LibraryType} (h : t.library? = some T) :
    T.codec = t.codec := by
  induction t generalizing T with
  | enumeration => exact absurd h (by simp [library?])
  | json t =>
    obtain rfl := Option.some.inj h
    exact (codec_json t).symm
  | option t ih =>
    obtain ⟨T', hT, rfl⟩ := Option.map_eq_some_iff.1 h
    rw [codec_option, ← ih hT]
    rfl
  | _ =>
    obtain rfl := Option.some.inj h
    rfl

/-! ## Codecs -/

/-- What a value is brought to by reading it and binding what was read. -/
def Codec.normal (c : Codec) (v : Value) : Except CoerceError Value := c.decode v >>= c.encode

theorem JsonForm.encode_of_print {form : JsonForm} {j : form.Content} {s : String}
    (h : form.print j = some s) : (Codec.json form).encode j = .ok (.text s) := by
  show (match form.print j with | some s => _ | none => _) = _
  rw [h]

theorem JsonForm.read_of_parse {form : JsonForm} {j : form.Content} {bytes : ByteArray}
    (h : form.parse? bytes = some j) : form.read bytes = .ok j := by
  rw [read, h]

/-- JSON is bound as text, if it is bound. -/
theorem JsonForm.exists_text_of_encode {form : JsonForm} {j : form.Content} {v : Value}
    (h : (Codec.json form).encode j = .ok v) : ∃ s, form.print j = some s ∧ v = .text s := by
  have h : (match form.print j with | some s => _ | none => _) = Except.ok v := h
  cases hs : form.print j with
  | none =>
    rw [hs] at h
    exact absurd h (by simp)
  | some s =>
    rw [hs] at h
    exact ⟨s, rfl, (Except.ok.inj h).symm⟩

theorem Codec.decode_option_of_ne (c : Codec) {v : Value} (hv : v ≠ .null) :
    c.option.decode v = (c.decode v).map some := by
  cases v with
  | null => exact absurd rfl hv
  | _ => rfl

/-- What an option is read from is NULL, or something that its content is read from. -/
theorem Codec.of_decode_option {c : Codec} {v : Value} {x : Option c.Content}
    (h : c.option.decode v = .ok x) :
    (v = .null ∧ x = none) ∨ ∃ y, v ≠ .null ∧ x = some y ∧ c.decode v = .ok y := by
  by_cases hv : v = .null
  · subst hv
    exact .inl ⟨rfl, (Except.ok.inj h).symm⟩
  · rw [decode_option_of_ne c hv] at h
    cases hy : c.decode v with
    | error e =>
      rw [hy] at h
      exact absurd h (by simp [Except.map])
    | ok y =>
      rw [hy] at h
      exact .inr ⟨y, hv, (Except.ok.inj h).symm, rfl⟩

/-- Among all numbers of fields, only large ones without sign are out of the range of 64 bits. -/
theorem IntKind.large_of_not_int64 {k : IntKind} {n : Int} (h : k.Holds n)
    (hn : ¬IntKind.int64.Holds n) :
    (k = .uint64 ∨ k = .usize) ∧ 9223372036854775807 < n := by
  have hmin : k.min ≤ n := h.1
  have hmax : n ≤ k.max := h.2
  have hn : ¬(-9223372036854775808 ≤ n ∧ n ≤ 9223372036854775807) := hn
  cases k <;> simp only [IntKind.min, IntKind.max] at hmin hmax
  case uint64 => exact ⟨.inl rfl, by omega⟩
  case usize => exact ⟨.inr rfl, by omega⟩
  all_goals omega

theorem FieldType.ofInteger_ne_null (n : Int) : ofInteger n ≠ .ok .null := by
  unfold ofInteger
  split <;> simp

/-- A decoded integer is one of 64 bits. -/
theorem FieldType.le_of_decodeInteger {k : IntKind} {v : Value} {x : k.Carrier}
    (h : decodeInteger k v = .ok x) : x.val ≤ 9223372036854775807 := by
  unfold decodeInteger at h
  split at h
  · obtain rfl := Except.ok.inj h
    show (0 : Int) ≤ _
    decide
  · next n =>
    split at h
    · obtain rfl := Except.ok.inj h
      exact (IntKind.int64_holds n).2
    · exact absurd h (by simp)
  · exact absurd h (by simp)

namespace LibraryType

/-! ## Binding -/

theorem encode_of_tooLarge {T : LibraryType} {x : T.Content} {n : Int} (h : T.TooLarge x n) :
    T.codec.encode x = .error (.outOfRange "i64" n) := by
  induction h with
  | @number k n _ hlarge =>
    show FieldType.ofInteger n.val = _
    rw [FieldType.ofInteger, if_neg fun hn => absurd hn.2 (not_le_of_gt hlarge)]
    rfl
  | something _ ih => exact ih

/-- What is not too large is bound. -/
theorem encode_or_tooLarge {T : LibraryType} {x : T.Content} (hx : T.ReadsBack x) :
    (∃ v, T.codec.encode x = .ok v) ∨ ∃ n, T.TooLarge x n := by
  induction T with
  | int k =>
    show (∃ v, FieldType.ofInteger x.val = .ok v) ∨ _
    by_cases hn : IntKind.int64.Holds x.val
    · exact .inl ⟨_, if_pos hn⟩
    · obtain ⟨hkind, hlarge⟩ := IntKind.large_of_not_int64 x.property hn
      exact .inr ⟨x.val, .number x hkind hlarge⟩
  | json form =>
    obtain ⟨s, hs, -⟩ := hx
    exact .inl ⟨.text s, JsonForm.encode_of_print hs⟩
  | option t ih =>
    cases x with
    | none => exact .inl ⟨.null, rfl⟩
    | some y =>
      rcases ih hx with ⟨v, hv⟩ | ⟨n, hn⟩
      · exact .inl ⟨v, hv⟩
      · exact .inr ⟨n, .something hn⟩
  | _ => exact .inl ⟨_, rfl⟩

/-! ## Reading back -/

theorem readAs_some_of_ne {t : LibraryType} {y : t.Content}
    (h : t.codec.encode y ≠ .ok .null) : (option t).readAs (some y) = some y := by
  show (match t.codec.encode y with | .ok .null => none | _ => some y) = _
  split
  · next hnull => exact absurd hnull h
  · rfl

theorem readAs_some_of_null {t : LibraryType} {y : t.Content}
    (h : t.codec.encode y = .ok .null) : (option t).readAs (some y) = none := by
  show (match t.codec.encode y with | .ok .null => none | _ => some y) = _
  rw [h]

theorem readAs_of_encode {T : LibraryType} {x : T.Content} {v : Value}
    (h : T.codec.encode x = .ok v) (hv : v ≠ .null) : T.readAs x = x := by
  cases T with
  | option t =>
    cases x with
    | none => rfl
    | some y =>
      have hy : t.codec.encode y = .ok v := h
      apply readAs_some_of_ne
      rw [hy]
      exact fun hnull => hv (Except.ok.inj hnull)
  | _ => rfl

/-- What is bound is read back. -/
theorem decode_of_encode {T : LibraryType} {x : T.Content} {v : Value} (hx : T.ReadsBack x)
    (h : T.codec.encode x = .ok v) : T.codec.decode v = .ok (T.readAs x) := by
  induction T with
  | int k => exact FieldType.decodeInteger_ofInteger x h
  | float32 =>
    obtain rfl := Except.ok.inj h
    exact congrArg Except.ok (Binary.narrow_widen x)
  | bool =>
    obtain rfl := Except.ok.inj h
    exact FieldType.decodeBool_ofBool x
  | json form =>
    obtain ⟨s, hs, rfl⟩ := JsonForm.exists_text_of_encode h
    obtain ⟨s', hs', hparse⟩ := hx
    obtain rfl : s' = s := Option.some.inj (hs'.symm.trans hs)
    exact JsonForm.read_of_parse hparse
  | option t ih =>
    cases x with
    | none =>
      obtain rfl := Except.ok.inj h
      rfl
    | some y =>
      have hy : t.codec.encode y = .ok v := h
      by_cases hv : v = .null
      · subst hv
        rw [readAs_some_of_null hy]
        rfl
      · have hne : t.codec.encode y ≠ .ok .null := fun hnull =>
          hv (Except.ok.inj (hy.symm.trans hnull))
        have hback := ih hx hy
        rw [readAs_of_encode hy hv] at hback
        rw [readAs_some_of_ne hne]
        show t.codec.option.decode v = _
        rw [Codec.decode_option_of_ne _ hv, hback]
        rfl
  | _ =>
    obtain rfl := Except.ok.inj h
    rfl

/-! ## Normal forms -/

/-- What is read from something other than NULL is not bound to NULL. -/
theorem encode_ne_null_of_decode {T : LibraryType} {x : T.Content} {v : Value}
    (h : T.codec.decode v = .ok x) (hv : v ≠ .null) : T.codec.encode x ≠ .ok .null := by
  induction T with
  | int k => exact FieldType.ofInteger_ne_null x.val
  | value =>
    obtain rfl : v = x := Except.ok.inj h
    exact fun hnull => hv (Except.ok.inj hnull)
  | json form =>
    intro hnull
    obtain ⟨s, -, htext⟩ := JsonForm.exists_text_of_encode hnull
    exact absurd htext (by simp)
  | option t ih =>
    rcases Codec.of_decode_option h with ⟨hnull, -⟩ | ⟨y, -, rfl, hy⟩
    · exact absurd hnull hv
    · exact ih hy
  | _ => exact fun hnull => nomatch hnull

theorem not_tooLarge_of_decode {T : LibraryType} {x : T.Content} {v : Value}
    (h : T.codec.decode v = .ok x) (n : Int) : ¬T.TooLarge x n := by
  intro hlarge
  induction hlarge generalizing v with
  | number m _ hm => exact absurd (FieldType.le_of_decodeInteger h) (not_le_of_gt hm)
  | something _ ih =>
    rcases Codec.of_decode_option h with ⟨-, hnone⟩ | ⟨y, -, hy, hdecode⟩
    · exact absurd hnone (by simp)
    · obtain rfl := Option.some.inj hy
      exact ih hdecode

theorem readAs_of_decode {T : LibraryType} {x : T.Content} {v : Value}
    (h : T.codec.decode v = .ok x) : T.readAs x = x := by
  cases T with
  | option t =>
    rcases Codec.of_decode_option h with ⟨-, rfl⟩ | ⟨y, hv, rfl, hy⟩
    · rfl
    · exact readAs_some_of_ne (encode_ne_null_of_decode hy hv)
  | _ => rfl

/-- **What was read is bound, and read again.** -/
theorem exists_encode_of_decode {T : LibraryType} {x : T.Content} {v : Value}
    (h : T.codec.decode v = .ok x) (hx : T.ReadsBack x) :
    ∃ w, T.codec.encode x = .ok w ∧ T.codec.decode w = .ok x := by
  rcases encode_or_tooLarge hx with ⟨w, hw⟩ | ⟨n, hn⟩
  · have hback := decode_of_encode hx hw
    rw [readAs_of_decode h] at hback
    exact ⟨w, hw, hback⟩
  · exact absurd hn (not_tooLarge_of_decode h n)

/-! ## Main result -/

/-- What a field of the type holds is bound and read back, and what is read is in normal form. -/
structure Lawful (T : LibraryType) : Prop where
  /-- All that a field holds is bound, but for a number that is too large. -/
  encodes_iff : ∀ x, T.ReadsBack x → ((∃ v, T.codec.encode x = .ok v) ↔ ∀ n, ¬T.TooLarge x n)
  tooLarge : ∀ x n, T.TooLarge x n → T.codec.encode x = .error (.outOfRange "i64" n)
  /-- What is bound is read back, but something that is bound to NULL as nothing. -/
  decode_encode : ∀ x v, T.ReadsBack x → T.codec.encode x = .ok v →
    T.codec.decode v = .ok (T.readAs x)
  /-- What was read is bound, and read again. -/
  encode_decode : ∀ v x, T.codec.decode v = .ok x → T.ReadsBack x →
    ∃ w, T.codec.encode x = .ok w ∧ T.codec.decode w = .ok x
  /-- A normal form is its own. -/
  normal_idem : ∀ v w, T.codec.normal v = .ok w → (∀ x, T.codec.decode v = .ok x → T.ReadsBack x) →
    T.codec.normal w = .ok w

theorem lawful (T : LibraryType) : T.Lawful where
  encodes_iff x hx := by
    constructor
    · rintro ⟨v, hv⟩ n hn
      exact absurd (hv.symm.trans (encode_of_tooLarge hn)) (by simp)
    · intro h
      rcases encode_or_tooLarge hx with hv | ⟨n, hn⟩
      · exact hv
      · exact absurd hn (h n)
  tooLarge x n h := encode_of_tooLarge h
  decode_encode x v hx h := decode_of_encode hx h
  encode_decode v x h hx := exists_encode_of_decode h hx
  normal_idem v w h hreads := by
    obtain ⟨x, hx, hencode⟩ := bind_eq_ok_iff.1 h
    obtain ⟨w', hw, hdecode⟩ := exists_encode_of_decode hx (hreads x hx)
    obtain rfl : w' = w := Except.ok.inj (hw.symm.trans hencode)
    exact bind_eq_ok_iff.2 ⟨x, hdecode, hw⟩

/-- A field that took an integer is assigned, unless the integer is zero. -/
theorem keepsAssigned (T : LibraryType) : T.codec.KeepsAssigned := by
  induction T with
  | json form =>
    intro n x h
    have h : Except.error (CoerceError.ofKind "JSON text" (.integer n)) = .ok x := h
    exact absurd h (by simp)
  | option t ih =>
    intro n x h
    rcases Codec.of_decode_option h with ⟨hnull, -⟩ | ⟨y, -, rfl, hy⟩
    · exact absurd hnull (by simp)
    · exact ih n y hy
  | int k => exact FieldType.keepsAssigned (.int k)
  | float32 => exact FieldType.keepsAssigned .float32
  | float64 => exact FieldType.keepsAssigned .float64
  | bool => exact FieldType.keepsAssigned .bool
  | text => exact FieldType.keepsAssigned .text
  | bytes => exact FieldType.keepsAssigned .bytes
  | value => exact FieldType.keepsAssigned .value

end LibraryType

/-- The codec of a field of the library: of a type of `FieldType`, or of JSON of any type. -/
inductive Codec.OfLibrary : Codec → Prop where
  | fieldType (t : FieldType) : OfLibrary t.codec
  | libraryType (T : LibraryType) : OfLibrary T.codec

theorem Codec.OfLibrary.keepsAssigned {c : Codec} (h : c.OfLibrary) : c.KeepsAssigned := by
  cases h with
  | fieldType t => exact t.keepsAssigned
  | libraryType T => exact T.keepsAssigned

/-- **Fields of the library keep what they hold.**  This is so for every type, and the codecs are
those that fields have. -/
theorem codecs_lawful :
    (∀ T : LibraryType, T.Lawful) ∧
    ∀ (t : FieldType) (T : LibraryType), t.library? = some T → T.codec = t.codec :=
  ⟨LibraryType.lawful, fun _ _ => FieldType.codec_of_library?⟩

theorem codecs_lawful_nested :
    (LibraryType.option (.option .value)).codec.decode .null = .ok none ∧
    (LibraryType.option (.int .uint64)).codec.encode (some ⟨9223372036854775808, by decide⟩) =
      .error (.outOfRange "i64" 9223372036854775808) ∧
    ∃ w, (LibraryType.option (.json (.ofType .any))).codec.encode
      (some ⟨.array [.bool true, .null], rfl⟩) = .ok w ∧
        (LibraryType.option (.json (.ofType .any))).codec.decode w =
          .ok (some ⟨.array [.bool true, .null], rfl⟩) := by
  have hnull := (codecs_lawful.1 (.option (.option .value))).decode_encode
    (some (some Value.null)) .null trivial rfl
  have hlarge : (LibraryType.option (.int .uint64)).TooLarge
      (some ⟨9223372036854775808, by decide⟩) 9223372036854775808 :=
    .something (.number ⟨9223372036854775808, by decide⟩ (.inl rfl) (by decide))
  have htext : (LibraryType.option (.json (.ofType .any))).codec.decode
      (.text "[ true , null ]") = .ok (some ⟨.array [.bool true, .null], rfl⟩) := by
    rfl
  have hreads : (LibraryType.option (.json (.ofType .any))).ReadsBack
      (some ⟨.array [.bool true, .null], rfl⟩) := ⟨"[true,null]", rfl, rfl⟩
  exact ⟨hnull, (codecs_lawful.1 _).tooLarge _ _ hlarge,
    (codecs_lawful.1 _).encode_decode _ _ htext hreads⟩

end TableRecords
