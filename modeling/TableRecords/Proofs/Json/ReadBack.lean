import TableRecords.Proofs.Json.Integer
import TableRecords.Proofs.Json.Members

/-!
# JSON values are read back

The compact text of a value is read as this value, if it has no binary64 number and does not nest
too deep (`Plain`):

    parse?_any   : Plain maxDepth j → any.parse? j.render.toUTF8 = some j
    parse?_dict  : Plain maxDepth (.object members) → (dict any).parse? … = some (.object members)

Every part of a text tells where it ends, so that a value is read up to what may stand behind it
(`ReadsAs`).
-/

namespace TableRecords
namespace Json

open Source

/-- Values in their own form that have no binary64 number and nest at most `depth` levels deep. -/
inductive Plain : (depth : Nat) → Json → Prop where
  | null {depth : Nat} : Plain depth .null
  | bool {depth : Nat} (b : Bool) : Plain depth (.bool b)
  | integer {depth : Nat} {n : Int} (h : isReadable (.integer n) = true) :
    Plain depth (.number (.integer n))
  | text {depth : Nat} (s : String) : Plain depth (.text s)
  | array {depth : Nat} {items : List Json} (h : ∀ j ∈ items, Plain depth j) :
    Plain (depth + 1) (.array items)
  | object {depth : Nat} {members : List (String × Json)} (hsorted : Sorted members)
    (h : ∀ m ∈ members, Plain depth m.2) : Plain (depth + 1) (.object members)

/-- The bytes of a value's text. -/
def bytesOf (j : Json) : List UInt8 := utf8 j.render.toList

/-- The byte begins a value: it is no blank and closes no array. -/
def Begins (b : UInt8) : Prop := b ∉ [0x20, 0x0a, 0x09, 0x0d, 0x5d]

instance : DecidablePred Begins := fun b => inferInstanceAs (Decidable (b ∉ _))

/-- Bytes that are taken for a value, whatever may stand behind them, and judged to be `j`. -/
structure ReadsAs (bs : List UInt8) (depth : Nat) (j : Json) : Prop where
  begins : ∃ b rest, bs = b :: rest ∧ Begins b
  takes : ∀ fuel tail, 2 * bs.length < fuel → Ends tail →
    ∃ src, takeValue fuel (bs ++ tail) = some (src, tail) ∧ readAny depth src = some j

variable {depth : Nat}

theorem skipBlanks_of_begins {b : UInt8} (hb : Begins b) (rest : List UInt8) :
    skipBlanks (b :: rest) = b :: rest := by
  simp only [Begins, List.mem_cons, List.not_mem_nil, or_false, not_or] at hb
  obtain ⟨h₁, h₂, h₃, h₄, -⟩ := hb
  simp [skipBlanks, h₁, h₂, h₃, h₄]

/-! ## Scalars -/

theorem readsAs_null : ReadsAs (bytesOf .null) depth .null := by
  refine ⟨⟨0x6e, _, rfl, by decide⟩, fun fuel tail hfuel _ => ⟨.null, ?_, rfl⟩⟩
  obtain ⟨fuel, rfl⟩ := Nat.exists_eq_add_of_lt hfuel
  rfl

theorem readsAs_bool (b : Bool) : ReadsAs (bytesOf (.bool b)) depth (.bool b) := by
  cases b with
  | false =>
    refine ⟨⟨0x66, _, rfl, by decide⟩, fun fuel tail hfuel _ => ⟨.bool false, ?_, rfl⟩⟩
    obtain ⟨fuel, rfl⟩ := Nat.exists_eq_add_of_lt hfuel
    rfl
  | true =>
    refine ⟨⟨0x74, _, rfl, by decide⟩, fun fuel tail hfuel _ => ⟨.bool true, ?_, rfl⟩⟩
    obtain ⟨fuel, rfl⟩ := Nat.exists_eq_add_of_lt hfuel
    rfl

theorem readsAs_text (s : String) : ReadsAs (bytesOf (.text s)) depth (.text s) := by
  have hbytes : bytesOf (.text s) = 0x22 :: (utf8 (s.toList.flatMap escapeChar) ++ [0x22]) :=
    utf8_quote s
  refine ⟨⟨0x22, _, hbytes, by decide⟩, fun fuel tail hfuel _ => ?_⟩
  obtain ⟨units, htake, hstring⟩ := (takeString_escaped s.toList tail).string?
  obtain ⟨fuel, rfl⟩ := Nat.exists_eq_add_of_lt hfuel
  refine ⟨.text units, ?_, ?_⟩
  · rw [hbytes, List.cons_append, List.append_assoc, List.singleton_append]
    show (takeString _).map _ = _
    rw [htake]
    rfl
  · rw [readAny, hstring]
    rfl

/-- The text of an integer: a minus sign if it is negative, and the digits of its size. -/
theorem bytesOf_integer (n : Int) : bytesOf (.number (.integer n)) =
    if n < 0 then 0x2d :: utf8 (Nat.toDigits 10 n.natAbs) else utf8 (Nat.toDigits 10 n.natAbs) := by
  have hrender : Json.render (.number (.integer n)) = toString n := rfl
  rw [bytesOf, hrender]
  cases n with
  | ofNat n =>
    have hn : ¬ Int.ofNat n < 0 := Int.not_lt.2 (Int.natCast_nonneg n)
    rw [if_neg hn]
    show utf8 (Nat.repr n).toList = _
    rw [Nat.toList_repr]
    rfl
  | negSucc n =>
    rw [if_pos (Int.negSucc_lt_zero n)]
    show utf8 ("-" ++ Nat.repr (n + 1)).toList = _
    rw [String.toList_append, Nat.toList_repr, utf8_append]
    rfl

/-- Digits begin with a digit. -/
theorem exists_first_digit (n : Nat) : ∃ b rest, utf8 (Nat.toDigits 10 n) = b :: rest ∧
    ∃ d, decimalDigit? b = some d := by
  cases hdigits : Nat.toDigits 10 n with
  | nil => exact absurd hdigits Nat.toDigits_ne_nil
  | cons c cs =>
    have hc : c ∈ Nat.toDigits 10 n := by
      rw [hdigits]
      exact List.mem_cons_self
    obtain ⟨b, hb, hd⟩ := exists_digitByte (Nat.isDigit_of_mem_toDigits (by decide) (by decide) hc)
    exact ⟨b, utf8 cs, by rw [utf8_cons, hb]; rfl, _, hd⟩

/-- What begins with a digit is a number. -/
theorem takeValue_of_digit {b : UInt8} {d : Nat} (hb : decimalDigit? b = some d) (fuel : Nat)
    (rest : List UInt8) : Begins b ∧ takeValue (fuel + 1) (b :: rest) =
      (takeNumber false (b :: rest)).map fun (n, tail) => (.number n, tail) := by
  have hrange : 0x30 ≤ b.toNat ∧ b.toNat ≤ 0x39 := by
    rw [decimalDigit?] at hb
    split at hb
    · next h => exact h
    · exact absurd hb (by simp)
  obtain ⟨hlow, hhigh⟩ := hrange
  rw [← UInt8.ofNat_toNat (x := b)]
  interval_cases b.toNat <;> exact ⟨by decide, rfl⟩

theorem readsAs_integer {n : Int} (h : isReadable (.integer n) = true) :
    ReadsAs (bytesOf (.number (.integer n))) depth (.number (.integer n)) := by
  have hread : readAny depth (.number ⟨decide (n < 0), digitsOf n.natAbs, none, none⟩) =
      some (.number (.integer n)) := by
    rw [readAny, number?_integer h]
    rfl
  rw [bytesOf_integer]
  by_cases hn : n < 0
  · rw [decide_eq_true hn] at hread
    rw [if_pos hn]
    refine ⟨⟨0x2d, _, rfl, by decide⟩, fun fuel tail hfuel htail => ⟨_, ?_, hread⟩⟩
    obtain ⟨fuel, rfl⟩ := Nat.exists_eq_add_of_lt hfuel
    show (takeNumber true (utf8 (Nat.toDigits 10 n.natAbs) ++ tail)).map _ = _
    rw [takeNumber_digits true n.natAbs htail]
    rfl
  · rw [decide_eq_false hn] at hread
    rw [if_neg hn]
    obtain ⟨b, rest, hbytes, d, hd⟩ := exists_first_digit n.natAbs
    refine ⟨⟨b, rest, hbytes, (takeValue_of_digit hd 0 []).1⟩,
      fun fuel tail hfuel htail => ⟨_, ?_, hread⟩⟩
    obtain ⟨fuel, rfl⟩ := Nat.exists_eq_add_of_lt hfuel
    rw [hbytes, List.cons_append, (takeValue_of_digit hd _ _).2, ← List.cons_append, ← hbytes,
      takeNumber_digits false n.natAbs htail]
    rfl

/-! ## Lists -/

/-- The bytes of texts with commas between them. -/
def listBytes (texts : List String) : List UInt8 := utf8 (String.intercalate "," texts).toList

theorem listBytes_singleton (text : String) : listBytes [text] = utf8 text.toList := by
  rw [listBytes, String.intercalate_singleton]

theorem listBytes_cons_cons (text text' : String) (texts : List String) :
    listBytes (text :: text' :: texts) =
      utf8 text.toList ++ 0x2c :: listBytes (text' :: texts) := by
  rw [listBytes, String.intercalate_cons_cons, String.toList_append, String.toList_append,
    utf8_append, utf8_append, List.append_assoc]
  rfl

/-- The items of an array that is not empty, and its closing bracket.  One call is spent on each
item, and its value is left at least twice its length, as the comma behind it pays for the next. -/
theorem exists_takeItems {j : Json} {items : List Json}
    (h : ∀ i ∈ j :: items, ReadsAs (bytesOf i) depth i) {fuel : Nat}
    (hfuel : 2 * (listBytes (renderItems (j :: items))).length + 1 < fuel) (tail : List UInt8) :
    ∃ srcs, takeItems fuel (listBytes (renderItems (j :: items)) ++ 0x5d :: tail) =
      some (srcs, tail) ∧ readItems depth srcs = some (j :: items) := by
  induction items generalizing j fuel with
  | nil =>
    have hbytes : listBytes (renderItems [j]) = bytesOf j := listBytes_singleton j.render
    rw [hbytes] at hfuel ⊢
    obtain ⟨fuel, rfl⟩ := Nat.exists_eq_add_of_lt hfuel
    obtain ⟨src, htake, hread⟩ := (h j List.mem_cons_self).takes (2 * (bytesOf j).length + 1 + fuel)
      (0x5d :: tail) (by omega) (by simp [Ends])
    refine ⟨[src], ?_, ?_⟩
    · rw [takeItems, htake]
      rfl
    · rw [readItems, hread]
      rfl
  | cons j' items ih =>
    have hbytes : listBytes (renderItems (j :: j' :: items)) =
        bytesOf j ++ 0x2c :: listBytes (renderItems (j' :: items)) := listBytes_cons_cons ..
    rw [hbytes] at hfuel ⊢
    rw [List.length_append, List.length_cons] at hfuel
    obtain ⟨fuel, rfl⟩ : ∃ f, fuel = f + 1 := Nat.exists_eq_add_one_of_ne_zero (by omega)
    rw [List.append_assoc, List.cons_append]
    obtain ⟨src, htake, hread⟩ := (h j List.mem_cons_self).takes fuel
      (0x2c :: (listBytes (renderItems (j' :: items)) ++ 0x5d :: tail)) (by omega) (by simp [Ends])
    have hlater : 2 * (listBytes (renderItems (j' :: items))).length + 1 < fuel := by omega
    obtain ⟨srcs, htakes, hreads⟩ := ih (fun i hi => h i (List.mem_cons_of_mem _ hi)) hlater
    refine ⟨src :: srcs, ?_, ?_⟩
    · rw [takeItems, htake]
      show (takeItems fuel (listBytes (renderItems (j' :: items)) ++ 0x5d :: tail)).bind _ = _
      rw [htakes]
      rfl
    · rw [readItems, hread, hreads]
      rfl

/-- The bytes of a member. -/
theorem utf8_member (key : String) (j : Json) : utf8 (quote key ++ ":" ++ j.render).toList =
    0x22 :: (utf8 (key.toList.flatMap escapeChar) ++ 0x22 :: 0x3a :: bytesOf j) := by
  rw [String.toList_append, String.toList_append, utf8_append, utf8_append, utf8_quote,
    List.append_assoc, List.cons_append, List.append_assoc]
  rfl

/-- A member is taken, its key up to the closing quote and its value up to what stands behind it. -/
theorem exists_takeMembers_cons (key : String) {j : Json} (hj : ReadsAs (bytesOf j) depth j)
    {fuel : Nat} (hfuel : 2 * (bytesOf j).length < fuel) {rest : List UInt8} (hrest : Ends rest) :
    ∃ units src, Source.string? units = some key ∧ readAny depth src = some j ∧
      takeMembers (fuel + 1) (utf8 (quote key ++ ":" ++ j.render).toList ++ rest) =
        match skipBlanks rest with
        | 0x2c :: rest => do
          let (members, tail) ← takeMembers fuel rest
          return ((units, src) :: members, tail)
        | 0x7d :: tail => return ([(units, src)], tail)
        | _ => none := by
  obtain ⟨units, hkey, hstring⟩ :=
    (takeString_escaped key.toList (0x3a :: (bytesOf j ++ rest))).string?
  obtain ⟨src, htake, hread⟩ := hj.takes fuel rest hfuel hrest
  refine ⟨units, src, hstring, hread, ?_⟩
  rw [utf8_member, List.cons_append, List.append_assoc, List.cons_append, List.cons_append,
    takeMembers]
  show (takeString _).bind _ = _
  rw [hkey]
  show (takeValue fuel _).bind _ = _
  rw [htake]
  rfl

/-- The members of an object that is not empty, and its closing brace. -/
theorem exists_takeMembers {m : String × Json} {members : List (String × Json)}
    (h : ∀ m' ∈ m :: members, ReadsAs (bytesOf m'.2) depth m'.2) {fuel : Nat}
    (hfuel : 2 * (listBytes (renderMembers (m :: members))).length + 1 < fuel) (tail : List UInt8) :
    ∃ srcs, takeMembers fuel (listBytes (renderMembers (m :: members)) ++ 0x7d :: tail) =
      some (srcs, tail) ∧ readMembers depth srcs = some (m :: members) := by
  induction members generalizing m fuel with
  | nil =>
    obtain ⟨key, j⟩ := m
    have hbytes : listBytes (renderMembers [(key, j)]) =
        utf8 (quote key ++ ":" ++ j.render).toList := listBytes_singleton _
    have hlength : (bytesOf j).length ≤ (listBytes (renderMembers [(key, j)])).length := by
      simp only [hbytes, utf8_member, List.length_cons, List.length_append]
      omega
    obtain ⟨fuel, rfl⟩ : ∃ f, fuel = f + 1 := Nat.exists_eq_add_one_of_ne_zero (by omega)
    have hj : ReadsAs (bytesOf j) depth j := h (key, j) List.mem_cons_self
    have henough : 2 * (bytesOf j).length < fuel := by omega
    have hends : Ends (0x7d :: tail) := by simp [Ends]
    obtain ⟨units, src, hstring, hread, htake⟩ := exists_takeMembers_cons key hj henough hends
    refine ⟨[(units, src)], ?_, ?_⟩
    · rw [hbytes, htake]
      rfl
    · rw [readMembers, hstring, hread]
      rfl
  | cons m' members ih =>
    obtain ⟨key, j⟩ := m
    have hbytes : listBytes (renderMembers ((key, j) :: m' :: members)) =
        utf8 (quote key ++ ":" ++ j.render).toList ++
          0x2c :: listBytes (renderMembers (m' :: members)) := listBytes_cons_cons ..
    have hlength : (bytesOf j).length + (listBytes (renderMembers (m' :: members))).length + 1 ≤
        (listBytes (renderMembers ((key, j) :: m' :: members))).length := by
      simp only [hbytes, utf8_member, List.length_cons, List.length_append]
      omega
    obtain ⟨fuel, rfl⟩ : ∃ f, fuel = f + 1 := Nat.exists_eq_add_one_of_ne_zero (by omega)
    have hj : ReadsAs (bytesOf j) depth j := h (key, j) List.mem_cons_self
    have henough : 2 * (bytesOf j).length < fuel := by omega
    have hends : Ends (0x2c :: (listBytes (renderMembers (m' :: members)) ++ 0x7d :: tail)) := by
      simp [Ends]
    obtain ⟨units, src, hstring, hread, htake⟩ := exists_takeMembers_cons key hj henough hends
    have hlater : 2 * (listBytes (renderMembers (m' :: members))).length + 1 < fuel := by omega
    obtain ⟨srcs, htakes, hreads⟩ := ih (fun m hm => h m (List.mem_cons_of_mem _ hm)) hlater
    refine ⟨(units, src) :: srcs, ?_, ?_⟩
    · rw [hbytes, List.append_assoc, List.cons_append, htake]
      show (takeMembers fuel (listBytes (renderMembers (m' :: members)) ++ 0x7d :: tail)).bind _ = _
      rw [htakes]
      rfl
    · rw [readMembers, hstring, hread, hreads]
      rfl

/-! ## Values -/

/-- The items of an array begin as its first item does. -/
theorem begins_items {j : Json} (hj : ReadsAs (bytesOf j) depth j) (items : List Json) :
    ∃ b rest, listBytes (renderItems (j :: items)) = b :: rest ∧ Begins b := by
  obtain ⟨b, rest, hbytes, hb⟩ := hj.begins
  cases items with
  | nil => exact ⟨b, rest, (listBytes_singleton j.render).trans hbytes, hb⟩
  | cons j' items =>
    have hcons : listBytes (renderItems (j :: j' :: items)) =
        bytesOf j ++ 0x2c :: listBytes (renderItems (j' :: items)) := listBytes_cons_cons ..
    rw [hbytes, List.cons_append] at hcons
    exact ⟨b, _, hcons, hb⟩

/-- An array whose items begin with a byte that begins a value has items. -/
theorem takeValue_of_begins {b : UInt8} (hb : Begins b) (fuel : Nat) (rest : List UInt8) :
    takeValue (fuel + 1) (0x5b :: b :: rest) =
      (takeItems fuel (b :: rest)).map fun (items, tail) => (.array items, tail) := by
  have hclose : b ≠ 0x5d := by
    rintro rfl
    exact absurd hb (by decide)
  -- No branch but that of the items is left: the byte is no blank and no closing bracket.
  have hopen : skipBlanks (0x5b :: b :: rest) = 0x5b :: b :: rest := rfl
  simp [takeValue, hopen, skipBlanks_of_begins hb, hclose]

theorem readsAs_array {items : List Json} (h : ∀ j ∈ items, ReadsAs (bytesOf j) depth j) :
    ReadsAs (bytesOf (.array items)) (depth + 1) (.array items) := by
  have hbytes : bytesOf (.array items) = 0x5b :: (listBytes (renderItems items) ++ [0x5d]) := by
    rw [bytesOf, render, String.toList_append, String.toList_append, utf8_append, utf8_append]
    rfl
  refine ⟨⟨0x5b, _, hbytes, by decide⟩, fun fuel tail hfuel htail => ?_⟩
  rw [hbytes] at hfuel ⊢
  rw [List.length_cons, List.length_append, List.length_singleton] at hfuel
  obtain ⟨fuel, rfl⟩ : ∃ f, fuel = f + 1 := Nat.exists_eq_add_one_of_ne_zero (by omega)
  cases items with
  | nil => exact ⟨.array [], rfl, rfl⟩
  | cons j items =>
    have henough : 2 * (listBytes (renderItems (j :: items))).length + 1 < fuel := by omega
    obtain ⟨srcs, htakes, hreads⟩ := exists_takeItems h henough tail
    obtain ⟨b, rest, hfirst, hb⟩ := begins_items (h j List.mem_cons_self) items
    refine ⟨.array srcs, ?_, ?_⟩
    · rw [hfirst] at htakes ⊢
      rw [List.cons_append, List.append_assoc, List.cons_append, List.singleton_append,
        takeValue_of_begins hb, ← List.cons_append, htakes]
      rfl
    · rw [readAny, if_neg (Nat.succ_ne_zero depth)]
      show (readItems depth srcs).map _ = _
      rw [hreads]
      rfl

/-- The members of an object begin with a quote. -/
theorem begins_members (m : String × Json) (members : List (String × Json)) :
    ∃ rest, listBytes (renderMembers (m :: members)) = 0x22 :: rest := by
  obtain ⟨key, j⟩ := m
  cases members with
  | nil => exact ⟨_, (listBytes_singleton _).trans (utf8_member key j)⟩
  | cons m' members =>
    have hcons : listBytes (renderMembers ((key, j) :: m' :: members)) =
        utf8 (quote key ++ ":" ++ j.render).toList ++
          0x2c :: listBytes (renderMembers (m' :: members)) := listBytes_cons_cons ..
    rw [utf8_member, List.cons_append] at hcons
    exact ⟨_, hcons⟩

theorem readsAs_object {members : List (String × Json)} (hsorted : Sorted members)
    (h : ∀ m ∈ members, ReadsAs (bytesOf m.2) depth m.2) :
    ReadsAs (bytesOf (.object members)) (depth + 1) (.object members) := by
  have hbytes : bytesOf (.object members) =
      0x7b :: (listBytes (renderMembers members) ++ [0x7d]) := by
    rw [bytesOf, render, String.toList_append, String.toList_append, utf8_append, utf8_append]
    rfl
  refine ⟨⟨0x7b, _, hbytes, by decide⟩, fun fuel tail hfuel htail => ?_⟩
  rw [hbytes] at hfuel ⊢
  rw [List.length_cons, List.length_append, List.length_singleton] at hfuel
  obtain ⟨fuel, rfl⟩ : ∃ f, fuel = f + 1 := Nat.exists_eq_add_one_of_ne_zero (by omega)
  cases members with
  | nil => exact ⟨.object [], rfl, rfl⟩
  | cons m members =>
    have henough : 2 * (listBytes (renderMembers (m :: members))).length + 1 < fuel := by omega
    obtain ⟨srcs, htakes, hreads⟩ := exists_takeMembers h henough tail
    obtain ⟨rest, hfirst⟩ := begins_members m members
    refine ⟨.object srcs, ?_, ?_⟩
    · rw [hfirst] at htakes ⊢
      rw [List.cons_append, List.append_assoc, List.cons_append, List.singleton_append]
      show (takeMembers fuel (0x22 :: rest ++ 0x7d :: tail)).map _ = _
      rw [htakes]
      rfl
    · rw [readAny, if_neg (Nat.succ_ne_zero depth)]
      show (readMembers depth srcs).map _ = _
      rw [hreads]
      exact congrArg (fun ms => some (Json.object ms)) (ofMembers_eq_self hsorted)

/-- **The text of a value is taken for this value.** -/
theorem readsAs_bytesOf {j : Json} (h : Plain depth j) : ReadsAs (bytesOf j) depth j := by
  induction h with
  | null => exact readsAs_null
  | bool b => exact readsAs_bool b
  | integer h => exact readsAs_integer h
  | text s => exact readsAs_text s
  | array _ ih => exact readsAs_array ih
  | object hsorted _ ih => exact readsAs_object hsorted ih

theorem exists_parse {j : Json} (h : Plain depth j) :
    ∃ src, Source.parse j.render.toUTF8 = some src ∧ readAny depth src = some j := by
  have hends : Ends [] := by simp [Ends]
  obtain ⟨src, htake, hread⟩ := (readsAs_bytesOf h).takes (2 * (bytesOf j).length + 2) [] (by omega)
    hends
  rw [List.append_nil, bytesOf] at htake
  refine ⟨src, ?_, hread⟩
  rw [Source.parse, bytes_toUTF8, htake]
  rfl

/-! ## Types -/

theorem areCanonical_iff {items : List Json} :
    areCanonical items = true ↔ ∀ j ∈ items, j.isCanonical = true := by
  induction items with
  | nil => simp [areCanonical]
  | cons j items ih => simp [areCanonical, ih]

theorem membersCanonical_iff {members : List (String × Json)} :
    membersCanonical members = true ↔ ∀ m ∈ members, m.2.isCanonical = true := by
  induction members with
  | nil => simp [membersCanonical]
  | cons m members ih => simp [membersCanonical, ih]

theorem isCanonical_of_plain {j : Json} (h : Plain depth j) : j.isCanonical = true := by
  induction h with
  | null => rfl
  | bool b => rfl
  | integer h => exact h
  | text s => rfl
  | array _ ih =>
    rw [isCanonical]
    exact areCanonical_iff.2 ih
  | object hsorted _ ih =>
    rw [isCanonical, sortedKeys_iff.2 hsorted, membersCanonical_iff.2 ih]
    rfl

end Json

namespace JsonType

open Json

/-- The members of a free object are read as those of an object with free values. -/
theorem mapM_read_any (depth : Nat) (srcs : List (List StringUnit × Source)) :
    (srcs.mapM fun m => do return (← Source.string? m.1, ← any.read depth m.2)) =
      readMembers depth srcs := by
  induction srcs with
  | nil => rfl
  | cons m srcs ih =>
    rw [List.mapM_cons, ih, readMembers]
    cases Source.string? m.1 with
    | none => rfl
    | some key =>
      show ((any.read depth m.2).bind fun j => some (key, j)).bind _ =
        (readAny depth m.2).bind _
      rw [read]
      cases readAny depth m.2 <;> rfl

/-- What is read as a free object is an object. -/
theorem of_readAny_eq_object {depth : Nat} {src : Source} {members : List (String × Json)}
    (h : readAny depth src = some (.object members)) :
    ∃ depth' srcs ms, depth = depth' + 1 ∧ src = .object srcs ∧
      readMembers depth' srcs = some ms ∧ ofMembers ms = members := by
  cases src with
  | object srcs =>
    rw [readAny] at h
    cases depth with
    | zero => exact absurd h (by simp)
    | succ depth =>
      rw [if_neg (Nat.succ_ne_zero depth)] at h
      obtain ⟨ms, hms, heq⟩ := Option.map_eq_some_iff.1 h
      exact ⟨depth, srcs, ms, rfl, rfl, hms, Json.object.inj heq⟩
  | null => exact absurd h (by simp [readAny])
  | bool b => exact absurd h (by simp [readAny])
  | number n => exact absurd h (by simp [readAny])
  | text units => exact absurd h (by simp [readAny])
  | array items =>
    rw [readAny] at h
    split at h
    · exact absurd h (by simp)
    · exact absurd h (by simp)

/-- A free object is read as an object with free values. -/
theorem read_dict_any {depth : Nat} {src : Source} {members : List (String × Json)}
    (h : readAny depth src = some (.object members)) :
    (dict any).read depth src = some (.object members) := by
  obtain ⟨depth, srcs, ms, rfl, rfl, hms, rfl⟩ := of_readAny_eq_object h
  rw [read, mapM_read_any, hms]
  rfl

/-- **A free value is read back.** -/
theorem parse?_any {j : Json} (h : Plain maxDepth j) :
    any.parse? j.render.toUTF8 = some ⟨j, isCanonical_of_plain h⟩ := by
  obtain ⟨src, hparse, hread⟩ := exists_parse h
  rw [parse?, hparse]
  show (any.read maxDepth src).bind _ = _
  rw [read, hread]
  exact dif_pos (isCanonical_of_plain h)

theorem admits_dict_of_plain {depth : Nat} {members : List (String × Json)}
    (h : Plain depth (.object members)) : (dict any).admits (.object members) = true := by
  cases h with
  | object hsorted hmembers =>
    have hall : (members.all fun m => any.admits m.2) = true :=
      List.all_eq_true.2 fun m hm => isCanonical_of_plain (hmembers m hm)
    rw [admits, sortedKeys_iff.2 hsorted, hall]
    rfl

/-- **An object with free values is read back.** -/
theorem parse?_dict {members : List (String × Json)} (h : Plain maxDepth (.object members)) :
    (dict any).parse? (Json.object members).render.toUTF8 =
      some ⟨.object members, admits_dict_of_plain h⟩ := by
  obtain ⟨src, hparse, hread⟩ := exists_parse h
  rw [parse?, hparse]
  show ((dict any).read maxDepth src).bind _ = _
  rw [read_dict_any hread]
  exact dif_pos (admits_dict_of_plain h)

end JsonType
end TableRecords
