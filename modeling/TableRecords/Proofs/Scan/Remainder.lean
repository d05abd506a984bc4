import TableRecords.Proofs.Json.ReadBack
import TableRecords.Proofs.Record.NormalForm
import TableRecords.Proofs.Scan.Copies
import TableRecords.Proofs.Text.Base64

/-!
# Columns without a field

A record that has a remainder field loses no column of a row.  Those that belong to no mapped field
are the members of a JSON object (`Captures`), and the text of this object is what the remainder
field is set from:

    row_captures : a row that is copied leaves its columns without a field in the remainder field

This is so with every JSON library whose base64 is the standard one.  A remainder field for a map
holds the members of this object if the type of the map reads back what the library printed of
objects without binary64 numbers (`JsonForm.ReadsMaps`).
-/

namespace TableRecords

variable {ρ : Type} {type : RecordType ρ}

/-! ## Members -/

/-- The JSON form of a value: a number if it is one, the text of a text, base64 of a blob, and
`null` of everything else. -/
inductive Value.CapturedAs : Value → Json → Prop where
  | null : CapturedAs .null .null
  | integer (n : Int64) : CapturedAs (.integer n) (.number (.integer n.toInt))
  | finite {x : Float} (h : x.isFinite = true) : CapturedAs (.real x) (.number (.real x))
  | other {x : Float} (h : x.isFinite = false) : CapturedAs (.real x) .null
  | text (s : String) : CapturedAs (.text s) (.text s)
  | blob {bytes : ByteArray} {s : String} {digits : List Nat} {padding : Nat}
    (h : Text.Base64.Writes bytes.data.toList s.toList digits padding) :
    CapturedAs (.blob bytes) (.text s)

/-- Bytes are written as base64, in the standard alphabet and with padding. -/
def JsonLibrary.WritesBase64 [JsonLibrary] : Prop :=
  ∀ bytes : ByteArray, ∃ digits padding,
    Text.Base64.Writes bytes.data.toList (base64 bytes).toList digits padding

theorem Value.capturedAs_toJson [JsonLibrary] (hbase64 : JsonLibrary.WritesBase64) (v : Value) :
    v.CapturedAs v.toJson := by
  cases v with
  | null => exact .null
  | integer n => exact .integer n
  | real x =>
    rw [toJson]
    split
    · next h => exact .finite h
    · next h => exact .other (Bool.not_eq_true _ ▸ h)
  | text s => exact .text s
  | blob bytes =>
    obtain ⟨digits, padding, hwrites⟩ := hbase64 bytes
    exact .blob hwrites

/-- A JSON value that a column without a field leaves if it holds no binary64 number. -/
inductive Json.Exact : Json → Prop where
  | null : Exact .null
  | integer (n : Int64) : Exact (.number (.integer n.toInt))
  | text (s : String) : Exact (.text s)

theorem Value.CapturedAs.exact {v : Value} {j : Json} (h : v.CapturedAs j)
    (hreal : ∀ x, v ≠ .real x) : j.Exact := by
  cases h with
  | null => exact .null
  | integer n => exact .integer n
  | finite => exact absurd rfl (hreal _)
  | other => exact absurd rfl (hreal _)
  | text s => exact .text s
  | blob => exact .text _

namespace Scan

section

variable {m : Mapping}

/-- The members are the columns of a row without a field, as they are spelled there, each with the
JSON form of the last value in a column of this spelling. -/
structure Captures (m : Mapping) (names : List String) (values : List Value)
    (members : List (String × Json)) : Prop where
  sorted : Json.Sorted members
  keys : ∀ name, (∃ j, (name, j) ∈ members) ↔ name ∈ names ∧ m.indexOf? name = none
  values : ∀ name j, (name, j) ∈ members → ∃ v,
    lastWhere (fun other => other = name) (names.zip values) = some v ∧ v.CapturedAs j

theorem exists_lastWhere_iff {names : List String} {values : List Value}
    (hlength : values.length = names.length) (name : String) :
    (∃ v, lastWhere (fun other => other = name) (names.zip values) = some v) ↔ name ∈ names := by
  have hnames : (names.zip values).map Prod.fst = names := List.map_fst_zip hlength.ge
  rw [← Option.ne_none_iff_exists', ne_eq, lastWhere_eq_none_iff]
  constructor
  · intro h
    by_contra hname
    refine h fun c hc => decide_eq_false ?_
    rintro rfl
    exact hname (hnames ▸ List.mem_map_of_mem hc)
  · intro hname h
    rw [← hnames] at hname
    obtain ⟨c, hc, rfl⟩ := List.mem_map.1 hname
    exact absurd (h c hc) (by simp)

/-- Without binary64 numbers the members are exact. -/
theorem Captures.exact {names : List String} {values : List Value}
    {members : List (String × Json)} (h : Captures m names values members)
    (hreals : ∀ x, Value.real x ∉ values) : ∀ member ∈ members, member.2.Exact := by
  rintro ⟨name, j⟩ hj
  obtain ⟨v, hv, hcaptured⟩ := h.values name j hj
  refine hcaptured.exact fun x hx => hreals x ?_
  obtain ⟨c, hfind, rfl⟩ := Option.map_eq_some_iff.1 hv
  have hc : c ∈ names.zip values := List.mem_reverse.1 (List.mem_of_find?_eq_some hfind)
  rw [← hx]
  exact (List.of_mem_zip hc).2

variable [JsonLibrary]

theorem captured_append (m : Mapping) (cells : List (String × Value)) (name : String) (v : Value) :
    captured m [] (cells ++ [(name, v)]) =
      if m.indexOf? name = none then Json.insertMember name v.toJson (captured m [] cells)
      else captured m [] cells :=
  List.foldl_append

theorem sorted_captured (m : Mapping) (cells : List (String × Value)) :
    Json.Sorted (captured m [] cells) := by
  induction cells using List.reverseRecOn with
  | nil => exact List.Pairwise.nil
  | append_singleton cells c ih =>
    rw [captured_append]
    split
    · exact Json.sorted_insertMember ih
    · exact ih

/-- The members that a row leaves. -/
theorem mem_captured_iff (m : Mapping) (cells : List (String × Value)) (name : String) (j : Json) :
    (name, j) ∈ captured m [] cells ↔ m.indexOf? name = none ∧
      ∃ v, lastWhere (fun other => other = name) cells = some v ∧ v.toJson = j := by
  -- The induction is on the last column, which decides for its own name and no other.
  induction cells using List.reverseRecOn with
  | nil => simp [captured, lastWhere]
  | append_singleton cells c ih =>
    obtain ⟨last, w⟩ := c
    rw [captured_append, lastWhere_append, lastWhere_singleton]
    by_cases hlast : m.indexOf? last = none
    · rw [if_pos hlast, Json.mem_insertMember (sorted_captured m cells)]
      by_cases hname : last = name
      · subst hname
        simp [hlast, eq_comm]
      · simp [hname, Ne.symm hname, ih]
    · rw [if_neg hlast, ih]
      by_cases hname : last = name
      · subst hname
        simp [hlast]
      · simp [hname]

theorem captures_captured (hbase64 : JsonLibrary.WritesBase64) {names : List String}
    {values : List Value} (hlength : values.length = names.length) :
    Captures m names values (captured m [] (names.zip values)) := by
  have hmem := mem_captured_iff m (names.zip values)
  refine ⟨sorted_captured m _, fun name => ?_, fun name j hj => ?_⟩
  · rw [← exists_lastWhere_iff hlength name]
    constructor
    · rintro ⟨j, hj⟩
      obtain ⟨hname, v, hv, -⟩ := (hmem name j).1 hj
      exact ⟨⟨v, hv⟩, hname⟩
    · rintro ⟨⟨v, hv⟩, hname⟩
      exact ⟨v.toJson, (hmem name v.toJson).2 ⟨hname, v, hv, rfl⟩⟩
  · obtain ⟨-, v, hv, rfl⟩ := (hmem name j).1 hj
    exact ⟨v, hv, v.capturedAs_toJson hbase64⟩

theorem captured_eq_nil_iff {names : List String} {values : List Value}
    (hlength : values.length = names.length) :
    captured m [] (names.zip values) = [] ↔ ∀ name ∈ names, m.indexOf? name ≠ none := by
  rw [List.eq_nil_iff_forall_not_mem]
  constructor
  · intro h name hname hnone
    obtain ⟨v, hv⟩ := (exists_lastWhere_iff hlength name).2 hname
    exact h (name, v.toJson) ((mem_captured_iff m _ name _).2 ⟨hnone, v, hv, rfl⟩)
  · rintro h ⟨name, j⟩ hj
    obtain ⟨hnone, v, hv, -⟩ := (mem_captured_iff m _ name j).1 hj
    exact h name ((exists_lastWhere_iff hlength name).1 ⟨v, hv⟩) hnone

/-- There is something to put into the remainder field exactly if a column has no field. -/
theorem remainderText?_eq_none_iff {names : List String} {values : List Value}
    (hlength : values.length = names.length) :
    remainderText? m (names.zip values) = none ↔ ∀ name ∈ names, m.indexOf? name ≠ none := by
  rw [← captured_eq_nil_iff hlength, remainderText?]
  split
  · next hnil => exact iff_of_true rfl hnil
  · next hne => exact iff_of_false (by simp) hne

theorem print_of_remainderText? {cells : List (String × Value)} {text : String}
    (h : remainderText? m cells = some text) :
    JsonLibrary.print (.object (captured m [] cells)) = text := by
  rw [remainderText?] at h
  split at h
  · exact absurd h (by simp)
  · exact Option.some.inj h

end

end Scan

/-! ## Reading back -/

/-- A type of maps reads back what was printed of objects without binary64 numbers: each as a map
with the members of the object. -/
def JsonForm.ReadsMaps [JsonLibrary] (form : JsonForm)
    (entries : form.Content → List (String × Json)) : Prop :=
  ∀ members, Json.Sorted members → (∀ member ∈ members, member.2.Exact) →
    ∃ x, form.parse? (JsonLibrary.print (.object members)).toUTF8 = some x ∧ entries x = members

/-- Maps of which each is printed as its object is, and read back, are of this kind. -/
theorem JsonForm.readsMaps_of_readsBack [JsonLibrary] {form : JsonForm}
    {entries : form.Content → List (String × Json)}
    (h : ∀ members, Json.Sorted members → (∀ member ∈ members, member.2.Exact) →
      ∃ x, entries x = members ∧ form.print x = some (JsonLibrary.print (.object members)) ∧
        (LibraryType.json form).ReadsBack x) : form.ReadsMaps entries := by
  intro members hsorted hexact
  obtain ⟨x, hentries, hprint, text, htext, hparse⟩ := h members hsorted hexact
  obtain rfl := Option.some.inj (hprint.symm.trans htext)
  exact ⟨x, hparse, hentries⟩

/-- The content of a JSON field is a map with some members. -/
inductive Codec.HoldsMembers (form : JsonForm) (entries : form.Content → List (String × Json))
    (members : List (String × Json)) : (c : Codec) → c.Content → Prop where
  | json (x : form.Content) (h : entries x = members) :
    HoldsMembers form entries members (.json form) x

theorem Codec.holdsMembers_of_decode [JsonLibrary] {c : Codec} {form : JsonForm}
    {entries : form.Content → List (String × Json)} (hc : c = .json form)
    (hreads : form.ReadsMaps entries) {members : List (String × Json)}
    (hsorted : Json.Sorted members) (hexact : ∀ member ∈ members, member.2.Exact) {x : c.Content}
    (h : c.decode (.text (JsonLibrary.print (.object members))) = .ok x) :
    c.HoldsMembers form entries members x := by
  subst hc
  obtain ⟨y, hparse, hentries⟩ := hreads members hsorted hexact
  have hread : form.read (JsonLibrary.print (.object members)).toUTF8 = .ok x := h
  rw [JsonForm.read_of_parse hparse] at hread
  obtain rfl := Except.ok.inj hread
  exact .json _ hentries

/-! ## Main result -/

namespace Scan

variable {m : Mapping}

/-- What a copied row leaves in the remainder field. -/
structure RowCaptured [JsonLibrary] (F : type.Fields) (m : Mapping) (f : RemainderField)
    (names : List String) (values : List Value) (d d' : ρ) : Prop where
  width : values.length = names.length
  /-- The remainder field has no column, so that it takes no part in what a name belongs to. -/
  unmatched_iff : ∀ name, m.indexOf? name = none ↔
    ∀ i, Text.sameIgnoringCase (m.field i).column name = false
  captures : (∃ name ∈ names, m.indexOf? name = none) → ∃ members,
    Captures m names values members ∧
    F.Decodes f.path (.text (JsonLibrary.print (.object members))) d' ∧
    ((∀ x, Value.real x ∉ values) → ∀ p form entries, F.path p = f.path →
      F.codec p = .json form → form.ReadsMaps entries →
        (F.codec p).HoldsMembers form entries members (F.read p d'))
  keeps : (∀ name ∈ names, m.indexOf? name ≠ none) → F.Keeps f.path d d'

/-- **No column is lost.**  What a copied row has in columns without a field is in the text that the
remainder field is set from, by the columns' own names, and in the map that it then holds if it is
one of JSON values and the row has no binary64 number. -/
theorem row_captures [JsonLibrary] (hbase64 : JsonLibrary.WritesBase64) (F : type.Fields)
    (hm : type.mapping = .ok m) {f : RemainderField} (hf : m.remainder = some f)
    {names : List String} {values : List Value} {d d' : ρ}
    (h : (row m type names values).exec d = (.ok (), d')) :
    RowCaptured F m f names values d d' := by
  have hrun := rowRun_row F hm names values d
  rw [h] at hrun
  have hunmatched := Mapping.indexOf?_eq_none_iff hm
  cases hrun with
  | copied hlength _ _ hkeeps hnothing =>
    refine ⟨hlength, hunmatched, fun hsome => ?_, fun _ => hkeeps f hf⟩
    obtain ⟨name, hname, hnone⟩ := hsome
    rcases hnothing with hnothing | hnothing
    · exact absurd (hf.symm.trans hnothing) (by simp)
    · exact absurd hnone ((remainderText?_eq_none_iff hlength).1 hnothing name hname)
  | @filled d₁ _ g text hlength _ _ _ hg htext hset =>
    obtain rfl : f = g := Option.some.inj (hf.symm.trans hg)
    have hdecodes := (F.of_set_eq_ok (addresses_remainder hm hf) hset).1
    rw [← print_of_remainderText? htext] at hdecodes
    have hcaptures := captures_captured (m := m) hbase64 hlength
    refine ⟨hlength, hunmatched, fun _ => ?_, fun hnone => ?_⟩
    · refine ⟨_, hcaptures, hdecodes, fun hreals p form entries hp hcodec hreads => ?_⟩
      obtain ⟨q, hq, hdecode⟩ := hdecodes
      obtain rfl : q = p := F.path_injective (hq.trans hp.symm)
      exact Codec.holdsMembers_of_decode hcodec hreads hcaptures.sorted (hcaptures.exact hreals)
        hdecode
    · exact absurd ((remainderText?_eq_none_iff hlength).2 hnone) (by simp [htext])

/-! ## A sensor with more columns -/

theorem writesBase64_standard : JsonLibrary.WritesBase64 := by
  intro bytes
  obtain ⟨digits, padding, hwrites⟩ := Text.Base64.writes_encodeBytes bytes.data.toList
  rw [← String.toList_ofList (l := Text.Base64.encodeBytes bytes.data.toList)] at hwrites
  exact ⟨digits, padding, hwrites⟩

theorem plain_of_exact {j : Json} (h : j.Exact) (depth : Nat) : Json.Plain depth j := by
  cases h with
  | null => exact .null
  | integer n =>
    have hn := IntKind.int64_holds n
    refine .integer ?_
    rw [Json.isReadable, Bool.and_eq_true, decide_eq_true_iff, decide_eq_true_iff]
    exact ⟨hn.1, hn.2.trans (by decide)⟩
  | text s => exact .text s

/-- The members of an object. -/
def membersOf (x : (JsonType.dict .any).Carrier) : List (String × Json) :=
  match x.val with
  | .object members => members
  | _ => []

/-- Objects with free values are read back. -/
theorem readsMaps_dict : (JsonForm.ofType (.dict .any)).ReadsMaps membersOf := by
  refine JsonForm.readsMaps_of_readsBack fun members hsorted hexact => ?_
  -- The object itself is one level, and its members nest no deeper.
  have hplain : Json.Plain (126 + 1) (.object members) :=
    .object hsorted fun member hmember => plain_of_exact (hexact member hmember) 126
  exact ⟨⟨.object members, JsonType.admits_dict_of_plain hplain⟩, rfl, rfl, _, rfl,
    JsonType.parse?_dict hplain⟩

/-- The sensor with another id, and what it has in columns without a field. -/
def extendedSensor (id : Int64) (rest : (JsonType.dict .any).Carrier) : sensorShape.Data :=
  (⟨id.toInt, IntKind.int64_holds id⟩, sensor.2.1, sensor.2.2.1, sensor.2.2.2.1, rest, ())

/-- What a sensor has in three columns without a field. -/
def restOfSensor : (JsonType.dict .any).Carrier :=
  ⟨.object [("Note", .text "/w=="), ("note", .number (.integer 2)), ("rest", .text "a")], rfl⟩

/-- A column is captured that is spelled as the remainder field is, and so are two that differ in
letter case, of one of which the second value counts. -/
theorem row_captures_sensor :
    (JsonLibrary.WritesBase64 ∧ sensorMapping.remainder = some ⟨"rest", [4]⟩ ∧
      (JsonForm.ofType (.dict .any)).ReadsMaps membersOf ∧
      ∃ p, sensorFields.path p = [4] ∧ sensorFields.codec p = .json (.ofType (.dict .any))) ∧
    (row sensorMapping sensorType ["rest", "ID", "note", "Note", "note"]
      [.text "a", .integer 9, .integer 1, .blob ⟨#[0xff]⟩, .integer 2]).exec sensor =
        (.ok (), extendedSensor 9 restOfSensor) ∧
    RowCaptured sensorFields sensorMapping ⟨"rest", [4]⟩ ["rest", "ID", "note", "Note", "note"]
      [.text "a", .integer 9, .integer 1, .blob ⟨#[0xff]⟩, .integer 2] sensor
        (extendedSensor 9 restOfSensor) := by
  have hrow : (row sensorMapping sensorType ["rest", "ID", "note", "Note", "note"]
      [.text "a", .integer 9, .integer 1, .blob ⟨#[0xff]⟩, .integer 2]).exec sensor =
        (.ok (), extendedSensor 9 restOfSensor) := by
    rfl
  have hrest : sensorMapping.remainder = some ⟨"rest", [4]⟩ := rfl
  refine ⟨⟨writesBase64_standard, hrest, readsMaps_dict, ?_⟩, hrow,
    row_captures writesBase64_standard sensorFields mapping_sensorShape hrest hrow⟩
  exact ⟨.behindPlain (.behindPlain (.behindPlain (.behindEmbed .here))), rfl,
    FieldType.codec_json _⟩

end Scan
end TableRecords
