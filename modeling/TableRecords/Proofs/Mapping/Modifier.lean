import TableRecords.Mapping.Tag
import TableRecords.Proofs.Except

/-!
# The modifiers of a tag

Reading a tag, told by its parts: a column without blanks, and words that stand for modifiers which
one field can have, none of them twice.

    words.foldlM (addWord text) tag = .ok tag' ↔ …                     (addWords_eq_ok_iff)
    Tag.parse text = .ok p ↔ … ∧ p = Tag.ofModifiers column modifiers         (parse_eq_ok_iff)
    Tag.parse text = .ok p → (p.has modifier ↔ ∃ word ∈ …, Modifier.ofName? word = some modifier)
                                                                       (has_of_parse_iff)
-/

namespace TableRecords

/-! ## Words -/

/-- The word stands for the modifier. -/
inductive Modifier.Names : String → Modifier → Prop
  | pk : Names "pk" .primaryKey
  | primaryKey : Names "primary_key" .primaryKey
  | generated : Names "generated" .generated
  | remainder : Names "remainder" .remainder
  | embed : Names "embed" .embed

theorem Modifier.ofName?_eq_some_iff {word : String} {m : Modifier} :
    Modifier.ofName? word = some m ↔ Names word m := by
  constructor
  · intro h
    unfold ofName? at h
    split at h
    · exact Option.some.inj h ▸ .pk
    · exact Option.some.inj h ▸ .primaryKey
    · exact Option.some.inj h ▸ .generated
    · exact Option.some.inj h ▸ .remainder
    · exact Option.some.inj h ▸ .embed
    · exact absurd h (by simp)
  · rintro ⟨⟩ <;> rfl

/-- A word stands for one modifier. -/
theorem Modifier.Names.unique {word : String} {m m' : Modifier} (h : Names word m)
    (h' : Names word m') : m = m' :=
  Option.some.inj ((ofName?_eq_some_iff.2 h).symm.trans (ofName?_eq_some_iff.2 h'))

theorem Modifier.mem_iff_of_names {words : List String} {ms : List Modifier}
    (h : List.Forall₂ Names words ms) (modifier : Modifier) :
    modifier ∈ ms ↔ ∃ word ∈ words, Names word modifier := by
  induction h with
  | nil => simp
  | cons hword _ ih =>
    rw [List.mem_cons, ih, List.exists_mem_cons_iff]
    exact or_congr_left ⟨fun h => h ▸ hword, fun h => h.unique hword⟩

/-- One field can have these modifiers. -/
structure Modifier.GoTogether (has : Modifier → Prop) : Prop where
  /-- What takes the remainder is nothing else. -/
  alone : has .remainder → ∀ m, has m → m = .remainder
  /-- What holds a record is not a single column. -/
  manyColumns : has .embed → ¬has .primaryKey ∧ ¬has .generated

namespace Tag

/-- Only one word says that a field holds a record. -/
theorem ofName?_eq_embed_iff (word : String) :
    Modifier.ofName? word = some .embed ↔ word = "embed" := by
  rw [Modifier.ofName?_eq_some_iff]
  exact ⟨fun | .embed => rfl, fun h => h ▸ .embed⟩

/-! ## Setting modifiers -/

theorem has_add_iff (tag : Tag) (m modifier : Modifier) :
    (tag.add m).has modifier = true ↔ modifier = m ∨ tag.has modifier = true := by
  cases m <;> cases modifier <;> simp [add, has]

@[simp] theorem column_add (tag : Tag) (m : Modifier) : (tag.add m).column = tag.column := by
  cases m <;> rfl

/-- A tag is its column and what it says of each modifier. -/
theorem ext_has {tag tag' : Tag} (hcolumn : tag.column = tag'.column)
    (h : ∀ m, tag.has m = true ↔ tag'.has m = true) : tag = tag' := by
  have h : ∀ m, tag.has m = tag'.has m := fun m => Bool.eq_iff_iff.2 (h m)
  obtain ⟨column, primaryKey, generated, remainder, embed⟩ := tag
  obtain rfl : column = tag'.column := hcolumn
  obtain rfl : primaryKey = tag'.primaryKey := h .primaryKey
  obtain rfl : generated = tag'.generated := h .generated
  obtain rfl : remainder = tag'.remainder := h .remainder
  obtain rfl : embed = tag'.embed := h .embed
  rfl

theorem has_foldl_add_iff (ms : List Modifier) (tag : Tag) (modifier : Modifier) :
    (ms.foldl add tag).has modifier = true ↔ tag.has modifier = true ∨ modifier ∈ ms := by
  induction ms generalizing tag with
  | nil => simp
  | cons m ms ih =>
    rw [List.foldl_cons, ih, has_add_iff, List.mem_cons, or_assoc]
    exact or_left_comm

theorem column_foldl_add (ms : List Modifier) (tag : Tag) :
    (ms.foldl add tag).column = tag.column := by
  induction ms generalizing tag with
  | nil => rfl
  | cons m ms ih => rw [List.foldl_cons, ih, column_add]

/-- The tag of a column with some modifiers. -/
def ofModifiers (column : String) (ms : List Modifier) : Tag := ms.foldl add { column }

theorem has_ofModifiers_iff (column : String) (ms : List Modifier) (m : Modifier) :
    (Tag.ofModifiers column ms).has m = true ↔ m ∈ ms := by
  have hnone : ({ column } : Tag).has m = false := by cases m <;> rfl
  rw [Tag.ofModifiers, has_foldl_add_iff, hnone]
  simp

theorem column_ofModifiers (column : String) (ms : List Modifier) :
    (Tag.ofModifiers column ms).column = column := column_foldl_add ms _

theorem eq_ofModifiers_iff {tag : Tag} {column : String} {ms : List Modifier} :
    tag = Tag.ofModifiers column ms ↔ tag.column = column ∧ ∀ m, tag.has m = true ↔ m ∈ ms := by
  constructor
  · rintro rfl
    exact ⟨column_ofModifiers column ms, has_ofModifiers_iff column ms⟩
  · rintro ⟨hcolumn, h⟩
    exact ext_has (hcolumn.trans (column_ofModifiers column ms).symm) fun m =>
      (h m).trans (has_ofModifiers_iff column ms m).symm

/-! ## Reading words -/

theorem addWord_eq_ok_iff {text word : String} {tag tag' : Tag} :
    addWord text tag word = .ok tag' ↔
      ∃ m, Modifier.Names word m ∧ tag.has m = false ∧ tag' = tag.add m := by
  simp only [← Modifier.ofName?_eq_some_iff]
  unfold addWord
  split
  · next hnone => simp [hnone]
  · next m hm =>
    split
    · next hhas => simp [hm, hhas]
    · next hhas =>
      rw [Except.ok.injEq]
      refine ⟨fun h => ⟨m, hm, by simpa using hhas, h.symm⟩, fun ⟨m', hm', _, h⟩ => ?_⟩
      obtain rfl := Option.some.inj (hm.symm.trans hm')
      exact h.symm

/-- The words of a tag can be read if each of them stands for a modifier that was not set yet. -/
theorem addWords_eq_ok_iff {text : String} {words : List String} {tag tag' : Tag} :
    words.foldlM (addWord text) tag = .ok tag' ↔
      ∃ ms, List.Forall₂ Modifier.Names words ms ∧ ms.Nodup ∧ (∀ m ∈ ms, tag.has m = false) ∧
        tag' = ms.foldl add tag := by
  induction words generalizing tag with
  | nil =>
    constructor
    · intro h
      exact ⟨[], .nil, .nil, fun m hm => absurd hm List.not_mem_nil, (Except.ok.inj h).symm⟩
    · rintro ⟨ms, hwords, -, -, rfl⟩
      obtain rfl := List.forall₂_nil_left_iff.1 hwords
      rfl
  | cons word words ih =>
    simp only [List.foldlM_cons, bind_eq_ok_iff, addWord_eq_ok_iff, ih]
    have hfree : ∀ {m m'}, (tag.add m).has m' = false ↔ m' ≠ m ∧ tag.has m' = false := by
      intro m m'
      rw [← Bool.not_eq_true, has_add_iff, not_or, Bool.not_eq_true]
    constructor
    · rintro ⟨_, ⟨m, hword, hm, rfl⟩, ms, hwords, hnodup, hms, rfl⟩
      simp only [hfree] at hms
      refine ⟨m :: ms, .cons hword hwords, List.nodup_cons.2 ⟨fun hmem => ?_, hnodup⟩,
        List.forall_mem_cons.2 ⟨hm, fun m' hm' => (hms m' hm').2⟩, rfl⟩
      exact (hms m hmem).1 rfl
    · rintro ⟨_, hwords, hnodup, hms, rfl⟩
      cases hwords with
      | cons hword hwords =>
        rename_i m ms
        obtain ⟨hnot, hnodup⟩ := List.nodup_cons.1 hnodup
        obtain ⟨hm, hms⟩ := List.forall_mem_cons.1 hms
        refine ⟨_, ⟨m, hword, hm, rfl⟩, ms, hwords, hnodup, fun m' hm' => hfree.2 ⟨?_, hms m' hm'⟩,
          rfl⟩
        rintro rfl
        exact hnot hm'

/-- The two checks behind the words. -/
theorem goTogether_has_iff {tag : Tag} : Modifier.GoTogether (tag.has · = true) ↔
    ¬(tag.remainder ∧ (tag.primaryKey ∨ tag.generated ∨ tag.embed)) ∧
      ¬(tag.embed ∧ (tag.primaryKey ∨ tag.generated)) := by
  constructor
  · intro h
    refine ⟨?_, ?_⟩
    · rintro ⟨hremainder, hkey | hgenerated | hembed⟩
      · exact absurd (h.alone hremainder .primaryKey hkey) (by decide)
      · exact absurd (h.alone hremainder .generated hgenerated) (by decide)
      · exact absurd (h.alone hremainder .embed hembed) (by decide)
    · rintro ⟨hembed, hkey | hgenerated⟩
      · exact (h.manyColumns hembed).1 hkey
      · exact (h.manyColumns hembed).2 hgenerated
  · rintro ⟨halone, hmany⟩
    refine ⟨fun hremainder m hm => ?_, fun hembed => ⟨fun hkey => ?_, fun hgenerated => ?_⟩⟩
    · cases m with
      | primaryKey => exact absurd ⟨hremainder, .inl hm⟩ halone
      | generated => exact absurd ⟨hremainder, .inr (.inl hm)⟩ halone
      | remainder => rfl
      | embed => exact absurd ⟨hremainder, .inr (.inr hm)⟩ halone
    · exact hmany ⟨hembed, .inl hkey⟩
    · exact hmany ⟨hembed, .inr hgenerated⟩

theorem consistent_eq_ok_iff {tag tag' : Tag} :
    tag.consistent = .ok tag' ↔ tag' = tag ∧ Modifier.GoTogether (tag.has · = true) := by
  rw [goTogether_has_iff]
  unfold consistent
  split
  · next halone => simp [halone]
  · next halone =>
    split
    · next hmany => simp [hmany]
    · next hmany =>
      rw [Except.ok.injEq]
      exact ⟨fun h => ⟨h.symm, halone, hmany⟩, fun h => h.1.symm⟩

/-! ## Reading a tag -/

/-- **A tag can be read** if it has a column without blanks, and behind it words that stand for
modifiers of one field, none of them twice. -/
theorem parse_eq_ok_iff {text : String} {tag : Tag} :
    Tag.parse text = .ok tag ↔
      (Text.trimmedParts text).1 ≠ "" ∧
      (∀ c ∈ (Text.trimmedParts text).1.toList, Text.isBlank c = false) ∧
      ∃ ms, List.Forall₂ Modifier.Names (Text.trimmedParts text).2 ms ∧ ms.Nodup ∧
        Modifier.GoTogether (· ∈ ms) ∧ tag = Tag.ofModifiers (Text.trimmedParts text).1 ms := by
  have hnone : ∀ m, ({ column := (Text.trimmedParts text).1 } : Tag).has m = false := by
    intro m
    cases m <;> rfl
  unfold Tag.parse
  dsimp only
  split
  · next hempty => simp [hempty]
  · next hempty =>
    split
    · next hblank =>
      obtain ⟨c, hc, hblank⟩ := List.any_eq_true.1 hblank
      refine ⟨fun h => absurd h (by simp), fun ⟨_, h, _⟩ => ?_⟩
      exact absurd hblank (by simp [h c hc])
    · next hblank =>
      have hblank : ∀ c ∈ (Text.trimmedParts text).1.toList, Text.isBlank c = false := by
        simpa using hblank
      simp only [bind_eq_ok_iff, addWords_eq_ok_iff, consistent_eq_ok_iff]
      constructor
      · rintro ⟨_, ⟨ms, hwords, hnodup, -, rfl⟩, rfl, htogether⟩
        simp only [has_foldl_add_iff, hnone, Bool.false_eq_true, false_or] at htogether
        exact ⟨hempty, hblank, ms, hwords, hnodup, htogether, rfl⟩
      · rintro ⟨-, -, ms, hwords, hnodup, htogether, rfl⟩
        refine ⟨_, ⟨ms, hwords, hnodup, fun m _ => hnone m, rfl⟩, rfl, ?_⟩
        simpa only [has_foldl_add_iff, hnone, Bool.false_eq_true, false_or] using htogether

/-- **What a tag that can be read says of its field** is what the words behind its column say. -/
theorem has_of_parse_iff {text : String} {p : Tag} (h : Tag.parse text = .ok p)
    (modifier : Modifier) :
    p.has modifier = true ↔
      ∃ word ∈ (Text.trimmedParts text).2, Modifier.ofName? word = some modifier := by
  obtain ⟨-, -, ms, hwords, -, -, rfl⟩ := parse_eq_ok_iff.1 h
  rw [has_ofModifiers_iff, Modifier.mem_iff_of_names hwords]
  simp only [Modifier.ofName?_eq_some_iff]

/-- The modifiers of a tag that can be read go together. -/
theorem goTogether_of_parse {text : String} {p : Tag} (h : Tag.parse text = .ok p) :
    Modifier.GoTogether (p.has · = true) := by
  obtain ⟨-, -, ms, -, -, htogether, rfl⟩ := parse_eq_ok_iff.1 h
  simpa only [has_ofModifiers_iff] using htogether

end Tag
end TableRecords
