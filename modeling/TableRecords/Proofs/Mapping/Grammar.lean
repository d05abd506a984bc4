import TableRecords.Proofs.Mapping.Modifier
import TableRecords.Proofs.Text.Parts

/-!
# The grammar of tags

A tag is a column and modifiers behind it, with commas between them and blanks around them
(`Tag.Written`).  Reading accepts these texts and no others, and every column with modifiers that
one field can have is written somehow:

    Tag.parse text = .ok tag ↔ Tag.Written text tag.column (the modifiers of tag)
                                                                       (parse_eq_ok_iff_written)
    tag.Legal → Tag.parse tag.text = .ok tag                           (parse_text)
-/

namespace TableRecords

/-- The word that a modifier is written as. -/
def Modifier.word : Modifier → String
  | .primaryKey => "pk"
  | .generated => "generated"
  | .remainder => "remainder"
  | .embed => "embed"

theorem Modifier.names_word (m : Modifier) : Names m.word m := by
  cases m <;> constructor

theorem Modifier.noComma_word (m : Modifier) : ',' ∉ m.word.toList := by
  cases m <;> decide

theorem Modifier.noBlank_word (m : Modifier) : ∀ c ∈ m.word.toList, Text.isBlank c = false := by
  have hnone : m.word.toList.any Text.isBlank = false := by cases m <;> decide +kernel
  simpa using hnone

namespace Tag

/-- The text is a tag with this column and these modifiers, in this order. -/
structure Written (text column : String) (modifiers : List Modifier) : Prop where
  /-- The column stands before the first comma, and a word for each modifier behind it. -/
  parts : ∃ words, Text.HasParts text column words ∧ List.Forall₂ Modifier.Names words modifiers
  nonempty : column ≠ ""
  noBlank : ∀ c ∈ column.toList, Text.isBlank c = false
  /-- No modifier is set twice. -/
  nodup : modifiers.Nodup
  together : Modifier.GoTogether (· ∈ modifiers)

/-- A field can have this column and these modifiers. -/
structure Legal (tag : Tag) : Prop where
  nonempty : tag.column ≠ ""
  noBlank : ∀ c ∈ tag.column.toList, Text.isBlank c = false
  noComma : ',' ∉ tag.column.toList
  together : Modifier.GoTogether (tag.has · = true)

/-! ## Reading -/

theorem parse_eq_ok_iff_written {text : String} {tag : Tag} :
    Tag.parse text = .ok tag ↔
      ∃ modifiers, Written text tag.column modifiers ∧ ∀ m, tag.has m = true ↔ m ∈ modifiers := by
  rw [parse_eq_ok_iff]
  constructor
  · rintro ⟨hnonempty, hblank, ms, hwords, hnodup, htogether, htag⟩
    obtain ⟨hcolumn, hhas⟩ := eq_ofModifiers_iff.1 htag
    have hparts : Text.HasParts text (Text.trimmedParts text).1 (Text.trimmedParts text).2 :=
      Text.trimmedParts_eq_iff.1 rfl
    rw [← hcolumn] at hnonempty hblank hparts
    exact ⟨ms, ⟨⟨_, hparts, hwords⟩, hnonempty, hblank, hnodup, htogether⟩, hhas⟩
  · rintro ⟨ms, ⟨⟨words, hparts, hwords⟩, hnonempty, hblank, hnodup, htogether⟩, hhas⟩
    rw [Text.trimmedParts_eq_iff.2 hparts]
    exact ⟨hnonempty, hblank, ms, hwords, hnodup, htogether, eq_ofModifiers_iff.2 ⟨rfl, hhas⟩⟩

theorem exists_parse_iff {text : String} :
    (∃ tag, Tag.parse text = .ok tag) ↔ ∃ column modifiers, Written text column modifiers := by
  simp only [parse_eq_ok_iff_written]
  constructor
  · rintro ⟨tag, ms, hwritten, -⟩
    exact ⟨tag.column, ms, hwritten⟩
  · rintro ⟨column, ms, hwritten⟩
    refine ⟨Tag.ofModifiers column ms, ms, ?_, has_ofModifiers_iff column ms⟩
    rwa [column_ofModifiers]

/-- The words behind the column can stand in any order, and the blanks around them do not matter. -/
theorem parse_of_perm {text text' column : String} {words words' : List String} {tag : Tag}
    (hparts : Text.HasParts text column words) (hparts' : Text.HasParts text' column words')
    (hwords : words'.Perm words) (h : Tag.parse text = .ok tag) : Tag.parse text' = .ok tag := by
  rw [parse_eq_ok_iff, Text.trimmedParts_eq_iff.2 hparts] at h
  obtain ⟨hnonempty, hblank, ms, hnames, hnodup, htogether, rfl⟩ := h
  obtain ⟨ms', hnames', hperm⟩ := List.perm_comp_forall₂ hwords hnames
  rw [parse_eq_ok_iff, Text.trimmedParts_eq_iff.2 hparts']
  refine ⟨hnonempty, hblank, ms', hnames', hperm.nodup_iff.2 hnodup, ?_, ?_⟩
  · simpa only [hperm.mem_iff] using htogether
  · rw [eq_ofModifiers_iff]
    refine ⟨column_ofModifiers column ms, fun m => ?_⟩
    rw [has_ofModifiers_iff, hperm.mem_iff]

/-! ## Writing -/

/-- The modifiers that are set. -/
def modifiers (tag : Tag) : List Modifier :=
  [.primaryKey, .generated, .remainder, .embed].filter tag.has

/-- The column and the modifiers, with a comma before each of them. -/
def text (tag : Tag) : String :=
  String.ofList ([','].intercalate (tag.column.toList :: tag.modifiers.map (·.word.toList)))

theorem mem_modifiers_iff {tag : Tag} {m : Modifier} : m ∈ tag.modifiers ↔ tag.has m = true := by
  rw [modifiers, List.mem_filter, and_iff_right]
  cases m <;> decide

theorem nodup_modifiers (tag : Tag) : tag.modifiers.Nodup :=
  List.Nodup.filter _ (by decide)

theorem Legal.hasParts_text {tag : Tag} (h : tag.Legal) :
    Text.HasParts tag.text tag.column (tag.modifiers.map (·.word)) := by
  refine ⟨tag.column.toList :: tag.modifiers.map (·.word.toList), ?_, ?_, .cons ?_ ?_⟩
  · rw [text, String.toList_ofList]
  · rw [List.forall_mem_cons, List.forall_mem_map]
    exact ⟨h.noComma, fun m _ => m.noComma_word⟩
  · exact Text.padded_self h.noBlank
  · rw [List.forall₂_map_left_iff, List.forall₂_map_right_iff, List.forall₂_same]
    exact fun m _ => Text.padded_self m.noBlank_word

theorem Legal.written_text {tag : Tag} (h : tag.Legal) :
    Written tag.text tag.column tag.modifiers := by
  refine ⟨⟨_, h.hasParts_text, ?_⟩, h.nonempty, h.noBlank, nodup_modifiers tag, ?_⟩
  · rw [List.forall₂_map_left_iff, List.forall₂_same]
    exact fun m _ => m.names_word
  · simpa only [mem_modifiers_iff] using h.together

theorem Legal.parse_text {tag : Tag} (h : tag.Legal) : Tag.parse tag.text = .ok tag :=
  parse_eq_ok_iff_written.2 ⟨tag.modifiers, h.written_text, fun _ => mem_modifiers_iff.symm⟩

theorem legal_of_parse {text : String} {tag : Tag} (h : Tag.parse text = .ok tag) : tag.Legal := by
  obtain ⟨ms, hwritten, hhas⟩ := parse_eq_ok_iff_written.1 h
  obtain ⟨words, hparts, -⟩ := hwritten.parts
  exact ⟨hwritten.nonempty, hwritten.noBlank, hparts.noComma_first, goTogether_of_parse h⟩

/-! ## Main result -/

/-- **Reading accepts exactly the texts that the grammar describes.**  The column is the first part,
and a modifier is set if and only if a word stands for it.  The order of the words and the blanks
around them do not matter, and every legal tag can be written. -/
theorem parse_exactly_written :
    (∀ text tag, Tag.parse text = .ok tag ↔
      ∃ modifiers, Written text tag.column modifiers ∧
        ∀ m, tag.has m = true ↔ m ∈ modifiers) ∧
    (∀ text, (∃ tag, Tag.parse text = .ok tag) ↔
      ∃ column modifiers, Written text column modifiers) ∧
    (∀ text text' column words words', Text.HasParts text column words →
      Text.HasParts text' column words' → words.Perm words' →
      (Tag.parse text).toOption = (Tag.parse text').toOption) ∧
    ∀ tag, (∃ text, Tag.parse text = .ok tag) ↔ tag.Legal := by
  refine ⟨fun _ _ => parse_eq_ok_iff_written, fun _ => exists_parse_iff,
    fun text text' column words words' hparts hparts' hwords => ?_,
    fun tag => ⟨fun ⟨_, h⟩ => legal_of_parse h, fun h => ⟨tag.text, h.parse_text⟩⟩⟩
  have hsome : ∀ {x : Except TagError Tag} {tag}, x.toOption = some tag ↔ x = .ok tag := by
    intro x tag
    cases x <;> simp [Except.toOption]
  ext tag
  rw [hsome, hsome]
  exact ⟨parse_of_perm hparts hparts' hwords.symm, parse_of_perm hparts' hparts hwords⟩

theorem parse_exactly_written_padded :
    Written " id ,\tpk, generated" "id" [.primaryKey, .generated] ∧
    Tag.parse " id ,\tpk, generated" = .ok ⟨"id", true, true, false, false⟩ ∧
    (Tag.parse "id,generated,pk").toOption = some ⟨"id", true, true, false, false⟩ := by
  obtain ⟨hread, -, hperm, -⟩ := parse_exactly_written
  have hparts : Text.HasParts " id ,\tpk, generated" "id" ["pk", "generated"] :=
    Text.trimmedParts_eq_iff.1 (by decide +kernel)
  have hswapped : Text.HasParts "id,generated,pk" "id" ["generated", "pk"] :=
    Text.trimmedParts_eq_iff.1 (by decide +kernel)
  have hblank : "id".toList.any Text.isBlank = false := by decide +kernel
  have hwritten : Written " id ,\tpk, generated" "id" [.primaryKey, .generated] :=
    ⟨⟨_, hparts, .cons .pk (.cons .generated .nil)⟩, by decide, by simpa using hblank, by decide,
      ⟨by simp, by simp⟩⟩
  have htag : Tag.parse " id ,\tpk, generated" = .ok ⟨"id", true, true, false, false⟩ :=
    (hread _ _).2 ⟨_, hwritten, fun m => by cases m <;> decide⟩
  refine ⟨hwritten, htag, ?_⟩
  rw [← hperm _ _ _ _ _ hparts hswapped (.swap _ _ _), htag]
  rfl

end Tag
end TableRecords
