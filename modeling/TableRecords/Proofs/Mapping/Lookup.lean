import Mathlib
import TableRecords.Proofs.Mapping.Columns
import TableRecords.Proofs.Record.Fields
import TableRecords.Proofs.Text.LetterCase

/-!
# Finding the field of a column

A name leads to the field whose column is spelled so, or else to the first one whose column is
spelled so in any case of ASCII letters (`Mapping.Answers`).  The two tables in which the field is
found are those of one pass over the columns: the one refuses a column that it has, the other keeps
the first of those that differ in letter case only (`ColumnTables`).

    type.mapping = .ok m → (m.indexOf? name = some i ↔ m.Answers name i) ∧ …
                                                                       (indexOf?_answers)
-/

namespace TableRecords

/-! ## Fields -/

namespace Mapping

/-- The field that a name leads to. -/
inductive Answers (m : Mapping) (name : String) (i : m.Index) : Prop where
  | exact (h : (m.field i).column = name)
  /-- No column is spelled so, and this is the first that is but for the case of its letters. -/
  | first (hnone : ∀ j, (m.field j).column ≠ name)
    (hsame : Text.SameLetters (m.field i).column name)
    (hfirst : ∀ j < i, ¬ Text.SameLetters (m.field j).column name)

variable {m : Mapping}

variable {typeName : String} {tags : List FieldTag}

/-- For a name that is no column the case of its letters does not count. -/
theorem indexOf?_of_not_mem (hm : Mapping.ofTags typeName tags = .ok m) {name : String}
    (h : name ∉ m.columns) :
    m.indexOf? name =
      m.indexes.find? fun i => Text.asciiLower (m.field i).column == Text.asciiLower name := by
  have hnone : (m.indexes.find? fun i => (m.field i).column == name) = none := by
    rw [List.find?_eq_none]
    exact fun i _ heq => h (mem_columns_iff.2 ⟨i, eq_of_beq heq⟩)
  rw [indexOf?_eq hm, hnone, Option.none_or]
  rfl

theorem indexOf?_eq_some_iff (hm : Mapping.ofTags typeName tags = .ok m) {name : String}
    {i : m.Index} : m.indexOf? name = some i ↔ m.Answers name i := by
  have hnone : (m.indexes.find? fun i => (m.field i).column == name) = none ↔
      ∀ j, (m.field j).column ≠ name := by
    rw [List.find?_eq_none]
    simp [indexes]
  rw [indexOf?_eq hm, Option.or_eq_some_iff, find?_indexes_eq_some_iff, find?_indexes_eq_some_iff,
    hnone]
  simp only [beq_iff_eq, Text.sameIgnoringCase_iff, Bool.eq_false_iff, ne_eq]
  constructor
  · rintro (⟨hi, -⟩ | ⟨hne, hi, hfirst⟩)
    · exact .exact hi
    · exact .first hne hi hfirst
  · rintro (hi | ⟨hne, hi, hfirst⟩)
    · exact .inl ⟨hi, fun j hj heq => hj.ne (column_injective hm (heq.trans hi.symm))⟩
    · exact .inr ⟨hne, hi, hfirst⟩

end Mapping

/-! ## Main result -/

variable {ρ : Type} {type : RecordType ρ} {m : Mapping}

/-- **A name leads to the column that is spelled so, or else to the first one that differs from it
in letter case only.**  Every column leads to its own field.  Names that are no column and differ in
letter case only lead to one field.  The two tables of the mapping are those that one pass over the
columns fills, and no place that they hold is lost. -/
theorem indexOf?_answers (h : type.mapping = .ok m) :
    (∀ name i, m.indexOf? name = some i ↔ m.Answers name i) ∧
    (∀ name, m.indexOf? name = none ↔ ∀ i, ¬ Text.SameLetters (m.field i).column name) ∧
    (∀ i, m.indexOf? (m.field i).column = some i) ∧
    (∀ name other, name ∉ m.columns → other ∉ m.columns → Text.SameLetters name other →
      m.indexOf? name = m.indexOf? other) ∧
    ColumnTables.ofColumns m.columns = some m.tables ∧
      ∀ name, m.tables.place? name = (m.indexOf? name).map Fin.val := by
  refine ⟨fun name i => Mapping.indexOf?_eq_some_iff h, fun name => ?_, indexOf?_column h,
    fun name other hname hother hsame => ?_, ofColumns_columns h, Mapping.map_indexOf? h⟩
  · rw [Mapping.indexOf?_eq_none_iff h]
    simp only [← Bool.not_eq_true, Text.sameIgnoringCase_iff]
  · rw [Mapping.indexOf?_of_not_mem h hname, Mapping.indexOf?_of_not_mem h hother,
      Text.asciiLower_eq_iff.2 hsame]

theorem indexOf?_answers_note :
    noteType.mapping = .ok noteMapping ∧
    noteMapping.indexOf? "CODE" = some ⟨2, by decide⟩ ∧
    noteMapping.indexOf? "Code" = some ⟨1, by decide⟩ ∧
    noteMapping.indexOf? "ſtamp" = none := by
  obtain ⟨hsome, hnone, hown, -⟩ := indexOf?_answers mapping_noteType
  have hbefore : ∀ j : noteMapping.Index, j.val < 1 →
      ¬ Text.sameIgnoringCase (noteMapping.field j).column "Code" := by decide +kernel
  have hlong : ∀ j : noteMapping.Index,
      ¬ Text.sameIgnoringCase (noteMapping.field j).column "ſtamp" := by decide +kernel
  have hcode : noteMapping.Answers "Code" ⟨1, by decide⟩ :=
    .first (by decide) (Text.sameIgnoringCase_iff.1 rfl) fun j hj hsame =>
      hbefore j hj (Text.sameIgnoringCase_iff.2 hsame)
  exact ⟨mapping_noteType, hown ⟨2, by decide⟩, (hsome _ _).2 hcode,
    (hnone _).2 fun j hsame => hlong j (Text.sameIgnoringCase_iff.2 hsame)⟩

end TableRecords
