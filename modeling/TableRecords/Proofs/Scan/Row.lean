import TableRecords.Proofs.Action
import TableRecords.Proofs.Mapping.Columns
import TableRecords.Proofs.Record.Fields
import TableRecords.Scan

/-!
# Copying a row

A row of mapped columns is copied column by column to the fields they belong to, up to the first
value that does not fit.  The fields that were reached hold what their values decode to, and nothing
else changes:

    (row m type (m.columnsAt is) values).exec d = (r, d') →
      ∃ js, js <+: is ∧ … ∧ F.Fills m js (fun i v => (i, v) ∈ is.zip values) d d'   (fills_of_row)

All of it is copied if every value can be decoded (`exec_row_of_decodes`).
-/

namespace TableRecords.Scan

variable [JsonLibrary] {ρ : Type} {m : Mapping} {type : RecordType ρ} {F : type.Fields}

/-! ## Columns -/

theorem exec_column (hm : type.mapping = .ok m) (i : m.Index) (v : Value) (s : Copied ρ) :
    (column m type (m.field i).column v).exec s =
      match type.set s.record (m.field i).path v with
      | .ok record => (.ok (), { s with record })
      | .error e => (.error (.scanTypeMismatch (m.field i).column (m.field i).field e), s) := by
  cases hset : type.set s.record (m.field i).path v with
  | error e =>
    rw [column, Action.exec_of, indexOf?_column hm i]
    simp only [hset]
  | ok record =>
    rw [column, Action.exec_of, indexOf?_column hm i]
    simp only [hset]

theorem exec_columns_cons (hm : type.mapping = .ok m) (i : m.Index) (v : Value)
    (rest : List (String × Value)) (s : Copied ρ) :
    (columns m type (((m.field i).column, v) :: rest)).exec s =
      match type.set s.record (m.field i).path v with
      | .ok record => (columns m type rest).exec { s with record }
      | .error e => (.error (.scanTypeMismatch (m.field i).column (m.field i).field e), s) := by
  show (column m type (m.field i).column v >>= fun _ => columns m type rest).exec s = _
  rw [Action.exec_bind, exec_column hm]
  cases type.set s.record (m.field i).path v <;> rfl

/-- Columns are copied up to the first whose value does not fit. -/
theorem fills_of_columns (hm : type.mapping = .ok m) {is : List m.Index} {values : List Value}
    (hlength : values.length = is.length) {s s' : Copied ρ} {r : Except Error Unit}
    (h : (columns m type ((m.columnsAt is).zip values)).exec s = (r, s')) :
    s'.unmatched = s.unmatched ∧ ∃ js, js <+: is ∧ (r = .ok () → js = is) ∧
      F.Fills m js (fun i v => (i, v) ∈ is.zip values) s.record s'.record := by
  induction is generalizing values s with
  | nil =>
    obtain ⟨rfl, rfl⟩ := Prod.mk.inj h
    exact ⟨rfl, [], List.prefix_refl [], fun _ => rfl, F.fills_nil s.record⟩
  | cons i is ih =>
    cases values with
    | nil => exact absurd hlength (by simp)
    | cons v values =>
      have h : (columns m type (((m.field i).column, v) :: (m.columnsAt is).zip values)).exec s =
          (r, s') := h
      rw [exec_columns_cons hm] at h
      split at h
      · next record hset =>
        obtain ⟨hunmatched, js, hjs, hall, hrest⟩ := ih (Nat.succ.inj hlength) h
        have hfirst : F.Fills m [i] (fun j w => (j, w) ∈ (i :: is).zip (v :: values)) s.record
            record := F.fills_of_set hm List.mem_cons_self hset
        have hrest := hrest.mono fun j _ w hw => List.mem_cons_of_mem (i, v) hw
        refine ⟨hunmatched, i :: js, List.cons_prefix_cons.2 ⟨rfl, hjs⟩, ?_, hfirst.append hm hrest⟩
        exact fun hr => congrArg (i :: ·) (hall hr)
      · obtain ⟨rfl, rfl⟩ := Prod.mk.inj h
        exact ⟨rfl, [], List.nil_prefix, fun hr => absurd hr (by simp), F.fills_nil s.record⟩

theorem exec_columns_of_decodes (hm : type.mapping = .ok m) {is : List m.Index}
    {values : List Value} (hdecode : ∀ i v, (i, v) ∈ is.zip values →
      ∃ p x, F.path p = (m.field i).path ∧ (F.codec p).decode v = .ok x) (s : Copied ρ) :
    ∃ s', (columns m type ((m.columnsAt is).zip values)).exec s = (.ok (), s') := by
  induction is generalizing values s with
  | nil => exact ⟨s, rfl⟩
  | cons i is ih =>
    cases values with
    | nil => exact ⟨s, rfl⟩
    | cons v values =>
      obtain ⟨p, x, hp, hx⟩ := hdecode i v List.mem_cons_self
      have hset := F.set_of_decode hx s.record
      rw [hp] at hset
      obtain ⟨s', hs'⟩ := ih (fun j w hw => hdecode j w (List.mem_cons_of_mem _ hw))
        { s with record := F.write p x s.record }
      refine ⟨s', ?_⟩
      show (columns m type (((m.field i).column, v) :: (m.columnsAt is).zip values)).exec s = _
      rw [exec_columns_cons hm, hset]
      exact hs'

/-! ## Rows -/

/-- Without columns that belong to no field, the remainder field is left alone. -/
theorem exec_remainder {s : Copied ρ} (h : s.unmatched = []) :
    (remainder m type).exec s = (.ok (), s) := by
  rw [remainder, Action.exec_of, h]
  split <;> rfl

theorem exec_row_of_columns {names : List String} {values : List Value} {d : ρ} {s : Copied ρ}
    (hlength : values.length = names.length)
    (h : (columns m type (names.zip values)).exec ⟨d, []⟩ = (.ok (), s)) (hs : s.unmatched = []) :
    (row m type names values).exec d = (.ok (), s.record) := by
  rw [row, Action.exec_of, if_neg (not_not.2 hlength), Action.exec_bind_ok h, exec_remainder hs]

/-- **What is done by copying a row of mapped columns**, all of it or up to the first value that
does not fit. -/
theorem fills_of_row (hm : type.mapping = .ok m) {is : List m.Index} {values : List Value}
    {d d' : ρ} {r : Except Error Unit}
    (h : (row m type (m.columnsAt is) values).exec d = (r, d')) :
    ∃ js, js <+: is ∧ (r = .ok () → js = is ∧ values.length = is.length) ∧
      F.Fills m js (fun i v => (i, v) ∈ is.zip values) d d' := by
  have hcolumns : (m.columnsAt is).length = is.length := List.length_map _
  by_cases hlength : values.length = (m.columnsAt is).length
  · have hwidth := hlength.trans hcolumns
    rcases hrun : (columns m type ((m.columnsAt is).zip values)).exec ⟨d, []⟩ with ⟨r', s⟩
    obtain ⟨hunmatched, js, hjs, hall, hfills⟩ := fills_of_columns (F := F) hm hwidth hrun
    cases r' with
    | error e =>
      rw [row, Action.exec_of, if_neg (not_not.2 hlength), Action.exec_bind_error hrun] at h
      obtain ⟨rfl, rfl⟩ := Prod.mk.inj h
      exact ⟨js, hjs, fun hr => absurd hr (by simp), hfills⟩
    | ok u =>
      rw [exec_row_of_columns hlength hrun hunmatched] at h
      obtain ⟨rfl, rfl⟩ := Prod.mk.inj h
      exact ⟨js, hjs, fun _ => ⟨hall rfl, hwidth⟩, hfills⟩
  · rw [row, Action.exec_of, if_pos hlength] at h
    obtain ⟨rfl, rfl⟩ := Prod.mk.inj h
    exact ⟨[], List.nil_prefix, fun hr => absurd hr (by simp), F.fills_nil d⟩

/-- **A row of mapped columns whose values decode is copied.** -/
theorem exec_row_of_decodes (hm : type.mapping = .ok m) {is : List m.Index}
    {values : List Value} (hlength : values.length = is.length)
    (hdecode : ∀ i v, (i, v) ∈ is.zip values →
      ∃ p x, F.path p = (m.field i).path ∧ (F.codec p).decode v = .ok x) (d : ρ) :
    ∃ d', (row m type (m.columnsAt is) values).exec d = (.ok (), d') := by
  obtain ⟨s, hs⟩ := exec_columns_of_decodes hm hdecode ⟨d, []⟩
  have hcolumns : (m.columnsAt is).length = is.length := List.length_map _
  have hunmatched := (fills_of_columns (F := F) hm hlength hs).1
  exact ⟨_, exec_row_of_columns (hlength.trans hcolumns.symm) hs hunmatched⟩

end TableRecords.Scan
