import TableRecords.Proofs.Session.Insert

/-!
# What an adapter answers with

`Adapter.Serves` says what the library relies on: an adapter fails with adapter errors, and so do
its cursors.  Then every error of an operation that has called the adapter is `Error.Reported`: a
failed call, a row that was not there, a column that does not fit, or a row of the wrong width:

    reported_of_execute, reported_of_scanFirst, reported_of_scanAll, reported_of_insertAllReturning

None of these is a refusal if rows have one value for each column (`Reported.isRefusal_eq_false`).
-/

namespace TableRecords

variable {σ η ρ β : Type}

/-! ## Cursors and adapters -/

/-- Every row has one value for each column. -/
def Cursor.Rectangular (c : Cursor) : Prop :=
  ∀ values, .ok values ∈ c.rows → values.length = c.columns.length

/-- A row that cannot be read is a failure of the adapter. -/
def Cursor.FailsAsAdapter (c : Cursor) : Prop := ∀ e, .error e ∈ c.rows → ∃ f, e = .adapter f

/-- An adapter whose own failures are adapter errors and whose cursors have a property.  Any other
failure of a query is that of its visitor. -/
structure Adapter.Serves (a : Adapter σ η) (P : Cursor → Prop) : Prop where
  execute : ∀ handle sql args db e db',
    (a.execute handle sql args).exec db = (.error e, db') → ∃ f, e = .adapter f
  query : ∀ {β : Type} handle sql args (visit : Action (β × Cursor) Unit) b db e after,
    (a.query handle sql args visit).exec (b, db) = (.error e, after) →
      (∃ f, e = .adapter f) ∨
        ∃ b' c, c.FailsAsAdapter ∧ P c ∧ (visit.exec (b', c)).1 = .error e

/-- The errors that tell of an answer of the adapter. -/
inductive Error.Reported (P : Cursor → Prop) : Error → Prop where
  | adapter (f : AdapterError) : Reported P (.adapter f)
  | notFound (context : String) : Reported P (.notFound context)
  | mismatch (column field : String) (source : CoerceError) :
    Reported P (.scanTypeMismatch column field source)
  /-- A row has more or fewer values than columns. -/
  | width {c : Cursor} (hc : P c) (hwidth : ¬ c.Rectangular) (detail : String) :
    Reported P (.invalidArgument detail)

/-- The errors by which the library refuses an operation. -/
def Error.isRefusal : Error → Bool
  | .invalidMapping .. | .noColumns _ | .missingPrimaryKey .. | .invalidArgument _ => true
  | _ => false

theorem Error.Reported.ne_missingPrimaryKey {P : Cursor → Prop} {e : Error} (h : e.Reported P)
    (table column : String) : e ≠ .missingPrimaryKey table column := by
  cases h <;> simp

theorem Error.Reported.isRefusal_eq_false {e : Error} (h : e.Reported Cursor.Rectangular) :
    e.isRefusal = false := by
  cases h with
  | width hc hwidth => exact absurd hc hwidth
  | _ => rfl

/-! ## Faults of rows -/

namespace Scan

/-- A column that does not fit its field. -/
def Mismatch (e : Error) : Prop := ∃ column field source, e = .scanTypeMismatch column field source

variable {m : Mapping} {type : RecordType ρ}

variable [JsonLibrary]

theorem mismatch_of_column {name : String} {v : Value} {s s' : Copied ρ} {e : Error}
    (h : (column m type name v).exec s = (.error e, s')) : Mismatch e := by
  rw [column, Action.exec_of] at h
  split at h
  · dsimp only at h
    split at h
    · exact absurd h (by simp)
    · cases h
      exact ⟨_, _, _, rfl⟩
  · exact absurd h (by simp)

theorem mismatch_of_columns {row : List (String × Value)} {s s' : Copied ρ} {e : Error}
    (h : (columns m type row).exec s = (.error e, s')) : Mismatch e := by
  induction row generalizing s with
  | nil => exact absurd h (by simp [columns])
  | cons p row ih =>
    have h : (column m type p.1 p.2 >>= fun _ => columns m type row).exec s = (.error e, s') := h
    rw [Action.exec_bind] at h
    split at h
    · exact ih h
    · next he =>
      cases h
      exact mismatch_of_column he

theorem mismatch_of_remainder {s s' : Copied ρ} {e : Error}
    (h : (remainder m type).exec s = (.error e, s')) : Mismatch e := by
  rw [remainder, Action.exec_of] at h
  split at h
  · exact absurd h (by simp)
  · split at h
    · exact absurd h (by simp)
    · split at h
      · exact absurd h (by simp)
      · cases h
        exact ⟨_, _, _, rfl⟩

/-- A row is refused for its width alone, before any column is copied. -/
theorem error_of_row {names : List String} {values : List Value} {d d' : ρ} {e : Error}
    (h : (row m type names values).exec d = (.error e, d')) :
    Mismatch e ∨ values.length ≠ names.length ∧ ∃ detail, e = .invalidArgument detail := by
  rw [row, Action.exec_of] at h
  split at h
  · next hwidth =>
    cases h
    exact .inr ⟨hwidth, _, rfl⟩
  · rcases hcopy : (do columns m type (names.zip values); remainder m type : Action _ _).exec
      (⟨d, []⟩ : Copied ρ) with ⟨r, s⟩
    rw [hcopy] at h
    cases h
    rw [Action.exec_bind] at hcopy
    split at hcopy
    · exact .inl (mismatch_of_remainder hcopy)
    · next he =>
      cases hcopy
      exact .inl (mismatch_of_columns he)

end Scan

/-- What can go wrong with the rows of a cursor. -/
def Cursor.Fault (c : Cursor) (e : Error) : Prop :=
  .error e ∈ c.rows ∨ Scan.Mismatch e ∨ ¬ c.Rectangular ∧ ∃ detail, e = .invalidArgument detail

theorem Cursor.Fault.reported {P : Cursor → Prop} {c : Cursor} {e : Error} (h : c.Fault e)
    (hfails : c.FailsAsAdapter) (hc : P c) : e.Reported P := by
  rcases h with hrow | ⟨column, field, source, rfl⟩ | ⟨hwidth, detail, rfl⟩
  · obtain ⟨f, rfl⟩ := hfails e hrow
    exact .adapter f
  · exact .mismatch column field source
  · exact .width hc hwidth detail

/-- The cursor behind some rows. -/
structure Cursor.Behind (c c' : Cursor) : Prop where
  columns : c'.columns = c.columns
  rows : ∀ row ∈ c'.rows, row ∈ c.rows

theorem Cursor.Behind.fault {c c' : Cursor} (h : c.Behind c') {e : Error} (he : c'.Fault e) :
    c.Fault e := by
  rcases he with hrow | hmismatch | ⟨hwidth, hdetail⟩
  · exact .inl (h.rows _ hrow)
  · exact .inr (.inl hmismatch)
  · refine .inr (.inr ⟨fun hrect => hwidth fun values hvalues => ?_, hdetail⟩)
    rw [h.columns]
    exact hrect values (h.rows _ hvalues)

namespace Cursor

theorem next_error {c c' : Cursor} {e : Error} (h : next.exec c = (.error e, c')) :
    .error e ∈ c.rows := by
  rw [next, Action.exec_of] at h
  split at h
  · exact absurd h (by simp)
  · next row rest hrows =>
    cases row with
    | error f =>
      cases h
      rw [hrows]
      exact List.mem_cons_self
    | ok values => exact absurd h (by simp [Except.map])

theorem next_some {c c' : Cursor} {values : List Value}
    (h : next.exec c = (.ok (some values), c')) :
    .ok values ∈ c.rows ∧ c.Behind c' := by
  rw [next, Action.exec_of] at h
  split at h
  · exact absurd h (by simp)
  · next row rest hrows =>
    cases row with
    | error f => exact absurd h (by simp [Except.map])
    | ok values =>
      cases h
      rw [hrows]
      exact ⟨List.mem_cons_self, ⟨rfl, fun row hrow => hrows ▸ List.mem_cons_of_mem _ hrow⟩⟩

end Cursor

namespace Scan

variable {m : Mapping} {type : RecordType ρ}

variable [JsonLibrary]

theorem fault_of_row {c : Cursor} {values : List Value} (hvalues : .ok values ∈ c.rows) {d d' : ρ}
    {e : Error} (h : (row m type c.columns values).exec d = (.error e, d')) : c.Fault e := by
  rcases error_of_row h with hmismatch | ⟨hwidth, hdetail⟩
  · exact .inr (.inl hmismatch)
  · exact .inr (.inr ⟨fun hrect => hwidth (hrect values hvalues), hdetail⟩)

theorem exec_one (d : ρ) (c : Cursor) :
    (one m type).exec (d, c) =
      match Cursor.next.exec c with
      | (.error e, c') => (.error e, (d, c'))
      | (.ok none, c') => (.ok false, (d, c'))
      | (.ok (some values), c') =>
        (((row m type c.columns values).exec d).1.map fun _ => true,
          (((row m type c.columns values).exec d).2, c')) := by
  unfold one
  rw [Action.exec_bind_ok (Action.exec_get _)]
  simp only [Action.exec_bind, Action.exec_onSecond]
  rcases Cursor.next.exec c with ⟨r, c'⟩
  match r with
  | .error e => rfl
  | .ok none => rfl
  | .ok (some values) =>
    simp only [Action.exec_bind, Action.exec_onFirst]
    rcases (row m type c.columns values).exec d with ⟨r, d'⟩
    cases r <;> rfl

theorem fault_of_one {d : ρ} {c : Cursor} {e : Error} {after : ρ × Cursor}
    (h : (one m type).exec (d, c) = (.error e, after)) : c.Fault e := by
  rw [exec_one] at h
  split at h
  · next hnext =>
    cases h
    exact .inl (Cursor.next_error hnext)
  · exact absurd h (by simp)
  · next values c' hnext =>
    rcases hrow : (row m type c.columns values).exec d with ⟨r, d'⟩
    rw [hrow] at h
    cases r with
    | error f =>
      cases h
      exact fault_of_row (Cursor.next_some hnext).1 hrow
    | ok u => exact absurd h (by simp [Except.map])

theorem fresh_eq_ok_iff {names : List String} {values : List Value} {d : ρ} :
    fresh m type names values = .ok d ↔ (row m type names values).exec type.zero = (.ok (), d) := by
  rw [fresh]
  rcases (row m type names values).exec type.zero with ⟨e | u, d'⟩
  · simp
  · simp

theorem fresh_eq_error_iff {names : List String} {values : List Value} {e : Error} :
    fresh m type names values = .error e ↔
      ∃ d, (row m type names values).exec type.zero = (.error e, d) := by
  rw [fresh]
  rcases (row m type names values).exec type.zero with ⟨f | u, d'⟩
  · simp
  · simp

theorem exec_appendUpTo_succ (names : List String) (limit : Nat) (records : List ρ) (c : Cursor) :
    (appendUpTo m type names (limit + 1)).exec (records, c) =
      match Cursor.next.exec c with
      | (.error e, c') => (.error e, (records, c'))
      | (.ok none, c') => (.ok 0, (records, c'))
      | (.ok (some values), c') =>
        match fresh m type names values with
        | .error e => (.error e, (records, c'))
        | .ok d =>
          (((appendUpTo m type names limit).exec (records ++ [d], c')).1.map (· + 1),
            ((appendUpTo m type names limit).exec (records ++ [d], c')).2) := by
  rw [appendUpTo, Action.exec_bind, Action.exec_onSecond]
  rcases Cursor.next.exec c with ⟨r, c'⟩
  match r with
  | .error e => rfl
  | .ok none => rfl
  | .ok (some values) =>
    dsimp only
    rw [Action.exec_bind, Action.exec_liftM]
    cases fresh m type names values with
    | error e => rfl
    | ok d =>
      dsimp only
      rw [Action.exec_bind_ok (Action.exec_modify _ _), Action.exec_bind]
      rcases (appendUpTo m type names limit).exec (records ++ [d], c') with ⟨r, after⟩
      cases r <;> rfl

theorem fault_of_appendUpTo {limit : Nat} {records : List ρ} {c : Cursor} {e : Error}
    {after : List ρ × Cursor}
    (h : (appendUpTo m type c.columns limit).exec (records, c) = (.error e, after)) :
    c.Fault e := by
  induction limit generalizing records c with
  | zero => exact absurd h (by simp [appendUpTo])
  | succ limit ih =>
    rw [exec_appendUpTo_succ] at h
    split at h
    · next hnext =>
      cases h
      exact .inl (Cursor.next_error hnext)
    · exact absurd h (by simp)
    · next values c' hnext =>
      obtain ⟨hvalues, hbehind⟩ := Cursor.next_some hnext
      split at h
      · next hfresh =>
        cases h
        obtain ⟨d, hrow⟩ := fresh_eq_error_iff.1 hfresh
        exact fault_of_row hvalues hrow
      · next d hfresh =>
        rw [← hbehind.columns] at h
        rcases hrest : (appendUpTo m type c'.columns limit).exec (records ++ [d], c') with ⟨r, rest⟩
        rw [hrest] at h
        cases r with
        | error f =>
          cases h
          exact hbehind.fault (ih hrest)
        | ok n => exact absurd h (by simp [Except.map])

theorem fault_of_all {records : List ρ} {c : Cursor} {e : Error} {after : List ρ × Cursor}
    (h : (all m type).exec (records, c) = (.error e, after)) : c.Fault e := by
  unfold all at h
  rw [Action.exec_bind_ok (Action.exec_get _)] at h
  exact fault_of_appendUpTo h

end Scan

/-! ## Errors of calls -/

namespace Session

variable {s : Session σ η} {m : Mapping} {type : RecordType ρ} {table : Table}
  {key : List m.Index} {P : Cursor → Prop}

theorem reported_of_execute (ha : s.adapter.Serves P) {st : Statement} {db db' : σ} {e : Error}
    (h : (s.execute st).exec db = (.error e, db')) : e.Reported P := by
  obtain ⟨f, rfl⟩ := ha.execute _ _ _ _ _ _ h
  exact .adapter f

/-- A failed query failed by itself or with a fault of a cursor that its visitor ran into. -/
theorem reported_of_query (ha : s.adapter.Serves P) {sql : String} {args : List Value}
    {visit : Action (β × Cursor) Unit} {b : β} {db : σ} {e : Error} {after : β × σ}
    (hvisit : ∀ b c, (visit.exec (b, c)).1 = .error e → c.Fault e)
    (h : (s.adapter.query s.handle sql args visit).exec (b, db) = (.error e, after)) :
    e.Reported P := by
  rcases ha.query _ _ _ _ _ _ _ _ h with ⟨f, rfl⟩ | ⟨b', c, hfails, hc, herror⟩
  · exact .adapter f
  · exact (hvisit b' c herror).reported hfails hc

variable [JsonLibrary]

theorem reported_of_scanFirst (ha : s.adapter.Serves P) {st : Statement} {d : ρ} {db : σ}
    {e : Error} {after : ρ × σ}
    (h : (s.scanFirst m type st).exec (d, db) = (.error e, after)) : e.Reported P := by
  rw [scanFirst, Action.exec_of] at h
  dsimp only at h
  rcases hquery : (s.adapter.query s.handle st.sql st.args (visitFirst m type)).exec
    ((d, false), db) with ⟨r, ⟨d₁, found⟩, db₁⟩
  rw [hquery] at h
  cases r with
  | ok u => exact absurd h (by simp [Except.map])
  | error f =>
    cases h
    refine reported_of_query ha (fun b c hvisit => ?_) hquery
    rw [visitFirst, Action.exec_of] at hvisit
    dsimp only at hvisit
    rcases hone : (Scan.one m type).exec (b.1, c) with ⟨r, d₂, c'⟩
    rw [hone] at hvisit
    cases r with
    | ok found => exact absurd hvisit (by simp)
    | error f =>
      cases hvisit
      exact Scan.fault_of_one hone

theorem reported_of_scanAll (ha : s.adapter.Serves P) {st : Statement} {db db' : σ} {e : Error}
    (h : (s.scanAll m type st).exec db = (.error e, db')) : e.Reported P := by
  rw [scanAll, Action.exec_of] at h
  dsimp only at h
  rcases hquery : (s.adapter.query s.handle st.sql st.args (do let _ ← Scan.all m type)).exec
    (([] : List ρ), db) with ⟨r, records, db₁⟩
  rw [hquery] at h
  cases r with
  | ok u => exact absurd h (by simp [Except.map])
  | error f =>
    cases h
    refine reported_of_query ha (fun b c hvisit => ?_) hquery
    rw [Action.exec_bind] at hvisit
    rcases hall : (Scan.all m type).exec (b, c) with ⟨r, after⟩
    rw [hall] at hvisit
    cases r with
    | ok n => exact absurd hvisit (by simp)
    | error f =>
      cases hvisit
      exact Scan.fault_of_all hall

theorem reported_of_insertReturning (ha : s.adapter.Serves P) {st : Statement} {d : ρ} {db : σ}
    {e : Error} {after : ρ × σ}
    (h : (s.insertReturning m type st).exec (d, db) = (.error e, after)) : e.Reported P := by
  rw [exec_insertReturning] at h
  split at h
  · exact absurd h (by simp)
  · cases h
    exact .adapter _
  · next hscan =>
    cases h
    exact reported_of_scanFirst ha hscan

theorem fault_of_fill {filled waiting : List ρ} {c : Cursor} {e : Error}
    (h : (Filling.fill m type filled waiting c).1 = .error e) : c.Fault e := by
  induction waiting generalizing filled c with
  | nil => exact absurd h (by simp [Filling.fill])
  | cons d waiting ih =>
    rw [Filling.fill] at h
    split at h
    · next hnext =>
      cases h
      exact .inl (Cursor.next_error hnext)
    · exact absurd h (by simp)
    · next values c' hnext =>
      obtain ⟨hvalues, hbehind⟩ := Cursor.next_some hnext
      split at h
      · next hrow =>
        cases h
        rw [hbehind.columns] at hrow
        exact Scan.fault_of_row hvalues hrow
      · exact hbehind.fault (ih h)

theorem reported_of_insertAllReturning (ha : s.adapter.Serves P) {st : Statement} {ds : List ρ}
    {db : σ} {e : Error} {after : List ρ × σ}
    (h : (s.insertAllReturning m type st).exec (ds, db) = (.error e, after)) : e.Reported P := by
  rw [insertAllReturning, Action.exec_of] at h
  dsimp only at h
  rcases hquery : (s.adapter.query s.handle st.sql st.args (Filling.visit m type)).exec
    ((⟨[], ds⟩ : Filling ρ), db) with ⟨r, f, db₁⟩
  rw [hquery] at h
  cases r with
  | error e' =>
    cases h
    refine reported_of_query ha (fun b c hvisit => ?_) hquery
    rw [Filling.visit, Action.exec_of] at hvisit
    exact fault_of_fill hvisit
  | ok u =>
    obtain ⟨h, -⟩ := Prod.mk.inj h
    have h : (if f.waiting.isEmpty then .ok () else .error (driverFault st
      s!"insert returned {f.filled.length} rows for {ds.length} records") : Except Error Unit) =
        .error e := h
    split at h
    · exact absurd h (by simp)
    · cases h
      exact .adapter _

theorem reported_of_sendMany (ha : s.adapter.Serves P) {st : InsertStatement m} {ds : List ρ}
    {db : σ} {e : Error} {after : List ρ × σ}
    (h : (s.sendMany m type st).exec (ds, db) = (.error e, after)) : e.Reported P := by
  rw [exec_sendMany] at h
  split at h
  · rcases hexec : (s.execute st.toStatement).exec db with ⟨r, db₁⟩
    rw [hexec] at h
    cases r with
    | ok result => exact absurd h (by simp [Except.map])
    | error f =>
      cases h
      exact reported_of_execute ha hexec
  · exact reported_of_insertAllReturning ha h

end Session
end TableRecords
