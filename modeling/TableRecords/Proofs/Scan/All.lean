import TableRecords.Proofs.Session.Rows

/-!
# Reading every row of a cursor

A row that is read and copied gives a record of its own (`recordOf`), and `all` appends these in the
order of the rows.  It goes on up to the first row that gives none, and asks for nothing behind it:

    c.rows = before ++ row :: rest → before.map recordOf = ds.map .ok → recordOf row = .error e →
      (all m type).exec (records, c) = (.error e, (records ++ ds, c.advance (ds.length + 1)))

So it comes to the same as `one`, repeated on a fresh record each time until there is no row or it
fails (`Repeats`).  `all_repeats_one` states both.
-/

namespace TableRecords.Scan

section

variable [JsonLibrary] {ρ : Type}

/-- The record of a row of a cursor: the row is read, and copied into a fresh record. -/
def recordOf (m : Mapping) (type : RecordType ρ) (names : List String)
    (row : Except Error (List Value)) : Except Error ρ :=
  row >>= fresh m type names

/-- What `one` comes to when it is repeated, each time on a fresh record, until there is no row or it
fails: the number of rows or the error, the records, and the cursor behind them. -/
inductive Repeats (m : Mapping) (type : RecordType ρ) :
    Cursor → Except Error Nat → List ρ → Cursor → Prop where
  | none {c c' : Cursor} {d : ρ} (hone : (one m type).exec (type.zero, c) = (.ok false, (d, c'))) :
    Repeats m type c (.ok 0) [] c'
  | fails {c c' : Cursor} {d : ρ} {e : Error}
    (hone : (one m type).exec (type.zero, c) = (.error e, (d, c'))) :
    Repeats m type c (.error e) [] c'
  | again {c c' c'' : Cursor} {d : ρ} {r : Except Error Nat} {ds : List ρ}
    (hone : (one m type).exec (type.zero, c) = (.ok true, (d, c')))
    (hrest : Repeats m type c' r ds c'') :
    Repeats m type c (r.map (· + 1)) (d :: ds) c''

variable {m : Mapping} {type : RecordType ρ} {names : List String} {c c' : Cursor}
  {rest : List (Except Error (List Value))}

/-! ## One row -/

theorem recordOf_eq_ok_iff {row : Except Error (List Value)} {d : ρ} :
    recordOf m type names row = .ok d ↔
      ∃ values, row = .ok values ∧ (Scan.row m type names values).exec type.zero = (.ok (), d) := by
  simp only [recordOf, bind_eq_ok_iff, fresh_eq_ok_iff]

theorem recordOf_eq_error_iff {row : Except Error (List Value)} {e : Error} :
    recordOf m type names row = .error e ↔ row = .error e ∨
      ∃ values, row = .ok values ∧
        ∃ d, (Scan.row m type names values).exec type.zero = (.error e, d) := by
  simp only [recordOf, bind_eq_error_iff, fresh_eq_error_iff]

theorem exec_one_of_nil (h : c.rows = []) (d : ρ) :
    (one m type).exec (d, c) = (.ok false, (d, c.advance 1)) := by
  rw [exec_one, Cursor.exec_next_of_nil h]

theorem exec_one_of_record {row : Except Error (List Value)} {d : ρ} (h : c.rows = row :: rest)
    (hrow : recordOf m type c.columns row = .ok d) :
    (one m type).exec (type.zero, c) = (.ok true, (d, c.advance 1)) := by
  obtain ⟨values, rfl, hcopy⟩ := recordOf_eq_ok_iff.1 hrow
  rw [exec_one, Cursor.exec_next_of_cons h]
  dsimp only [Except.map]
  rw [hcopy]

theorem exec_one_of_error {row : Except Error (List Value)} {e : Error} (h : c.rows = row :: rest)
    (hrow : recordOf m type c.columns row = .error e) :
    ∃ d, (one m type).exec (type.zero, c) = (.error e, (d, c.advance 1)) := by
  rw [exec_one, Cursor.exec_next_of_cons h]
  rcases recordOf_eq_error_iff.1 hrow with rfl | ⟨values, rfl, d, hcopy⟩
  · exact ⟨type.zero, rfl⟩
  · refine ⟨d, ?_⟩
    dsimp only [Except.map]
    rw [hcopy]

/-! ## Repeating -/

/-- The records in front are those of their rows. -/
theorem Repeats.append {before : List (Except Error (List Value))} {ds : List ρ}
    (hbefore : before.map (recordOf m type c.columns) = ds.map .ok)
    (hrows : c.rows = before ++ rest) {r : Except Error Nat} {ds' : List ρ}
    (hrest : Repeats m type (c.advance ds.length) r ds' c') :
    Repeats m type c (r.map (· + ds.length)) (ds ++ ds') c' := by
  induction before generalizing c ds with
  | nil =>
    obtain rfl := List.map_eq_nil_iff.1 hbefore.symm
    rw [List.length_nil, Cursor.advance_zero] at hrest
    rw [List.length_nil, List.nil_append]
    cases r <;> exact hrest
  | cons row before ih =>
    cases ds with
    | nil => exact absurd hbefore (by simp)
    | cons d ds =>
      rw [List.map_cons, List.map_cons, List.cons.injEq] at hbefore
      rw [List.cons_append] at hrows
      have hbehind : (c.advance 1).rows = before ++ rest := by
        rw [Cursor.rows_advance, hrows, List.drop_one, List.tail_cons]
      rw [List.length_cons, Nat.add_comm, ← Cursor.advance_advance] at hrest
      have hagain := Repeats.again (exec_one_of_record hrows hbefore.1) (ih hbefore.2 hbehind hrest)
      cases r <;> exact hagain

/-- Every row has given its record. -/
theorem repeats_of_records {ds : List ρ}
    (h : c.rows.map (recordOf m type c.columns) = ds.map .ok) :
    Repeats m type c (.ok ds.length) ds (c.advance (ds.length + 1)) := by
  have hlength : c.rows.length = ds.length := by simpa using congrArg List.length h
  have hnil : (c.advance ds.length).rows = [] := by
    rw [Cursor.rows_advance, ← hlength, List.drop_length]
  have hlast := Repeats.none (exec_one_of_nil (m := m) hnil type.zero)
  have hall := Repeats.append h (List.append_nil _).symm hlast
  rw [List.append_nil, Cursor.advance_advance] at hall
  simpa [Except.map] using hall

/-- A row gives no record. -/
theorem repeats_of_error {before : List (Except Error (List Value))}
    {row : Except Error (List Value)} {ds : List ρ} {e : Error}
    (hrows : c.rows = before ++ row :: rest)
    (hbefore : before.map (recordOf m type c.columns) = ds.map .ok)
    (hrow : recordOf m type c.columns row = .error e) :
    Repeats m type c (.error e) ds (c.advance (ds.length + 1)) := by
  have hlength : before.length = ds.length := by simpa using congrArg List.length hbefore
  have hbehind : (c.advance ds.length).rows = row :: rest := by
    rw [Cursor.rows_advance, hrows, ← hlength, List.drop_left]
  obtain ⟨d, hone⟩ := exec_one_of_error hbehind hrow
  have hall := Repeats.append hbefore hrows (Repeats.fails hone)
  rw [List.append_nil, Cursor.advance_advance] at hall
  exact hall

theorem exists_repeats (m : Mapping) (type : RecordType ρ) (c : Cursor) :
    ∃ r ds c', Repeats m type c r ds c' := by
  cases h : c.rows.mapM (recordOf m type c.columns) with
  | ok ds => exact ⟨_, _, _, repeats_of_records (mapM_eq_ok_iff.1 h)⟩
  | error e =>
    obtain ⟨before, row, rest, hrows, hbefore, hrow⟩ := mapM_eq_error_iff.1 h
    obtain ⟨ds, hds⟩ := exists_mapM_eq_ok hbefore
    exact ⟨_, _, _, repeats_of_error hrows (mapM_eq_ok_iff.1 hds) hrow⟩

/-! ## The loop -/

theorem advance_of_one {d : ρ} (h : (one m type).exec (type.zero, c) = (.ok true, (d, c'))) :
    c.rows ≠ [] ∧ c' = c.advance 1 := by
  cases hrows : c.rows with
  | nil =>
    rw [exec_one_of_nil hrows] at h
    exact absurd h (by simp)
  | cons row rest =>
    refine ⟨List.cons_ne_nil row rest, ?_⟩
    cases hrow : recordOf m type c.columns row with
    | error e =>
      obtain ⟨d', hone⟩ := exec_one_of_error hrows hrow
      rw [hone] at h
      exact absurd h (by simp)
    | ok d' =>
      rw [exec_one_of_record hrows hrow] at h
      obtain ⟨-, h⟩ := Prod.mk.inj h
      exact (Prod.mk.inj h).2.symm

/-- A round of the loop is a reading of one row. -/
theorem exec_appendUpTo_eq_one (limit : Nat) (records : List ρ) (c : Cursor) :
    (appendUpTo m type c.columns (limit + 1)).exec (records, c) =
      match (one m type).exec (type.zero, c) with
      | (.error e, (_, c')) => (.error e, (records, c'))
      | (.ok false, (_, c')) => (.ok 0, (records, c'))
      | (.ok true, (d, c')) =>
        (((appendUpTo m type c.columns limit).exec (records ++ [d], c')).1.map (· + 1),
          ((appendUpTo m type c.columns limit).exec (records ++ [d], c')).2) := by
  rw [exec_appendUpTo_succ, exec_one]
  rcases Cursor.next.exec c with ⟨r, c'⟩
  match r with
  | .error e => rfl
  | .ok none => rfl
  | .ok (some values) =>
    dsimp only [fresh]
    rcases (row m type c.columns values).exec type.zero with ⟨e | u, d⟩ <;> rfl

/-- The limit is never met, since every round takes a row. -/
theorem exec_appendUpTo_of_repeats {r : Except Error Nat} {ds : List ρ}
    (h : Repeats m type c r ds c') {limit : Nat} (hlimit : c.rows.length < limit)
    (records : List ρ) :
    (appendUpTo m type c.columns limit).exec (records, c) = (r, (records ++ ds, c')) := by
  induction h generalizing limit records with
  | none hone =>
    obtain ⟨limit, rfl⟩ := Nat.exists_eq_succ_of_ne_zero (Nat.ne_zero_of_lt hlimit)
    rw [exec_appendUpTo_eq_one, hone, List.append_nil]
  | fails hone =>
    obtain ⟨limit, rfl⟩ := Nat.exists_eq_succ_of_ne_zero (Nat.ne_zero_of_lt hlimit)
    rw [exec_appendUpTo_eq_one, hone, List.append_nil]
  | @again c c' c'' d r ds hone hrest ih =>
    obtain ⟨limit, rfl⟩ := Nat.exists_eq_succ_of_ne_zero (Nat.ne_zero_of_lt hlimit)
    obtain ⟨hrows, rfl⟩ := advance_of_one hone
    have hpos : 0 < c.rows.length := List.length_pos_iff.2 hrows
    have hlimit : (c.advance 1).rows.length < limit := by
      rw [Cursor.rows_advance, List.length_drop]
      omega
    have hrun := ih hlimit (records ++ [d])
    rw [Cursor.columns_advance] at hrun
    rw [exec_appendUpTo_eq_one, hone]
    dsimp only
    rw [hrun, List.append_assoc, List.singleton_append]

theorem exec_all_of_repeats {r : Except Error Nat} {ds : List ρ} (h : Repeats m type c r ds c')
    (records : List ρ) : (all m type).exec (records, c) = (r, (records ++ ds, c')) := by
  unfold all
  rw [Action.exec_bind_ok (Action.exec_get _)]
  exact exec_appendUpTo_of_repeats h (Nat.lt_succ_self _) records

theorem exec_all_eq_iff {r : Except Error Nat} {ds : List ρ} (records : List ρ) :
    (all m type).exec (records, c) = (r, (records ++ ds, c')) ↔ Repeats m type c r ds c' := by
  refine ⟨fun h => ?_, fun h => exec_all_of_repeats h records⟩
  obtain ⟨r', ds', c'', hrepeats⟩ := exists_repeats m type c
  rw [exec_all_of_repeats hrepeats records] at h
  obtain ⟨rfl, hafter⟩ := Prod.mk.inj h
  obtain ⟨hrecords, rfl⟩ := Prod.mk.inj hafter
  obtain rfl := List.append_cancel_left hrecords
  exact hrepeats

/-- The first row decides how the loop begins. -/
theorem exec_all_of_nil (h : c.rows = []) (records : List ρ) :
    (all m type).exec (records, c) = (.ok 0, (records, c.advance 1)) := by
  have hall := exec_all_of_repeats (.none (exec_one_of_nil (m := m) h type.zero)) records
  rwa [List.append_nil] at hall

theorem exec_all_of_error {row : Except Error (List Value)} {e : Error} (h : c.rows = row :: rest)
    (hrow : recordOf m type c.columns row = .error e) (records : List ρ) :
    (all m type).exec (records, c) = (.error e, (records, c.advance 1)) := by
  obtain ⟨d, hone⟩ := exec_one_of_error h hrow
  have hall := exec_all_of_repeats (.fails hone) records
  rwa [List.append_nil] at hall

theorem exec_all_of_record {row : Except Error (List Value)} {d : ρ} (h : c.rows = row :: rest)
    (hrow : recordOf m type c.columns row = .ok d) (records : List ρ) :
    ∃ r ds c', (all m type).exec (records, c) = (r, (records ++ d :: ds, c')) := by
  obtain ⟨r, ds, c', hrest⟩ := exists_repeats m type (c.advance 1)
  exact ⟨_, ds, c', exec_all_of_repeats (.again (exec_one_of_record h hrow) hrest) records⟩

/-! ## Main result -/

/-- **All rows of a cursor are read one by one, each into a record of its own.**  The loop ends as
the repeated reading of one row does.  It counts `n` rows exactly if there are `n` and each gives its
record, which are then appended in order.  At the first row that gives none it ends with the error of
that row: the records of the rows in front of it are appended, and no row behind it was asked for. -/
theorem all_repeats_one (m : Mapping) (type : RecordType ρ) (records : List ρ) (c : Cursor)
    {run : Except Error Nat × (List ρ × Cursor)} (hrun : (all m type).exec (records, c) = run) :
    (∃ ds, run.2.1 = records ++ ds) ∧
    (∀ r ds c', run = (r, (records ++ ds, c')) ↔ Repeats m type c r ds c') ∧
    (∀ n, run.1 = .ok n ↔
      ∃ ds : List ρ, c.rows.map (recordOf m type c.columns) = ds.map .ok ∧ ds.length = n) ∧
    (∀ ds : List ρ, c.rows.map (recordOf m type c.columns) = ds.map .ok →
      run = (.ok ds.length, (records ++ ds, c.advance (ds.length + 1)))) ∧
    ∀ before row rest (ds : List ρ) e, c.rows = before ++ row :: rest →
      before.map (recordOf m type c.columns) = ds.map .ok →
      recordOf m type c.columns row = .error e →
        run = (.error e, (records ++ ds, c.advance (ds.length + 1))) := by
  have hrepeated : ∀ r ds c', Repeats m type c r ds c' → run = (r, (records ++ ds, c')) :=
    fun r ds c' h => hrun.symm.trans (exec_all_of_repeats h records)
  have hfails : ∀ before row rest (ds : List ρ) e, c.rows = before ++ row :: rest →
      before.map (recordOf m type c.columns) = ds.map .ok →
      recordOf m type c.columns row = .error e →
        run = (.error e, (records ++ ds, c.advance (ds.length + 1))) :=
    fun before row rest ds e hrows hbefore hrow =>
      hrepeated _ _ _ (repeats_of_error hrows hbefore hrow)
  have hall : ∀ ds : List ρ, c.rows.map (recordOf m type c.columns) = ds.map .ok →
      run = (.ok ds.length, (records ++ ds, c.advance (ds.length + 1))) :=
    fun ds h => hrepeated _ _ _ (repeats_of_records h)
  refine ⟨?_, fun r ds c' => ?_, fun n => ⟨fun hok => ?_, fun ⟨ds, h, hn⟩ => ?_⟩, hall, hfails⟩
  · obtain ⟨r, ds, c', h⟩ := exists_repeats m type c
    exact ⟨ds, by rw [hrepeated r ds c' h]⟩
  · rw [← hrun]
    exact exec_all_eq_iff records
  · cases hrows : c.rows.mapM (recordOf m type c.columns) with
    | ok ds =>
      have h := mapM_eq_ok_iff.1 hrows
      rw [hall ds h] at hok
      exact ⟨ds, h, Except.ok.inj hok⟩
    | error e =>
      obtain ⟨before, row, rest, hsplit, hbefore, hrow⟩ := mapM_eq_error_iff.1 hrows
      obtain ⟨ds, hds⟩ := exists_mapM_eq_ok hbefore
      rw [hfails before row rest ds e hsplit (mapM_eq_ok_iff.1 hds) hrow] at hok
      exact absurd hok (by simp)
  · rw [hall ds h, ← hn]

end

/-- Two notes are appended to one that was there, and then a row cannot be read. -/
theorem all_repeats_one_notes :
    (all noteMapping noteType).exec ([noteOf 1 "a" "" ""], noteRows) =
      (.error (.adapter (.closed "" 0)),
        ([noteOf 1 "a" "" "", noteOf 7 "" "A" "noon", noteOf 8 "" "B" "noon"],
          noteRows.advance 3)) :=
  (all_repeats_one noteMapping noteType [noteOf 1 "a" "" ""] noteRows rfl).2.2.2.2
    [.ok [.integer 7, .text "A", .text "noon"], .ok [.integer 8, .text "B", .text "noon"]] _ []
    [noteOf 7 "" "A" "noon", noteOf 8 "" "B" "noon"] _ rfl rfl rfl

end TableRecords.Scan
