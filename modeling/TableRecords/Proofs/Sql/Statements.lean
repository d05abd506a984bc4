import TableRecords.Proofs.Sql.Reading

/-!
# Reading generated statements back

Every generated statement is read back by `readStatement`, for any column names at all and for any
table name of letters, digits, `_` and `.`:

    read_insert, read_update, read_delete, read_fetch

The placeholders are numbered from one on (`map_number_rowsSlots`) and stand row by row for the
columns (`map_place_rowsSlots`).
-/

namespace TableRecords.Sql

variable (d : Dialect)

/-! ## Words of generated statements -/

theorem numbered_ne_nil (first : Nat) {columns : List String} (hne : columns ≠ []) :
    numbered first columns ≠ [] := by
  obtain ⟨c, cs, rfl⟩ := List.exists_cons_of_ne_nil hne
  simp [numbered, List.range'_succ]

theorem Lexed.addText_columnWords (s lead separator : String) {cs : List String} (hne : cs ≠ [])
    (l : Lexed) : (l.addWords (columnWords lead separator cs)).addText s.toList =
      l.addWords (columnWords (s ++ lead) separator cs) := by
  obtain ⟨c, cs, rfl⟩ := List.exists_cons_of_ne_nil hne
  simp [columnWords]

theorem Lexed.addText_rowsWords (s lead : String) {width count : Nat} (hwidth : width ≠ 0)
    (hcount : count ≠ 0) (l : Lexed) :
    (l.addWords (rowsWords d lead width 0 count)).addText s.toList =
      l.addWords (rowsWords d (s ++ lead) width 0 count) := by
  obtain ⟨more, rfl⟩ := Nat.exists_eq_succ_of_ne_zero hcount
  obtain ⟨rest, rfl⟩ := Nat.exists_eq_succ_of_ne_zero hwidth
  simp [rowsWords, rowWords, List.range'_succ]

theorem Lexed.addText_equalityWords (s lead separator : String) {ps : List (String × Nat)}
    (hne : ps ≠ []) (l : Lexed) :
    (l.addWords (equalityWords d lead separator ps)).addText s.toList =
      l.addWords (equalityWords d (s ++ lead) separator ps) := by
  obtain ⟨p, ps, rfl⟩ := List.exists_cons_of_ne_nil hne
  simp [equalityWords]

/-- The columns that an `OUTPUT` clause names. -/
def outputColumns (readBack : List String) : List String :=
  if d.insertMethod = .output then readBack else []

/-- The columns that a `RETURNING` clause names. -/
def returningColumns (readBack : List String) : List String :=
  if d.insertMethod = .returning then readBack else []

theorem lexed_inserted (cs : List String) (fs : List Fragment) :
    lexed d ((cs.flatMap fun c => [.text ", ", .text "INSERTED.", .ident c]) ++ fs) =
      (lexed d fs).addWords (columnWords ", INSERTED." ", INSERTED." cs) := by
  induction cs with
  | nil => rfl
  | cons c cs ih =>
    rw [List.flatMap_cons, List.append_assoc]
    simp only [List.cons_append, List.nil_append]
    rw [lexed_text, lexed_text, lexed_ident, ih]
    simp [columnWords]

theorem lexed_output (readBack : List String) (fs : List Fragment) :
    lexed d (InsertStatement.outputClause d readBack ++ fs) =
      (lexed d fs).addWords
        (columnWords " OUTPUT INSERTED." ", INSERTED." (outputColumns d readBack)) := by
  unfold InsertStatement.outputClause outputColumns
  cases readBack with
  | nil => simp [columnWords]
  | cons c cs =>
    by_cases hd : d.insertMethod = .output
    · rw [if_pos ⟨hd, List.cons_ne_nil _ _⟩, if_pos hd, List.map_cons, separated_cons,
        List.flatMap_map, List.cons_append, List.append_assoc]
      simp only [List.cons_append, List.nil_append]
      rw [lexed_text, lexed_text, lexed_ident, lexed_inserted]
      simp [columnWords]
    · rw [if_neg (fun h => hd h.1), if_neg hd]
      rfl

theorem lexed_returning (readBack : List String) :
    lexed d (.text ")" :: InsertStatement.returningClause d readBack) =
      ⟨columnWords ") RETURNING " ", " (returningColumns d readBack),
        if returningColumns d readBack = [] then [')'] else []⟩ := by
  unfold InsertStatement.returningClause returningColumns
  by_cases h : d.insertMethod = .returning ∧ readBack ≠ []
  · rw [if_pos h, if_pos h.1, if_neg h.2, lexed_text, lexed_text,
      ← List.append_nil (columnList readBack), lexed_columnList,
      Lexed.addText_columnWords _ _ _ h.2, Lexed.addText_columnWords _ _ _ h.2]
    simp [Lexed.addWords, lexed]
  · rw [if_neg h]
    have hnone : (if d.insertMethod = .returning then readBack else []) = [] := by
      by_cases hd : d.insertMethod = .returning
      · rw [if_pos hd]
        exact Classical.byContradiction fun hne => h ⟨hd, hne⟩
      · rw [if_neg hd]
    rw [hnone]
    rfl

/-- What an insert says. -/
theorem lexed_insert (table : String) {columns : List String} (hcolumns : columns ≠ [])
    {rows : Nat} (hrows : rows ≠ 0) (readBack : List String) :
    lexed d (InsertStatement.fragments d table columns rows readBack) =
      ⟨columnWords ("INSERT INTO " ++ table ++ " (") ", " columns ++
        (columnWords ") OUTPUT INSERTED." ", INSERTED." (outputColumns d readBack) ++
          (rowsWords d (if outputColumns d readBack = [] then ") VALUES (" else " VALUES (")
              columns.length 0 rows ++
            columnWords ") RETURNING " ", " (returningColumns d readBack))),
        if returningColumns d readBack = [] then [')'] else []⟩ := by
  have hwidth : columns.length ≠ 0 := fun h => hcolumns (List.length_eq_zero_iff.1 h)
  unfold InsertStatement.fragments
  simp only [List.cons_append, List.append_assoc]
  rw [lexed_text, lexed_columnList, lexed_text, lexed_output, lexed_rows d _ hwidth hrows,
    lexed_returning, Lexed.addText_columnWords _ _ _ hcolumns]
  by_cases hout : outputColumns d readBack = []
  · rw [hout, if_pos rfl, columnWords, Lexed.addWords_nil,
      Lexed.addText_rowsWords d _ _ hwidth hrows]
    simp [Lexed.addWords, columnWords]
    rfl
  · rw [if_neg hout, Lexed.addText_columnWords _ _ _ hout]
    simp [Lexed.addWords]
    rfl

/-- What an update says. -/
theorem lexed_update (table : String) {columns keyColumns : List String} (hcolumns : columns ≠ [])
    (hkey : keyColumns ≠ []) :
    lexed d (Statement.updateFragments table columns keyColumns) =
      ⟨equalityWords d ("UPDATE " ++ table ++ " SET ") ", " (numbered 1 columns) ++
        equalityWords d " WHERE " " AND " (numbered (columns.length + 1) keyColumns), []⟩ := by
  unfold Statement.updateFragments
  rw [List.cons_append, lexed_text, lexed_equalities, lexed_text,
    ← List.append_nil (equalities _ _ keyColumns), lexed_equalities,
    Lexed.addText_equalityWords _ _ _ _ (numbered_ne_nil _ hkey),
    Lexed.addText_equalityWords _ _ _ _ (numbered_ne_nil _ hcolumns)]
  simp [Lexed.addWords, lexed]
  rfl

theorem lexed_key (first : Nat) {keyColumns : List String} (hkey : keyColumns ≠ []) (s : String) :
    lexed d (.text s :: equalities " AND " first keyColumns) =
      ⟨equalityWords d s " AND " (numbered first keyColumns), []⟩ := by
  rw [lexed_text, ← List.append_nil (equalities _ _ keyColumns), lexed_equalities,
    Lexed.addText_equalityWords _ _ _ _ (numbered_ne_nil _ hkey)]
  simp [Lexed.addWords, lexed]

/-! ## Spacing of generated statements -/

/-- Letters, digits, `_` and `.`; the letters beyond ASCII are among the characters from 128 on. -/
def IsTableName (name : String) : Prop :=
  ∀ c ∈ name.toList, c.isAlphanum = true ∨ c = '_' ∨ c = '.' ∨ 128 ≤ c.toNat

instance (name : String) : Decidable (IsTableName name) :=
  List.decidableBAll _ name.toList

theorem IsTableName.plain {name : String} (h : IsTableName name) :
    name.toList.all isPlain = true := by
  rw [List.all_eq_true]
  intro c hc
  unfold isPlain
  rw [decide_eq_true_iff]
  intro hmem
  have hbad : ∀ c ∈ ['\x22', '\x60', '[', '$', '@', '?'],
      ¬ (c.isAlphanum = true ∨ c = '_' ∨ c = '.' ∨ 128 ≤ c.toNat) := by simp
  exact hbad c hmem (h c hc)

/-- Generated text around a table name. -/
theorem IsTableName.plain_around {name : String} (h : IsTableName name) {front back : String}
    (hfront : front.toList.all isPlain = true) (hback : back.toList.all isPlain = true) :
    (front ++ name ++ back).toList.all isPlain = true := by
  simp [hfront, hback, h.plain, -List.all_eq_true]

/-- Items between separators are as well spaced as each of them. -/
theorem spaced_separated {separator : String} {items : List (List Fragment)} {fs : List Fragment}
    (hplain : separator.toList.all isPlain = true)
    (hapart : ∀ gs, Apart (.text separator :: gs))
    (hitem : ∀ item ∈ items, ∀ gs, Apart gs → Spaced gs → Spaced (item ++ gs))
    (happ : Apart fs) (hfs : Spaced fs) : Spaced (separated separator items ++ fs) := by
  induction items with
  | nil => exact hfs
  | cons item items ih =>
    have ih := ih fun i hi => hitem i (List.mem_cons_of_mem _ hi)
    have hfirst := hitem item List.mem_cons_self
    cases items with
    | nil => exact hfirst fs happ hfs
    | cons next items =>
      rw [separated, List.append_assoc, List.cons_append]
      · exact hfirst _ (hapart _) ⟨hplain, ih⟩
      · exact List.cons_ne_nil _ _

theorem apart_text {s : String} (h : s.toList.head?.any (· ∈ [' ', ',', ')']) = true)
    (fs : List Fragment) : Apart (.text s :: fs) := by
  obtain ⟨c, hc, hmem⟩ := (Option.any_eq_true _ _).1 h
  exact ⟨c, hc, of_decide_eq_true hmem⟩

theorem spaced_columnList (cs : List String) {fs : List Fragment} (happ : Apart fs)
    (hfs : Spaced fs) : Spaced (columnList cs ++ fs) := by
  refine spaced_separated rfl (apart_text rfl) (fun item hitem gs hg hgs => ?_) happ hfs
  obtain ⟨c, -, rfl⟩ := List.mem_map.1 hitem
  exact ⟨hg, hgs⟩

theorem spaced_equalities {separator : String} (hplain : separator.toList.all isPlain = true)
    (hapart : ∀ gs, Apart (.text separator :: gs)) (first : Nat) (cs : List String)
    {fs : List Fragment} (happ : Apart fs) (hfs : Spaced fs) :
    Spaced (equalities separator first cs ++ fs) := by
  refine spaced_separated hplain hapart (fun item hitem gs hg hgs => ?_) happ hfs
  obtain ⟨p, -, rfl⟩ := List.mem_map.1 hitem
  exact ⟨apart_text rfl _, rfl, hg, hgs⟩

theorem spaced_rowOf (first count : Nat) {fs : List Fragment} (hfs : Spaced fs) :
    Spaced (rowOf first count ++ fs) := by
  unfold rowOf
  rw [List.cons_append, List.cons_append, List.append_assoc]
  refine ⟨rfl, spaced_separated rfl (apart_text rfl) (fun item hitem gs hg hgs => ?_)
    (apart_text rfl _) ⟨rfl, hfs⟩⟩
  obtain ⟨n, -, rfl⟩ := List.mem_map.1 hitem
  exact ⟨hg, hgs⟩

theorem spaced_insert {table : String} (htable : IsTableName table) (columns : List String)
    (rows : Nat) (readBack : List String) :
    Spaced (InsertStatement.fragments d table columns rows readBack) := by
  have hreturning : Apart (InsertStatement.returningClause d readBack) ∧
      Spaced (InsertStatement.returningClause d readBack) := by
    unfold InsertStatement.returningClause
    split
    · refine ⟨apart_text rfl _, rfl, ?_⟩
      rw [← List.append_nil (columnList readBack)]
      exact spaced_columnList _ trivial trivial
    · exact ⟨trivial, trivial⟩
  have hvalues : Spaced (.text " VALUES " :: (separated ", " ((List.range rows).map fun r =>
      rowOf (1 + r * columns.length) columns.length) ++
        InsertStatement.returningClause d readBack)) := by
    refine ⟨rfl, spaced_separated rfl (apart_text rfl) (fun item hitem gs hg hgs => ?_)
      hreturning.1 hreturning.2⟩
    obtain ⟨r, -, rfl⟩ := List.mem_map.1 hitem
    exact spaced_rowOf _ _ hgs
  have houtput : ∀ {fs : List Fragment}, Apart fs → Spaced fs →
      Spaced (InsertStatement.outputClause d readBack ++ fs) := by
    intro fs happ hfs
    unfold InsertStatement.outputClause
    split
    · refine ⟨rfl, spaced_separated rfl (apart_text rfl) (fun item hitem gs hg hgs => ?_)
        happ hfs⟩
      obtain ⟨c, -, rfl⟩ := List.mem_map.1 hitem
      exact ⟨rfl, hg, hgs⟩
    · exact hfs
  unfold InsertStatement.fragments
  simp only [List.cons_append, List.append_assoc]
  exact ⟨htable.plain_around rfl rfl, spaced_columnList _ (apart_text rfl _)
    ⟨rfl, houtput (apart_text rfl _) hvalues⟩⟩

theorem spaced_update {table : String} (htable : IsTableName table)
    (columns keyColumns : List String) :
    Spaced (Statement.updateFragments table columns keyColumns) := by
  unfold Statement.updateFragments
  rw [List.cons_append]
  refine ⟨htable.plain_around rfl rfl, spaced_equalities rfl (apart_text rfl) _ _
    (apart_text rfl _) ⟨rfl, ?_⟩⟩
  rw [← List.append_nil (equalities _ _ _)]
  exact spaced_equalities rfl (apart_text rfl) _ _ trivial trivial

theorem spaced_delete {table : String} (htable : IsTableName table) (keyColumns : List String) :
    Spaced (Statement.deleteFragments table keyColumns) := by
  unfold Statement.deleteFragments
  rw [← List.append_nil (equalities _ _ _)]
  exact ⟨htable.plain_around rfl rfl,
    spaced_equalities rfl (apart_text rfl) _ _ trivial trivial⟩

theorem spaced_fetch {table : String} (htable : IsTableName table)
    (columns keyColumns : List String) :
    Spaced (Statement.fetchFragments table columns keyColumns) := by
  unfold Statement.fetchFragments
  rw [List.cons_append]
  have hhead : Apart (.text (" FROM " ++ table ++ " WHERE ") ::
      equalities " AND " 1 keyColumns) := by
    apply apart_text
    simp
  refine ⟨rfl, spaced_columnList _ hhead ⟨htable.plain_around rfl rfl, ?_⟩⟩
  rw [← List.append_nil (equalities _ _ _)]
  exact spaced_equalities rfl (apart_text rfl) _ _ trivial trivial

/-! ## Reading the statements -/

theorem between_append (front back name : String) :
    between front back (front ++ name ++ back).toList = some name := by
  have hdrop : (front ++ name ++ back).toList.drop front.toList.length =
      name.toList ++ back.toList := by
    simp [String.toList_append]
  have hpre : front.toList.isPrefixOf (front ++ name ++ back).toList = true := by
    rw [List.isPrefixOf_iff_prefix]
    simp [String.toList_append]
  have hsuf : back.toList.isSuffixOf (name.toList ++ back.toList) = true := by
    rw [List.isSuffixOf_iff_suffix]
    exact List.suffix_append _ _
  simp only [between, hdrop, hpre, hsuf]
  simp

/-- Words that were read up to here are not columns with another lead. -/
theorem stops_columnWords {lead lead' separator : String} (hlead : lead ≠ lead')
    (cs : List String) {ws : List Word} (h : Stops (identAfter lead') ws) :
    Stops (identAfter lead') (columnWords lead separator cs ++ ws) := by
  cases cs with
  | nil => exact h
  | cons c cs =>
    intro w hw
    obtain rfl : (⟨lead.toList, .ident c⟩ : Word) = w := by simpa [columnWords] using hw
    exact if_neg fun he => hlead (String.toList_inj.1 he)

theorem stops_param_columnWords (lead lead' separator : String) (cs : List String) :
    Stops (paramAfter lead') (columnWords lead separator cs) := by
  cases cs with
  | nil => exact stops_nil _
  | cons c cs =>
    intro w hw
    obtain rfl : (⟨lead.toList, .ident c⟩ : Word) = w := by simpa [columnWords] using hw
    rfl

theorem stops_rowsWords (lead lead' : String) {width count : Nat} (hwidth : width ≠ 0)
    (hcount : count ≠ 0) (ws : List Word) :
    Stops (identAfter lead') (rowsWords d lead width 0 count ++ ws) := by
  obtain ⟨more, rfl⟩ := Nat.exists_eq_succ_of_ne_zero hcount
  obtain ⟨rest, rfl⟩ := Nat.exists_eq_succ_of_ne_zero hwidth
  intro w hw
  simp only [rowsWords, List.range'_succ, rowWords, List.cons_append, List.head?_cons,
    Option.some.injEq] at hw
  obtain rfl := hw
  rfl

theorem stops_equalityWords {lead lead' separator : String} (hlead : lead ≠ lead')
    (ps : List (String × Nat)) :
    Stops (identAfter lead') (equalityWords d lead separator ps) := by
  cases ps with
  | nil => exact stops_nil _
  | cons p ps =>
    intro w hw
    obtain rfl : (⟨lead.toList, .ident p.1⟩ : Word) = w := by simpa [equalityWords] using hw
    exact if_neg fun he => hlead (String.toList_inj.1 he)

theorem readInsert_words (table : String) {columns : List String} (hcolumns : columns ≠ [])
    {rows : Nat} (hrows : rows ≠ 0) (output returning : List String) :
    readInsert table
      (columnWords "" ", " columns ++
        (columnWords ") OUTPUT INSERTED." ", INSERTED." output ++
          (rowsWords d (if output = [] then ") VALUES (" else " VALUES (") columns.length 0 rows ++
            columnWords ") RETURNING " ", " returning)))
      (if returning = [] then [')'] else []) =
    some ⟨.insert, table, columns, [], output ++ returning, rowsSlots d columns 0 rows⟩ := by
  have hwidth : columns.length ≠ 0 := fun h => hcolumns (List.length_eq_zero_iff.1 h)
  have hvalues : ∀ lead lead', Stops (identAfter lead') (rowsWords d lead columns.length 0 rows ++
      columnWords ") RETURNING " ", " returning) :=
    fun lead lead' => stops_rowsWords d lead lead' hwidth hrows _
  have hreturning : readColumns ") RETURNING " ", "
      (columnWords ") RETURNING " ", " returning ++ []) = (returning, []) :=
    readColumns_columnWords returning (stops_nil _) (stops_nil _)
  rw [List.append_nil] at hreturning
  unfold readInsert
  rw [readColumns_columnWords columns (stops_columnWords (by decide) _ (hvalues _ _))
    (stops_columnWords (by decide) _ (hvalues _ _))]
  simp only [readColumns_columnWords output (hvalues _ _) (hvalues _ _)]
  rw [readValues_rowsWords d hcolumns hrows (stops_param_columnWords _ _ _ _)]
  simp [hreturning]

theorem readWords_insert (table : String) (a : Atom) (ws : List Word) (tail : List Char)
    {r : Reading} (h : readInsert table (⟨[], a⟩ :: ws) tail = some r) :
    readWords (⟨("INSERT INTO " ++ table ++ " (").toList, a⟩ :: ws) tail = some r := by
  simp only [readWords, List.head?_cons, dropLead, between_append, Option.bind_eq_bind,
    Option.bind_some, h]
  rfl

theorem readWords_update (table : String) (a : Atom) (ws : List Word) (tail : List Char)
    {r : Reading} (h : readUpdate table (⟨[], a⟩ :: ws) tail = some r) :
    readWords (⟨("UPDATE " ++ table ++ " SET ").toList, a⟩ :: ws) tail = some r := by
  have hinsert : between "INSERT INTO " " (" ("UPDATE " ++ table ++ " SET ").toList = none := by
    simp [between]
  simp only [readWords, List.head?_cons, dropLead, hinsert, between_append, Option.bind_eq_bind,
    Option.bind_some, h]
  rfl

theorem readWords_delete (table : String) (a : Atom) (ws : List Word) (tail : List Char)
    {r : Reading} (h : readKey .delete [] table (⟨[], a⟩ :: ws) tail = some r) :
    readWords (⟨("DELETE FROM " ++ table ++ " WHERE ").toList, a⟩ :: ws) tail = some r := by
  have hother : ∀ front ∈ ["INSERT INTO ", "UPDATE "], ∀ back,
      between front back ("DELETE FROM " ++ table ++ " WHERE ").toList = none := by
    simp [between]
  simp only [readWords, List.head?_cons, dropLead, hother, between_append, Option.bind_eq_bind,
    Option.bind_some, h, List.mem_cons, true_or, or_true]
  rfl

/-- A read of no columns at all. -/
theorem readWords_fetch_nil (table : String) (a : Atom) (ws : List Word) (tail : List Char)
    {r : Reading} (h : readKey .select [] table (⟨[], a⟩ :: ws) tail = some r) :
    readWords (⟨("SELECT  FROM " ++ table ++ " WHERE ").toList, a⟩ :: ws) tail = some r := by
  have hother : ∀ front ∈ ["INSERT INTO ", "UPDATE ", "DELETE FROM "], ∀ back,
      between front back ("SELECT  FROM " ++ table ++ " WHERE ").toList = none := by
    simp [between]
  simp only [readWords, List.head?_cons, dropLead, hother, between_append, Option.bind_eq_bind,
    Option.bind_some, h, List.mem_cons, true_or, or_true]
  rfl

theorem readWords_fetch (table : String) {columns : List String} (hcolumns : columns ≠ [])
    (a : Atom) (ws : List Word) (tail : List Char) {r : Reading}
    (h : readKey .select columns table (⟨[], a⟩ :: ws) tail = some r) :
    readWords (columnWords "SELECT " ", " columns ++
      ⟨(" FROM " ++ table ++ " WHERE ").toList, a⟩ :: ws) tail = some r := by
  obtain ⟨c, cs, rfl⟩ := List.exists_cons_of_ne_nil hcolumns
  have hstops : ∀ lead, lead ∈ ["SELECT ", ", "] → Stops (identAfter lead)
      (⟨(" FROM " ++ table ++ " WHERE ").toList, a⟩ :: ws) := by
    intro lead hlead w hw
    obtain rfl := Option.some.inj hw
    have hne : (" FROM " ++ table ++ " WHERE ").toList ≠ lead.toList := by
      simp only [List.mem_cons, List.not_mem_nil, or_false] at hlead
      rcases hlead with rfl | rfl <;> simp
    unfold identAfter
    split
    · exact if_neg hne
    · rfl
  have hother : ∀ front ∈ ["INSERT INTO ", "UPDATE ", "DELETE FROM ", "SELECT  FROM "], ∀ back,
      between front back "SELECT ".toList = none := by
    simp [between]
  have hcolumns := readColumns_columnWords (c :: cs) (hstops "SELECT " (by simp))
    (hstops ", " (by simp))
  simp only [readWords, hcolumns]
  simp only [columnWords, List.cons_append]
  -- Spelled out, the lead would be compared letter by letter.
  generalize "SELECT ".toList = lead at hother
  simp only [List.head?_cons, hother, between_append, Option.bind_eq_bind, Option.bind_some, h,
    List.mem_cons, true_or, or_true, dropLead]
  rfl

/-- **An insert is read back.** -/
theorem read_insert {table : String} (htable : IsTableName table) {columns : List String}
    (hcolumns : columns ≠ []) {rows : Nat} (hrows : rows ≠ 0) (readBack : List String) :
    readStatement d (render d (InsertStatement.fragments d table columns rows readBack)) =
      some ⟨.insert, table, columns, [],
        if d.insertMethod = .lastInsertId then [] else readBack, rowsSlots d columns 0 rows⟩ := by
  have hreturned : outputColumns d readBack ++ returningColumns d readBack =
      if d.insertMethod = .lastInsertId then [] else readBack := by
    cases d <;> simp [outputColumns, returningColumns, Dialect.insertMethod]
  unfold readStatement
  rw [lex_render (spaced_insert d htable columns rows readBack),
    lexed_insert d table hcolumns hrows, ← hreturned]
  obtain ⟨c, cs, rfl⟩ := List.exists_cons_of_ne_nil hcolumns
  exact readWords_insert table _ _ _ (readInsert_words d table hcolumns hrows _ _)

theorem map_fst_numbered (first : Nat) (columns : List String) :
    (numbered first columns).map (·.1) = columns :=
  List.map_fst_zip (by simp)

theorem slotsOf_numbered (columns : List String) :
    slotsOf ((numbered 1 columns).map fun p => (p.1, d.number? p.2)) =
      rowsSlots d columns 0 1 := by
  simp [slotsOf, rowsSlots, rowSlots, numbered, Function.comp_def]

theorem numbered_append (first : Nat) (columns keyColumns : List String) :
    numbered first (columns ++ keyColumns) =
      numbered first columns ++ numbered (first + columns.length) keyColumns := by
  unfold numbered
  rw [List.length_append, ← List.range'_append_1, List.zip_append (by simp)]

theorem readUpdate_words (table : String) (columns keyColumns : List String) :
    readUpdate table
      (equalityWords d "" ", " (numbered 1 columns) ++
        equalityWords d " WHERE " " AND " (numbered (1 + columns.length) keyColumns)) [] =
    some ⟨.update, table, columns, keyColumns, [], rowsSlots d (columns ++ keyColumns) 0 1⟩ := by
  have hkeys : readEqualities " WHERE " " AND " (equalityWords d " WHERE " " AND "
      (numbered (1 + columns.length) keyColumns) ++ []) = _ :=
    readEqualities_equalityWords d _ (stops_nil _) (stops_nil _)
  rw [List.append_nil] at hkeys
  unfold readUpdate
  rw [readEqualities_equalityWords d _ (stops_equalityWords d (by decide) _)
    (stops_equalityWords d (by decide) _)]
  simp only [hkeys, and_self, if_true, ← List.map_append, ← numbered_append, slotsOf_numbered]
  simp only [List.map_map, Function.comp_def, map_fst_numbered]

theorem readKey_words (kind : StatementKind) (columns : List String) (table : String)
    (keyColumns : List String) :
    readKey kind columns table (equalityWords d "" " AND " (numbered 1 keyColumns)) [] =
      some ⟨kind, table, columns, keyColumns, [], rowsSlots d keyColumns 0 1⟩ := by
  have hkeys : readEqualities "" " AND "
      (equalityWords d "" " AND " (numbered 1 keyColumns) ++ []) = _ :=
    readEqualities_equalityWords d _ (stops_nil _) (stops_nil _)
  rw [List.append_nil] at hkeys
  unfold readKey
  simp only [hkeys, and_self, if_true, slotsOf_numbered]
  simp only [List.map_map, Function.comp_def, map_fst_numbered]

/-- **An update is read back.** -/
theorem read_update {table : String} (htable : IsTableName table) {columns keyColumns : List String}
    (hcolumns : columns ≠ []) (hkey : keyColumns ≠ []) :
    readStatement d (render d (Statement.updateFragments table columns keyColumns)) =
      some ⟨.update, table, columns, keyColumns, [],
        rowsSlots d (columns ++ keyColumns) 0 1⟩ := by
  unfold readStatement
  rw [lex_render (spaced_update htable columns keyColumns), lexed_update d table hcolumns hkey]
  obtain ⟨c, cs, rfl⟩ := List.exists_cons_of_ne_nil hcolumns
  have h := readUpdate_words d table (c :: cs) keyColumns
  rw [Nat.add_comm] at h
  exact readWords_update table _ _ _ h

/-- **A delete is read back.** -/
theorem read_delete {table : String} (htable : IsTableName table) {keyColumns : List String}
    (hkey : keyColumns ≠ []) :
    readStatement d (render d (Statement.deleteFragments table keyColumns)) =
      some ⟨.delete, table, [], keyColumns, [], rowsSlots d keyColumns 0 1⟩ := by
  unfold readStatement
  rw [lex_render (spaced_delete htable keyColumns), Statement.deleteFragments, lexed_key d 1 hkey]
  obtain ⟨c, cs, rfl⟩ := List.exists_cons_of_ne_nil hkey
  exact readWords_delete table _ _ _ (readKey_words d .delete [] table (c :: cs))

/-- **A read by key is read back.** -/
theorem read_fetch {table : String} (htable : IsTableName table) (columns : List String)
    {keyColumns : List String} (hkey : keyColumns ≠ []) :
    readStatement d (render d (Statement.fetchFragments table columns keyColumns)) =
      some ⟨.select, table, columns, keyColumns, [], rowsSlots d keyColumns 0 1⟩ := by
  unfold readStatement
  rw [lex_render (spaced_fetch htable columns keyColumns), Statement.fetchFragments,
    List.cons_append, lexed_text, lexed_columnList, lexed_key d 1 hkey]
  obtain ⟨k, ks, rfl⟩ := List.exists_cons_of_ne_nil hkey
  cases columns with
  | nil =>
    have hlead : "SELECT ".toList ++ (" FROM " ++ table ++ " WHERE ").toList =
        ("SELECT  FROM " ++ table ++ " WHERE ").toList := by
      simp
    have h := readWords_fetch_nil table _ _ _ (readKey_words d .select [] table (k :: ks))
    rw [← hlead] at h
    exact h
  | cons c cs =>
    rw [Lexed.addText_columnWords _ _ _ (List.cons_ne_nil c cs)]
    exact readWords_fetch table (List.cons_ne_nil c cs) _ _ _
      (readKey_words d .select (c :: cs) table (k :: ks))

/-! ## The placeholders of a statement -/

theorem map_number_rowSlots (row : Nat) {left : List String} {ns : List Nat}
    (hlen : left.length = ns.length) :
    (rowSlots d row left ns).map (·.number) = ns.map d.number? := by
  unfold rowSlots
  rw [List.map_map]
  calc (left.zip ns).map ((·.number) ∘ fun p => (⟨row, p.1, d.number? p.2⟩ : Slot))
      = ((left.zip ns).map Prod.snd).map d.number? := by rw [List.map_map]; rfl
    _ = ns.map d.number? := by rw [List.map_snd_zip (Nat.le_of_eq hlen.symm)]

/-- Placeholders are numbered in the order of the text. -/
theorem map_number_rowsSlots (columns : List String) (row count : Nat) :
    (rowsSlots d columns row count).map (·.number) =
      (List.range' (1 + row * columns.length) (count * columns.length)).map d.number? := by
  induction count generalizing row with
  | zero => simp [rowsSlots]
  | succ count ih =>
    have hnext : 1 + (row + 1) * columns.length = 1 + row * columns.length + columns.length := by
      rw [Nat.succ_mul]
      omega
    have hsplit : (count + 1) * columns.length = columns.length + count * columns.length := by
      rw [Nat.succ_mul, Nat.add_comm]
    have hmore := ih (row + 1)
    rw [hnext] at hmore
    rw [rowsSlots, List.range'_succ, List.flatMap_cons, List.map_append,
      map_number_rowSlots d row (by simp), hsplit, ← List.range'_append_1, List.map_append]
    exact congrArg _ hmore

/-- Each row has a placeholder for every column. -/
theorem map_place_rowsSlots (columns : List String) (row count : Nat) :
    (rowsSlots d columns row count).map (fun s => (s.row, s.column)) =
      (List.range' row count).flatMap fun r => columns.map fun c => (r, c) := by
  have hrow : ∀ r first, (rowSlots d r columns (List.range' first columns.length)).map
      (fun s => (s.row, s.column)) = columns.map fun c => (r, c) := by
    intro r first
    unfold rowSlots
    rw [List.map_map]
    calc (columns.zip (List.range' first columns.length)).map
          ((fun s => (s.row, s.column)) ∘ fun p => (⟨r, p.1, d.number? p.2⟩ : Slot))
        = ((columns.zip (List.range' first columns.length)).map Prod.fst).map
            fun c => (r, c) := by rw [List.map_map]; rfl
      _ = columns.map fun c => (r, c) := by rw [List.map_fst_zip (by simp)]
  unfold rowsSlots
  rw [List.map_flatMap]
  congr 1
  funext r
  exact hrow r _

end TableRecords.Sql
