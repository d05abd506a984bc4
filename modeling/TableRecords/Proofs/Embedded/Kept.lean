import TableRecords.Proofs.Embedded.Prepared

/-!
# Kept statements over time

A cursor has the column names of the statement that was taken for its text, which may have been kept
since an earlier call, while its rows are those of the text prepared now:

    columns_of_follows
-/

namespace TableRecords.Embedded.Cache

variable {D : Driver} {K : Cache D} {c : D.Connection} {w₀ w : D.World}
  {seen : List (String × D.World)} {opened : List D.Rows} {sql : String} {args : List Value}

/-- A heading with the names of a call's columns. -/
abbrev heading (names : List String) (sql : String) (args : List Value) : Heading :=
  ⟨names, sql, args.length⟩

variable (hK : K.Lawful) (hnew : ∀ text form, ¬ K.Kept c text form w₀)
  (h : K.Follows c w₀ seen opened w)

include hK hnew h

/-- What is shown of a text that can be prepared. -/
theorem shown_of_fresh {form : K.Form} (hfresh : K.fresh c (K.text sql) w = some form)
    {cursor : Cursor} (hshown : D.shown c sql args w = .ok cursor) :
    ∃ form' rows, cursor = (heading (K.names form') sql args).cursorOf rows ∧
      (K.Kept c (K.text sql) form' w ∨ form' = form) ∧
      ((form' ≠ form ∧ K.names form' = [] ∧ K.names form = []) ∨
        rows = K.gives c (K.text sql) (args.map Cell.bound) w) := by
  obtain ⟨statement, w₁, rows, w', hprepare, hquery, rfl⟩ := Driver.shown_eq_ok_iff.1 hshown
  obtain ⟨-, -, v, -, hform⟩ := (recalls_of_follows hK hnew h).prepare hK hprepare
  have hruns := hK.runs hform hprepare hquery
  rw [hfresh] at hruns
  refine ⟨K.form statement, _, congrArg (fun names => (heading names sql args).cursorOf _)
    (hK.names_form statement), ?_, hruns⟩
  exact (hK.prepares hprepare).2.imp_right fun hnow => Option.some.inj (hnow.symm.trans hfresh)

/-- What is shown of a text if nothing is kept of it. -/
theorem shown_flush {form : K.Form} (hfresh : K.fresh c (K.text sql) w = some form)
    {cursor : Cursor} (hshown : D.shown c sql args (K.flush c w) = .ok cursor) :
    cursor = (heading (K.names form) sql args).cursorOf
      (K.gives c (K.text sql) (args.map Cell.bound) w) := by
  obtain ⟨form', rows, rfl, hkept | rfl, hrows⟩ :=
    shown_of_fresh hK hnew h.flushed (((hK.flush_same c w).fresh _).trans hfresh) hshown
  · exact absurd hkept hK.not_kept_flush
  · rw [hrows.resolve_left fun hne => hne.1 rfl, (hK.flush_same c w).gives]

/-- A text that cannot be prepared now gives no row. -/
theorem not_row_of_unprepared (hfresh : K.fresh c (K.text sql) w = none) {cursor : Cursor}
    (hshown : D.shown c sql args w = .ok cursor) (values : List Value) :
    .ok values ∉ cursor.rows := by
  obtain ⟨statement, w₁, rows, w', hprepare, hquery, rfl⟩ := Driver.shown_eq_ok_iff.1 hshown
  obtain ⟨-, -, v, -, hform⟩ := (recalls_of_follows hK hnew h).prepare hK hprepare
  have hruns := hK.runs hform hprepare hquery
  rw [hfresh] at hruns
  intro hvalues
  obtain ⟨row, hrow, hvalues⟩ := List.mem_map.1 hvalues
  cases row with
  | ok cells => exact hruns cells hrow
  | error e => exact absurd hvalues nofun

omit hnew h in
/-- Whether a cursor is handed out does not depend on what is kept, if the text can be prepared. -/
theorem exists_shown_flush_iff (sql : String) (args : List Value) {form : K.Form}
    (hfresh : K.fresh c (K.text sql) w = some form) :
    (∃ cursor, D.shown c sql args w = .ok cursor) ↔
      ∃ cursor, D.shown c sql args (K.flush c w) = .ok cursor := by
  obtain ⟨statement, w₁, hprepare⟩ := hK.exists_prepare hfresh
  obtain ⟨statement', w₁', hprepare'⟩ :=
    hK.exists_prepare (((hK.flush_same c w).fresh _).trans hfresh)
  constructor
  · rintro ⟨cursor, hshown⟩
    obtain ⟨_, _, rows, w', hprepare, hquery, rfl⟩ := Driver.shown_eq_ok_iff.1 hshown
    obtain ⟨rows', w₂', hquery'⟩ := hK.binds hprepare hquery hprepare'
    exact ⟨_, Driver.shown_eq_ok_iff.2 ⟨_, _, _, _, hprepare', hquery', rfl⟩⟩
  · rintro ⟨cursor, hshown⟩
    obtain ⟨_, _, rows, w', hprepare', hquery', rfl⟩ := Driver.shown_eq_ok_iff.1 hshown
    obtain ⟨rows', w₂', hquery⟩ := hK.binds hprepare' hquery' hprepare
    exact ⟨_, Driver.shown_eq_ok_iff.2 ⟨_, _, _, _, hprepare, hquery, rfl⟩⟩

/-- **Kept column names.**  On a connection for which nothing was kept at first, a query of a text
that can be prepared now hands out a cursor exactly if it would with nothing kept.  Its rows are
those that the text gives now, with a cell for each name that it has now.  Its column names are
those, or the names that the text had at an earlier call, and it is the cursor of the text with
nothing kept exactly if they are those of now.  A text that cannot be prepared gives no row.  The
cursor is the same for every visitor. -/
theorem columns_of_follows (sql : String) (args : List Value) :
    (∀ (handle : Handle D) (s s' : Store D),
      (Store.route handle sql).exec s = (.ok (some c), s') → s'.world = w →
      ∃ reply, Store.adapter.RepliesWith handle sql args s reply ∧
        reply.cursor = D.shown c sql args w) ∧
    (∀ cursor, D.shown c sql args w = .ok cursor → K.fresh c (K.text sql) w = none →
      ∀ values, .ok values ∉ cursor.rows) ∧
    ∀ form, K.fresh c (K.text sql) w = some form →
      ((∃ cursor, D.shown c sql args w = .ok cursor) ↔
        ∃ cursor, D.shown c sql args (K.flush c w) = .ok cursor) ∧
      ∀ cursor, D.shown c sql args w = .ok cursor →
        (cursor.columns = K.names form ∨
          ∃ form', K.Stems c seen (K.text sql) form' ∧ cursor.columns = K.names form') ∧
        (cursor.columns = [] ∧ K.names form = [] ∨ ∃ rows,
          (∀ cells, .ok cells ∈ rows → cells.length = (K.names form).length) ∧
          cursor = (heading cursor.columns sql args).cursorOf rows ∧
          D.shown c sql args (K.flush c w) = .ok ((heading (K.names form) sql args).cursorOf rows) ∧
          (D.shown c sql args w = D.shown c sql args (K.flush c w) ↔
            cursor.columns = K.names form)) := by
  refine ⟨fun handle s s' hroute hworld => ?_, fun cursor hshown hfresh => ?_, fun form hfresh => ?_⟩
  · exact ⟨_, Store.repliesWith_of_route hroute args, hworld ▸ Store.cursor_reply c sql args s'⟩
  · exact not_row_of_unprepared hK hnew h hfresh hshown
  · have hflushes := exists_shown_flush_iff hK sql args hfresh
    refine ⟨hflushes, fun cursor hshown => ?_⟩
    obtain ⟨cursor', hshown'⟩ := hflushes.1 ⟨cursor, hshown⟩
    obtain rfl := shown_flush hK hnew h hfresh hshown'
    obtain ⟨form', rows, rfl, hform, hrows⟩ := shown_of_fresh hK hnew h hfresh hshown
    refine ⟨?_, hrows.imp And.right fun hrows => ?_⟩
    · obtain hkept | rfl := hform
      · exact .inr ⟨form', (recalls_of_follows hK hnew h).kept _ _ hkept, rfl⟩
      · exact .inl rfl
    · refine ⟨rows, fun cells hcells => hK.wide hfresh (hrows ▸ hcells), rfl, hrows ▸ hshown', ?_⟩
      rw [hshown, hshown', ← hrows]
      constructor
      · exact fun hsame => congrArg Cursor.columns (Except.ok.inj hsame)
      · exact fun hnames =>
          congrArg (fun names => Except.ok ((heading names sql args).cursorOf rows)) hnames

omit hK hnew h

/-! ## A table with its columns swapped -/

/-- The world of a new database in memory. -/
def unused : World := (Store.empty.openMemory false 0).world

/-- The world after a text was executed. -/
def executed (sql : String) (w : World) : World := ((engine.executeOn (0 : Nat) sql []).exec w).2

/-- A visitor that reads a row, and that there is no other. -/
def readingRow : Action (Unit × Cursor) Unit := do
  let _ ← Cursor.next.onSecond
  let _ ← Cursor.next.onSecond

/-- The world after the row of a text was read. -/
def queried (sql : String) (w : World) : World :=
  ((Store.visitOn (0 : Nat) sql [] (Store.reading readingRow)).exec
    ((), (⟨w, []⟩ : Store engine))).2.2.world

/-- A text that is run before and after the columns are swapped. -/
def addPair : String := "INSERT INTO pair VALUES ('one', 'two') RETURNING *"

/-- The world after a table was dropped and made again with its columns swapped. -/
def swapped : World :=
  executed "CREATE TABLE pair (b TEXT, a TEXT)" (executed "DROP TABLE pair" (queried addPair
    (executed "CREATE TABLE pair (a TEXT, b TEXT)" unused)))

theorem not_kept_unused (text : String) (p : Prepared) : ¬ keptStatements.Kept 0 text p unused := by
  rintro ⟨l, hlink, hp, -⟩
  obtain rfl := Option.some.inj hlink
  exact absurd hp nofun

theorem follows_executed {seen : List (String × World)} {opened : List Running} {w : World}
    (h : keptStatements.Follows (0 : Nat) unused seen opened w) (sql : String) :
    ∃ seen', keptStatements.Follows (0 : Nat) unused seen' opened (executed sql w) := by
  unfold executed
  exact h.executeOn sql []

theorem follows_queried {seen : List (String × World)} {opened : List Running} {w : World}
    (h : keptStatements.Follows (0 : Nat) unused seen opened w) (sql : String) :
    ∃ seen' opened', keptStatements.Follows (0 : Nat) unused seen' opened' (queried sql w) := by
  unfold queried
  have h' : keptStatements.Follows (0 : Nat) unused seen opened (⟨w, []⟩ : Store engine).world := h
  exact h'.visitOn sql [] readingRow ()


theorem follows_swapped :
    ∃ seen opened, keptStatements.Follows (0 : Nat) unused seen opened swapped := by
  obtain ⟨_, hmade⟩ := follows_executed .start "CREATE TABLE pair (a TEXT, b TEXT)"
  obtain ⟨_, opened, hadded⟩ := follows_queried hmade addPair
  obtain ⟨_, hdropped⟩ := follows_executed hadded "DROP TABLE pair"
  obtain ⟨seen, hswapped⟩ := follows_executed hdropped "CREATE TABLE pair (b TEXT, a TEXT)"
  exact ⟨seen, opened, hswapped⟩

theorem shown_swapped :
    ∃ cursor p, engine.shown (0 : Nat) addPair [] swapped = .ok cursor ∧
      keptStatements.fresh (0 : Nat) (Text.trim addPair) swapped = some p ∧
      cursor.columns = ["a", "b"] ∧ p.names = ["b", "a"] ∧
      .ok [.text "one", .text "two"] ∈ cursor.rows := by
  have hcomputed :
      (engine.shown (0 : Nat) addPair [] swapped).toOption.any (fun cursor =>
        cursor.columns = ["a", "b"] ∧
          cursor.rows.any (·.toOption = some [.text "one", .text "two"])) = true ∧
      (keptStatements.fresh (0 : Nat) (Text.trim addPair) swapped).map Prepared.names =
        some ["b", "a"] := by
    decide +kernel
  obtain ⟨cursor, hcursor, hshown⟩ := exists_eq_ok_of_any hcomputed.1
  obtain ⟨p, hp, hnames⟩ := Option.map_eq_some_iff.1 hcomputed.2
  obtain ⟨hcolumns, hrows⟩ := of_decide_eq_true hshown
  obtain ⟨row, hrow, hvalues⟩ := List.any_eq_true.1 hrows
  refine ⟨cursor, p, hcursor, hp, hcolumns, hnames, ?_⟩
  cases row with
  | error e => exact absurd (of_decide_eq_true hvalues) nofun
  | ok values =>
    obtain rfl := Option.some.inj (of_decide_eq_true hvalues)
    exact hrow

/-- The columns are named as they were before they were swapped. -/
theorem columns_of_follows_swapped :
    (∀ text p, ¬ keptStatements.Kept (0 : Nat) text p unused) ∧
    ∃ seen opened cursor p, keptStatements.Follows (0 : Nat) unused seen opened swapped ∧
      keptStatements.fresh (0 : Nat) (Text.trim addPair) swapped = some p ∧
      engine.shown (0 : Nat) addPair [] swapped = .ok cursor ∧
      .ok [.text "one", .text "two"] ∈ cursor.rows ∧
      keptStatements.names p = ["b", "a"] ∧ cursor.columns = ["a", "b"] ∧
      (∃ p', keptStatements.Stems (0 : Nat) seen (Text.trim addPair) p' ∧
        keptStatements.names p' = ["a", "b"]) ∧
      engine.shown (0 : Nat) addPair [] swapped ≠
        engine.shown (0 : Nat) addPair [] (keptStatements.flush (0 : Nat) swapped) := by
  obtain ⟨seen, opened, hfollows⟩ := follows_swapped
  obtain ⟨cursor, p, hshown, hfresh, hcolumns, hnames, hrow⟩ := shown_swapped
  have hne : cursor.columns ≠ keptStatements.names p := by
    rw [hcolumns, show keptStatements.names p = ["b", "a"] from hnames]
    decide
  obtain ⟨-, -, hnow⟩ :=
    columns_of_follows lawful_keptStatements not_kept_unused hfollows addPair []
  obtain ⟨-, hshows⟩ := hnow p hfresh
  obtain ⟨hearlier, hrows⟩ := hshows cursor hshown
  obtain ⟨p', hstems, hnames'⟩ := hearlier.resolve_left hne
  refine ⟨not_kept_unused, seen, opened, cursor, p, hfollows, hfresh, hshown, hrow, hnames,
    hcolumns, ⟨p', hstems, hnames'.symm.trans hcolumns⟩, ?_⟩
  obtain ⟨hempty, -⟩ | ⟨rows, -, -, -, hiff⟩ := hrows
  · exact absurd (hcolumns.symm.trans hempty) nofun
  · exact fun hsame => hne (hiff.1 hsame)

/-- What is kept shows: of a table that was made again with its columns swapped, a row is handed out
under the names that the columns had before. -/
theorem not_shown_afresh :
    ¬ ∀ (D : Driver) (K : Cache D) (c : D.Connection) (w₀ w : D.World)
      (seen : List (String × D.World)) (opened : List D.Rows) (sql : String) (args : List Value)
      (cursor : Cursor) (values : List Value), K.Lawful → (∀ text form, ¬ K.Kept c text form w₀) →
      K.Follows c w₀ seen opened w → D.shown c sql args w = .ok cursor →
      .ok values ∈ cursor.rows → D.shown c sql args (K.flush c w) = .ok cursor := by
  intro h
  obtain ⟨seen, opened, hfollows⟩ := follows_swapped
  obtain ⟨cursor, p, hshown, hfresh, hcolumns, hnames, hrow⟩ := shown_swapped
  have hafresh := h engine keptStatements (0 : Nat) unused swapped seen opened addPair [] cursor _
    lawful_keptStatements not_kept_unused hfollows hshown hrow
  have hflush := shown_flush lawful_keptStatements not_kept_unused hfollows hfresh hafresh
  have hsame : cursor.columns = p.names := congrArg Cursor.columns hflush
  rw [hcolumns, hnames] at hsame
  exact absurd hsame (by decide)

end TableRecords.Embedded.Cache
