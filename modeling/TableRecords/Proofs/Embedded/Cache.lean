import TableRecords.Proofs.Embedded.Store

/-!
# Statements that a driver keeps

A `Cache` tells of a driver which statements it keeps, and what a text is prepared to and gives if
nothing is kept of it.  `Cache.Lawful` is what is assumed of it: a statement that is kept goes by
what it was last prepared to until its first row is asked for, and then it is prepared anew.

    Cache.Follows : the calls for statements on a connection, since nothing was kept for it
    Cache.Recalls : whatever is kept after them was prepared at one of them
-/

namespace TableRecords.Embedded

variable {D : Driver}

/-- The statements that a driver keeps. -/
structure Cache (D : Driver) where
  /-- What a text is prepared to. -/
  Form : Type
  names : Form → List String
  /-- What a statement is prepared from, which may lack blanks around a text. -/
  text : String → String
  /-- The connection and the text of a statement, and what it goes by. -/
  source : D.Statement → D.Connection × String
  form : D.Statement → Form
  /-- The same of the statement that gives rows. -/
  origin : D.Rows → D.Connection × String
  current : D.Rows → Form
  /-- A statement of a text is kept. -/
  Kept : D.Connection → (text : String) → Form → D.World → Prop
  /-- What a text is prepared to now, unless it cannot be. -/
  fresh : D.Connection → (text : String) → D.World → Option Form
  /-- The rows and failures of a text that is prepared now. -/
  gives : D.Connection → (text : String) → (args : List Cell) → D.World →
    List (Except DriverError (List Cell))
  /-- Drops the statements that are kept for a connection. -/
  flush : D.Connection → D.World → D.World

namespace Cache

variable (K : Cache D)

/-- Texts are prepared to the same and give the same. -/
structure Same (c : D.Connection) (w w' : D.World) : Prop where
  fresh : ∀ text, K.fresh c text w' = K.fresh c text w
  gives : ∀ text args, K.gives c text args w' = K.gives c text args w

/-- No other statements are kept than before, but for new ones. -/
def Adds (c : D.Connection) (new : String → K.Form → Prop) (w w' : D.World) : Prop :=
  ∀ text form, K.Kept c text form w' → K.Kept c text form w ∨ new text form

/-- **Calls on a connection** since `w₀`.  Its adapter runs statements, reads rows of those that are
open, begins and ends transactions, and all else changes that does not touch what is kept for the
connection.  The texts that were prepared are noted, the last one first, each with the world of that
time, and so are the rows that were opened. -/
inductive Follows (c : D.Connection) (w₀ : D.World) :
    (seen : List (String × D.World)) → (opened : List D.Rows) → D.World → Prop where
  | start : Follows c w₀ [] [] w₀
  | unprepared {seen opened w sql e w'} (h : Follows c w₀ seen opened w)
      (prepared : D.prepare c sql w = (.error e, w')) : Follows c w₀ seen opened w'
  | executed {seen opened w sql statement w₁ args answer w'} (h : Follows c w₀ seen opened w)
      (prepared : D.prepare c sql w = (.ok statement, w₁))
      (ran : D.execute statement args w₁ = (answer, w')) :
      Follows c w₀ ((K.text sql, w) :: seen) opened w'
  | unbound {seen opened w sql statement w₁ args e w'} (h : Follows c w₀ seen opened w)
      (prepared : D.prepare c sql w = (.ok statement, w₁))
      (ran : D.query statement args w₁ = (.error e, w')) :
      Follows c w₀ ((K.text sql, w) :: seen) opened w'
  | queried {seen opened w sql statement w₁ args rows w'} (h : Follows c w₀ seen opened w)
      (prepared : D.prepare c sql w = (.ok statement, w₁))
      (ran : D.query statement args w₁ = (.ok rows, w')) :
      Follows c w₀ ((K.text sql, w) :: seen) (rows :: opened) w'
  | next {seen opened w rows answer left w'} (h : Follows c w₀ seen opened w)
      (known : rows ∈ opened) (read : D.next rows w = (answer, left, w')) :
      Follows c w₀ (((K.origin rows).2, w) :: seen) (left :: opened) w'
  | released {seen opened w rows} (h : Follows c w₀ seen opened w) (known : rows ∈ opened) :
      Follows c w₀ seen opened (D.release rows w)
  | begun {seen opened w answer w'} (h : Follows c w₀ seen opened w)
      (began : D.begin c w = (answer, w')) : Follows c w₀ seen opened w'
  | committed {seen opened w answer w'} (h : Follows c w₀ seen opened w)
      (ended : D.commit c w = (answer, w')) : Follows c w₀ seen opened w'
  | abandoned {seen opened w} (h : Follows c w₀ seen opened w) :
      Follows c w₀ seen opened (D.abandon c w)
  | flushed {seen opened w} (h : Follows c w₀ seen opened w) :
      Follows c w₀ seen opened (K.flush c w)
  | elsewhere {seen opened w w'} (h : Follows c w₀ seen opened w)
      (untouched : K.Adds c (fun _ _ => False) w w') : Follows c w₀ seen opened w'

/-! ## Calls of an adapter -/

section

variable {K} {c : D.Connection} {w₀ w : D.World} {seen : List (String × D.World)}
  {opened : List D.Rows} {τ : Type}

/-- What an adapter executes are calls on its connection. -/
theorem Follows.executeOn (h : K.Follows c w₀ seen opened w) (sql : String) (args : List Value) :
    ∃ seen', K.Follows c w₀ seen' opened ((D.executeOn c sql args).exec w).2 := by
  unfold Driver.executeOn
  rw [Action.exec_bind, Driver.exec_call]
  rcases hprepare : D.prepare c sql w with ⟨e | statement, w₁⟩
  · exact ⟨seen, h.unprepared hprepare⟩
  · dsimp only [Except.mapError]
    rw [Action.exec_bind, Driver.exec_call]
    rcases hexecute : D.execute statement (args.map Cell.bound) w₁ with ⟨e | changed, w₂⟩
    · exact ⟨_, h.executed hprepare hexecute⟩
    · exact ⟨_, h.executed hprepare hexecute⟩

theorem Follows.skip (h : K.Follows c w₀ seen opened w) {rows : D.Rows} (hrows : rows ∈ opened)
    (n : Nat) : ∃ seen' opened', K.Follows c w₀ seen' opened' (D.skip n rows w).2 ∧
      (D.skip n rows w).1 ∈ opened' := by
  induction n generalizing seen opened rows w with
  | zero => exact ⟨seen, opened, h, hrows⟩
  | succ n ih =>
    rcases hnext : D.next rows w with ⟨answer, left, w'⟩
    unfold Driver.skip
    rw [hnext]
    exact ih (h.next hrows hnext) List.mem_cons_self

/-- What a visitor reads of a query are calls on the connection. -/
theorem Follows.visitOn {s : Store D} (h : K.Follows c w₀ seen opened s.world) (sql : String)
    (args : List Value) (visit : Action (τ × Cursor) Unit) (o : τ) :
    ∃ seen' opened', K.Follows c w₀ seen' opened'
      ((Store.visitOn c sql args (Store.reading visit)).exec (o, s)).2.2.world := by
  rw [Store.exec_visitOn]
  unfold Driver.openOn
  rw [Action.exec_bind, Driver.exec_call]
  rcases hprepare : D.prepare c sql s.world with ⟨e | statement, w₁⟩
  · exact ⟨seen, opened, h.unprepared hprepare⟩
  · dsimp only [Except.mapError]
    rw [Action.exec_bind, Driver.exec_call]
    rcases hquery : D.query statement (args.map Cell.bound) w₁ with ⟨e | rows, w₂⟩
    · exact ⟨_, opened, h.unbound hprepare hquery⟩
    · have hopened := h.queried hprepare hquery
      obtain ⟨seen', opened', h', hleft⟩ := hopened.skip List.mem_cons_self
        (visit.exec (o, Reader.cursor ⟨⟨D.names statement, sql, args.length⟩, rows⟩ w₂)).2.2.fetched
      exact ⟨seen', opened', h'.released hleft⟩

end

/-! ## What is assumed -/

/-- **What is assumed of the statements that a driver keeps.** -/
structure Lawful : Prop where
  names_form (statement : D.Statement) : D.names statement = K.names (K.form statement)
  /-- A statement is taken from what is kept, or else its text is prepared now. -/
  prepares {c sql w statement w'} : D.prepare c sql w = (.ok statement, w') →
    K.source statement = (c, K.text sql) ∧ (K.Kept c (K.text sql) (K.form statement) w ∨
      K.fresh c (K.text sql) w = some (K.form statement))
  exists_prepare {c sql w form} : K.fresh c (K.text sql) w = some form →
    ∃ statement w', D.prepare c sql w = (.ok statement, w')
  /-- Nothing is run to prepare a text. -/
  prepare_adds {c sql w answer w'} : D.prepare c sql w = (answer, w') →
    K.Same c w w' ∧ K.Adds c (fun _ _ => False) w w'
  /-- A statement that was executed is kept, perhaps prepared anew. -/
  execute_adds {statement args w answer w'} : D.execute statement args w = (answer, w') →
    K.Adds (K.source statement).1 (fun text form => text = (K.source statement).2 ∧
      (form = K.form statement ∨ K.fresh (K.source statement).1 text w = some form)) w w'
  /-- Nothing is run to bind arguments. -/
  query_adds {statement args w answer w'} : D.query statement args w = (answer, w') →
    K.Adds (K.source statement).1 (fun text form => text = (K.source statement).2 ∧
      form = K.form statement) w w' ∧
    ∀ rows, answer = .ok rows →
      K.origin rows = K.source statement ∧ K.current rows = K.form statement
  /-- Whether arguments can be bound depends on the text. -/
  binds {c sql args w statement w₁ rows w₂ w' statement' w₁'} :
    D.prepare c sql w = (.ok statement, w₁) → D.query statement args w₁ = (.ok rows, w₂) →
    D.prepare c sql w' = (.ok statement', w₁') →
    ∃ rows' w₂', D.query statement' args w₁' = (.ok rows', w₂')
  /-- A statement is prepared anew when its first row is asked for. -/
  next_adds {rows w answer left w'} : D.next rows w = (answer, left, w') →
    K.origin left = K.origin rows ∧
    (K.current left = K.current rows ∨
      K.fresh (K.origin rows).1 (K.origin rows).2 w = some (K.current left)) ∧
    K.Adds (K.origin rows).1 (fun _ _ => False) w w'
  /-- A statement is kept when the reading of its rows ends. -/
  release_adds (rows : D.Rows) (w : D.World) : K.Adds (K.origin rows).1
    (fun text form => text = (K.origin rows).2 ∧ form = K.current rows) w (D.release rows w)
  begin_adds {c w answer w'} : D.begin c w = (answer, w') → K.Adds c (fun _ _ => False) w w'
  commit_adds {c w answer w'} : D.commit c w = (answer, w') → K.Adds c (fun _ _ => False) w w'
  abandon_adds (c : D.Connection) (w : D.World) : K.Adds c (fun _ _ => False) w (D.abandon c w)
  not_kept_flush {c text form w} : ¬ K.Kept c text form (K.flush c w)
  flush_same (c : D.Connection) (w : D.World) : K.Same c w (K.flush c w)
  /-- Whatever a text was once prepared to, it gives the rows of what it is prepared to now, or no
  row if it cannot be prepared now.  A text without columns may also give those of what it was. -/
  runs {c sql v w statement w₁ args rows w₂} : K.fresh c (K.text sql) v = some (K.form statement) →
    D.prepare c sql w = (.ok statement, w₁) → D.query statement args w₁ = (.ok rows, w₂) →
    match K.fresh c (K.text sql) w with
    | some form => (K.form statement ≠ form ∧ K.names (K.form statement) = [] ∧ K.names form = []) ∨
        D.coming rows w₂ = K.gives c (K.text sql) args w
    | none => ∀ cells, .ok cells ∉ D.coming rows w₂
  /-- A row has a cell for each column. -/
  wide {c text w form args cells} : K.fresh c text w = some form →
    .ok cells ∈ K.gives c text args w → cells.length = (K.names form).length

/-! ## What is kept -/

/-- A text was prepared to this before. -/
def Stems (c : D.Connection) (seen : List (String × D.World)) (text : String) (form : K.Form) :
    Prop :=
  ∃ w, (text, w) ∈ seen ∧ K.fresh c text w = some form

/-- What is kept, and the statements whose rows were opened, are what their texts were prepared to
before. -/
structure Recalls (c : D.Connection) (seen : List (String × D.World)) (opened : List D.Rows)
    (w : D.World) : Prop where
  kept : ∀ text form, K.Kept c text form w → K.Stems c seen text form
  rows : ∀ rows ∈ opened, (K.origin rows).1 = c ∧ K.Stems c seen (K.origin rows).2 (K.current rows)

variable {K} {c : D.Connection} {w w' w₀ : D.World} {seen : List (String × D.World)}
  {opened : List D.Rows} {text : String} {form : K.Form}

theorem Stems.call (h : K.Stems c seen text form) (call : String × D.World) :
    K.Stems c (call :: seen) text form := by
  obtain ⟨w, hw, hfresh⟩ := h
  exact ⟨w, List.mem_cons_of_mem _ hw, hfresh⟩

theorem stems_fresh (h : K.fresh c text w = some form) :
    K.Stems c ((text, w) :: seen) text form :=
  ⟨w, List.mem_cons_self, h⟩

theorem Recalls.call (h : K.Recalls c seen opened w) (call : String × D.World) :
    K.Recalls c (call :: seen) opened w where
  kept text form hkept := (h.kept text form hkept).call call
  rows rows hrows := (h.rows rows hrows).imp_right fun hstems => hstems.call call

theorem Recalls.adds {new : String → K.Form → Prop} (h : K.Recalls c seen opened w)
    (hadds : K.Adds c new w w') (hnew : ∀ text form, new text form → K.Stems c seen text form) :
    K.Recalls c seen opened w' where
  kept text form hkept := (hadds text form hkept).elim (h.kept text form) (hnew text form)
  rows := h.rows

theorem Recalls.keeps (h : K.Recalls c seen opened w) (hadds : K.Adds c (fun _ _ => False) w w') :
    K.Recalls c seen opened w' :=
  h.adds hadds fun _ _ => False.elim

theorem Recalls.open {rows : D.Rows} (h : K.Recalls c seen opened w)
    (hrows : (K.origin rows).1 = c ∧ K.Stems c seen (K.origin rows).2 (K.current rows)) :
    K.Recalls c seen (rows :: opened) w where
  kept := h.kept
  rows := List.forall_mem_cons.2 ⟨hrows, h.rows⟩

section

variable (hK : K.Lawful)

include hK

/-- A statement goes by what its text was prepared to before, or is now. -/
theorem Recalls.prepare {sql : String} {statement : D.Statement} (h : K.Recalls c seen opened w)
    (hprepare : D.prepare c sql w = (.ok statement, w')) :
    K.source statement = (c, K.text sql) ∧ K.Recalls c ((K.text sql, w) :: seen) opened w' ∧
    K.Stems c ((K.text sql, w) :: seen) (K.text sql) (K.form statement) := by
  obtain ⟨hsource, hform⟩ := hK.prepares hprepare
  refine ⟨hsource, (h.call _).keeps (hK.prepare_adds hprepare).2, ?_⟩
  obtain hkept | hfresh := hform
  · exact (h.kept _ _ hkept).call _
  · exact stems_fresh hfresh

/-- **What is kept was prepared before**, at one of the calls since nothing was kept. -/
theorem recalls_of_follows (hnew : ∀ text form, ¬ K.Kept c text form w₀)
    (h : K.Follows c w₀ seen opened w) : K.Recalls c seen opened w := by
  induction h with
  | start => exact ⟨fun text form hkept => absurd hkept (hnew text form), fun _ => nofun⟩
  | unprepared _ prepared ih => exact ih.keeps (hK.prepare_adds prepared).2
  | executed _ prepared ran ih =>
    obtain ⟨hsource, hrecalls, hstems⟩ := ih.prepare hK prepared
    have hadds := hK.execute_adds ran
    rw [hsource] at hadds
    refine hrecalls.adds hadds ?_
    rintro text form ⟨rfl, rfl | hfresh⟩
    · exact hstems
    · exact stems_fresh (((hK.prepare_adds prepared).1.fresh _).symm.trans hfresh)
  | unbound _ prepared ran ih =>
    obtain ⟨hsource, hrecalls, hstems⟩ := ih.prepare hK prepared
    obtain ⟨hadds, -⟩ := hK.query_adds ran
    rw [hsource] at hadds
    refine hrecalls.adds hadds ?_
    rintro text form ⟨rfl, rfl⟩
    exact hstems
  | queried _ prepared ran ih =>
    obtain ⟨hsource, hrecalls, hstems⟩ := ih.prepare hK prepared
    obtain ⟨hadds, hrows⟩ := hK.query_adds ran
    obtain ⟨horigin, hcurrent⟩ := hrows _ rfl
    rw [hsource] at hadds horigin
    have hkept := hrecalls.adds hadds (by rintro text form ⟨rfl, rfl⟩; exact hstems)
    refine hkept.open ?_
    rw [horigin, hcurrent]
    exact ⟨rfl, hstems⟩
  | next _ known read ih =>
    obtain ⟨hconnection, hstems⟩ := ih.rows _ known
    obtain ⟨horigin, hcurrent, hadds⟩ := hK.next_adds read
    rw [hconnection] at hcurrent hadds
    refine ((ih.keeps hadds).call _).open ?_
    rw [horigin]
    refine ⟨hconnection, ?_⟩
    obtain hcurrent | hfresh := hcurrent
    · exact hcurrent ▸ hstems.call _
    · exact stems_fresh hfresh
  | @released seen opened w rows _ known ih =>
    obtain ⟨hconnection, hstems⟩ := ih.rows _ known
    have hadds := hK.release_adds rows w
    rw [hconnection] at hadds
    refine ih.adds hadds ?_
    rintro text form ⟨rfl, rfl⟩
    exact hstems
  | begun _ began ih => exact ih.keeps (hK.begin_adds began)
  | committed _ ended ih => exact ih.keeps (hK.commit_adds ended)
  | abandoned _ ih => exact ih.keeps (hK.abandon_adds c _)
  | flushed _ ih => exact ⟨fun _ _ hkept => absurd hkept hK.not_kept_flush, ih.rows⟩
  | elsewhere _ untouched ih => exact ih.keeps untouched

end
end Cache
end TableRecords.Embedded
