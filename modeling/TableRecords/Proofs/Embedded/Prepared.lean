import TableRecords.Proofs.Embedded.Blind
import TableRecords.Proofs.Embedded.Cache
import TableRecords.Proofs.Embedded.Lawful
import TableRecords.Proofs.Embedded.Width

/-!
# The statements that the engine keeps

A prepared statement goes by the names and the effect that its text had when it was last prepared.
When it runs, its text is prepared anew, and that is what is kept of it then.

    keptStatements : what the engine keeps
    lawful_keptStatements
-/

namespace TableRecords.Embedded

/-! ## Plans of one text -/

/-- What a command changes, unless its plan has no columns. -/
def Command.effect? : Command → Option Effect
  | select .. | pragma _ => some .none
  | insert .. | update .. | delete .. => some .rows
  | _ => none

/-- A plan of a command changes what the command changes, or has no columns. -/
def Plan.Fits (command : Command) (p : Plan) : Prop :=
  match command.effect? with
  | some e => p.effect = e
  | none => p.names = []

theorem Plan.fits_ofCommand (scope : Scope) (command : Command) :
    Yields (Fits command) (ofCommand scope command) := by
  cases command
  all_goals dsimp only [ofCommand, ofInsert, ofCreate, ofAddColumn, ofRenameColumn, ofDropColumn,
    ofRenameTable]
  all_goals
    repeat' first
      | exact yields_ok rfl
      | exact yields_error _
      | refine yields_bind fun _ => ?_
      | split

/-- Plans of one text have the same effect, unless they have no columns. -/
theorem effect_eq_of_planned {settings settings' : List Setting} {c c' : Content} {text : String}
    {p p' : Plan} (hp : planned settings c text = .ok p) (hp' : planned settings' c' text = .ok p')
    (hnames : p.names ≠ [] ∨ p'.names ≠ []) : p'.effect = p.effect := by
  obtain ⟨command, hcommand, hp⟩ := bind_eq_ok_iff.1 hp
  obtain ⟨command', hcommand', hp'⟩ := bind_eq_ok_iff.1 hp'
  obtain rfl := Except.ok.inj (hcommand.symm.trans hcommand')
  have hfits := Plan.fits_ofCommand _ command p hp
  have hfits' := Plan.fits_ofCommand _ command p' hp'
  unfold Plan.Fits at hfits hfits'
  cases heffect : command.effect? with
  | some e =>
    rw [heffect] at hfits hfits'
    exact hfits'.trans hfits.symm
  | none =>
    rw [heffect] at hfits hfits'
    exact absurd hnames (by simp [show p.names = [] from hfits, show p'.names = [] from hfits'])

/-! ## What a text is prepared to -/

namespace Link

/-- What a text is prepared to if nothing is kept of it. -/
def fresh (text : String) (l : Link) : Option Prepared :=
  ((planned l.connection.settings l.content text).map (Plan.prepared text)).toOption

variable {l : Link} {text : String} {p : Prepared}

theorem fresh_eq_some_iff : l.fresh text = some p ↔
    ∃ plan, planned l.connection.settings l.content text = .ok plan ∧ p = plan.prepared text := by
  unfold fresh
  cases planned l.connection.settings l.content text with
  | error f => exact ⟨nofun, nofun⟩
  | ok plan => simp [Except.map, Except.toOption, eq_comm]

theorem text_of_fresh (h : l.fresh text = some p) : p.text = text := by
  obtain ⟨plan, -, rfl⟩ := fresh_eq_some_iff.1 h
  rfl

theorem fresh_eq_none_iff : l.fresh text = none ↔
    ∃ f, planned l.connection.settings l.content text = .error f := by
  unfold fresh
  cases planned l.connection.settings l.content text with
  | error f => exact ⟨fun _ => ⟨f, rfl⟩, fun _ => rfl⟩
  | ok plan => exact ⟨nofun, nofun⟩

/-- What a text is prepared to has columns at one time only with the same effect at all times. -/
theorem effect_eq_of_fresh {l₀ : Link} {p₀ : Prepared} (h₀ : l₀.fresh text = some p₀)
    (h : l.fresh text = some p) : (p₀.names = [] ∧ p.names = []) ∨ p₀.effect = p.effect := by
  obtain ⟨plan₀, hplan₀, rfl⟩ := fresh_eq_some_iff.1 h₀
  obtain ⟨plan, hplan, rfl⟩ := fresh_eq_some_iff.1 h
  by_cases hempty : plan₀.names = [] ∧ plan.names = []
  · exact .inl hempty
  · exact .inr (effect_eq_of_planned hplan₀ hplan (not_and_or.1 hempty)).symm

end Link

/-! ## Running a prepared statement -/

namespace Run

/-- To get the right to write leaves alone what is seen. -/
theorem ensures_seen_beginWrite (s : Scope) (i : Nat) :
    Ensures (·.scope = s) (beginWrite i) (fun _ l => l.scope = s) fun _ _ => True := by
  refine ensures_get_bind fun l hl => ?_
  have hneed (b : Bool) (f : Fault) :
      Ensures (· = l) (need b f) (fun _ => (· = l)) fun _ _ => True :=
    ensures_need (fun _ _ => id) fun _ _ _ => trivial
  have hself : Ensures (· = l) (pure () : Run Unit) (fun _ l => l.scope = s) fun _ _ => True :=
    ensures_pure fun _ h => h ▸ hl
  refine (hneed _ _).bind fun _ => (hneed _ _).bind fun _ => ?_
  split
  · exact hself
  · next t ht =>
    split
    · exact hself
    · refine (hneed _ _).bind fun _ => ensures_set fun _ _ => ?_
      rw [← hl, Link.scope, Link.scope, Link.content_of_transaction ht]
      rfl

/-- A prepared statement runs by the plan that its text has now. -/
theorem ensures_planned (s : Scope) (i : Nat) (p : Prepared) :
    Ensures (·.scope = s) (ready i p)
      (fun plan _ => planned s.settings s.content p.text = .ok plan) fun _ _ => True := by
  have hplan : Ensures (·.scope = s) (planOf p.text)
      (fun plan _ => planned s.settings s.content p.text = .ok plan) fun _ _ => True := by
    rintro l rfl
    rw [run_planOf]
    cases hplanned : planned l.connection.settings l.content p.text with
    | error f => trivial
    | ok plan => exact hplanned
  have hself : Ensures (·.scope = s) (pure () : Run Unit) (fun _ l => l.scope = s)
      fun _ _ => True :=
    ensures_pure fun _ => id
  have hcount : Ensures (·.scope = s) (countChanges 0) (fun _ l => l.scope = s) fun _ _ => True :=
    ensures_modify fun _ => id
  rw [ready_eq]
  exact (ensures_ite hcount hself).bind fun _ =>
    (ensures_ite (ensures_seen_beginWrite s i) hself).bind fun _ => hplan

end Run

namespace Link

variable {p p' : Prepared} {l : Link} (i : Nat) (args : List Cell)

theorem planned_of_ready {plan : Plan} {l' : Link} (h : (Run.ready i p).run l = (.ok plan, l')) :
    planned l.connection.settings l.content p.text = .ok plan :=
  (Run.ensures_planned l.scope i p).ok rfl h

/-- A statement goes on as it was, or as what its text is prepared to now. -/
theorem step_prepared (i : Nat) (p : Prepared) (args : List Cell) (l : Link) :
    (step i p args l).2.1 = p ∨ l.fresh p.text = some (step i p args l).2.1 := by
  unfold step
  rcases hready : (Run.ready i p).run l with ⟨f | plan, l'⟩
  · exact .inl rfl
  · exact .inr (fresh_eq_some_iff.2 ⟨plan, planned_of_ready i hready, rfl⟩)

/-- Rows that are asked for are of the same statement, as it was or as it is prepared now. -/
theorem next_statement (r : Running) (l : Link) :
    ((next r l).2.1.connection, (next r l).2.1.statement.text) =
      (r.connection, r.statement.text) ∧
    ((next r l).2.1.statement = r.statement ∨
      l.fresh r.statement.text = some (next r l).2.1.statement) := by
  unfold next
  split
  · exact ⟨rfl, .inl rfl⟩
  · have hstep := step_prepared r.connection r.statement r.args l
    refine ⟨congrArg (r.connection, ·) ?_, hstep⟩
    obtain hsame | hfresh := hstep
    · exact congrArg Prepared.text hsame
    · exact text_of_fresh hfresh

/-- A statement that cannot be prepared now gives no row. -/
theorem given_of_unprepared (h : l.fresh p.text = none) :
    ∃ f, given i p args l = [.error f] := by
  obtain ⟨f, hf⟩ := fresh_eq_none_iff.1 h
  unfold given step
  rcases hready : (Run.ready i p).run l with ⟨f' | plan, l'⟩
  · exact ⟨f', rfl⟩
  · exact absurd ((planned_of_ready i hready).symm.trans hf) nofun

/-- Every row has a cell for each name that the text has now. -/
theorem wide_given (h : l.fresh p.text = some p') : (given i p args l).Wide p'.names.length := by
  obtain ⟨plan, hplan, rfl⟩ := fresh_eq_some_iff.1 h
  unfold given step
  rcases hready : (Run.ready i p).run l with ⟨f | plan', l'⟩
  · exact Rows.wide_fault f
  · obtain rfl := Except.ok.inj ((planned_of_ready i hready).symm.trans hplan)
    dsimp only
    rcases hrun : (Run.plan i plan' (args.map Cell.taken)).run l' with ⟨f | rows, l''⟩
    · exact Rows.wide_fault f
    · exact Run.wide_plan i plan' _ l' rows (by rw [hrun])

end Link

/-! ## What is kept -/

/-- What the engine keeps. -/
def keptStatements : Cache engine where
  Form := Prepared
  names := Prepared.names
  text := Text.trim
  source statement := (statement.1, statement.2.text)
  form := Prod.snd
  origin r := (r.connection, r.statement.text)
  current := Running.statement
  Kept i text p w := ∃ l, World.link? w i = some l ∧ p ∈ l.connection.kept ∧ p.text = text
  fresh i text w := (World.link? w i).bind (Link.fresh text)
  gives i text args w := (World.link? w i).elim [] fun l =>
    (l.fresh text).elim [] fun p => (l.given i p args).told
  flush i w := World.modify w i fun l => l.keeping []

/-- The database of a connection and what is kept for it. -/
def Connection.shelf (c : Connection) : Nat × List Prepared := (c.database, c.kept)

theorem Connection.lasting_shelf : Lasting shelf :=
  ⟨fun _ _ => rfl, fun _ _ => rfl, fun _ _ => rfl⟩

/-- No other statements are kept than before, but for new ones. -/
structure Link.Adds (new : Prepared → Prop) (l l' : Link) : Prop where
  number : l'.connection.database = l.connection.database
  kept : ∀ p ∈ l'.connection.kept, p ∈ l.connection.kept ∨ new p

namespace Link

variable {l l₁ l' : Link} {new : Prepared → Prop} {p : Prepared} {args : List Cell}

theorem adds_self (l : Link) : l.Adds new l := ⟨rfl, fun _ => .inl⟩

theorem adds_of_shelf (h : l'.connection.shelf = l.connection.shelf) : l.Adds new l' := by
  obtain ⟨hnumber, hkept⟩ := Prod.mk.inj h
  exact ⟨hnumber, fun p hp => .inl (hkept ▸ hp)⟩

theorem Adds.mono {new' : Prepared → Prop} (h : l.Adds new l') (hnew : ∀ p, new p → new' p) :
    l.Adds new' l' :=
  ⟨h.number, fun p hp => (h.kept p hp).imp_right (hnew p)⟩

theorem Adds.keep (h : l.Adds new l') (hp : new p) : l.Adds new (l'.keep p) where
  number := h.number
  kept k hk := by
    rcases List.mem_cons.1 (List.mem_of_mem_take hk) with rfl | hk
    · exact .inr hp
    · exact h.kept k (List.mem_of_mem_filter hk)

theorem adds_drop (text : String) : l.Adds new (l.onConnection (Connection.drop text)) :=
  ⟨rfl, fun _ hp => .inl (List.mem_of_mem_filter hp)⟩

/-- A statement that runs is not kept yet. -/
theorem adds_step (i : Nat) (p : Prepared) (args : List Cell) (l : Link) :
    l.Adds new (step i p args l).2.2 :=
  adds_of_shelf (leaves_step Connection.lasting_shelf i p args l)

theorem adds_execute (i : Nat) (p : Prepared) (args : List Cell) (l : Link) :
    l.Adds (fun p' => p' = p ∨ l.fresh p.text = some p') (execute i p args l).2 := by
  unfold execute
  cases p.checkParams args.length with
  | error f => exact (adds_self l).keep (.inl rfl)
  | ok u =>
    have hnow := step_prepared i p args l
    have hstep : l.Adds (fun p' => p' = p ∨ l.fresh p.text = some p') (step i p args l).2.2 :=
      adds_step i p args l
    rcases hrun : step i p args l with ⟨f | rows, p', l'⟩ <;> rw [hrun] at hnow hstep
    · exact hstep.keep hnow
    · rcases rows with _ | ⟨_ | _, _⟩ <;> exact hstep.keep hnow

theorem adds_query (i : Nat) (p : Prepared) (args : List Cell) (l : Link) :
    l.Adds (· = p) (query i p args l).2 := by
  unfold query
  cases p.checkParams args.length with
  | error f => exact (adds_self l).keep rfl
  | ok u => exact adds_self l

theorem adds_next (r : Running) (l : Link) : l.Adds new (next r l).2.2 := by
  unfold next
  split
  · exact adds_self l
  · exact adds_step _ _ _ l

end Link

/-! ## What a connection keeps -/

section

variable {w w' : World} {i : Nat} {l l' : Link} {text : String}

theorem fresh_of_link (hlink : w.link? i = some l) (text : String) :
    keptStatements.fresh i text w = l.fresh text := by
  show (w.link? i).bind (Link.fresh text) = _
  rw [hlink, Option.bind_some]

theorem gives_of_link (hlink : w.link? i = some l) {p : Prepared} (hp : l.fresh text = some p)
    (args : List Cell) : keptStatements.gives i text args w = (l.given i p args).told := by
  show (w.link? i).elim [] _ = _
  rw [hlink, Option.elim_some, hp, Option.elim_some]

theorem exists_link_of_fresh {p : Prepared} (h : keptStatements.fresh i text w = some p) :
    ∃ l, w.link? i = some l ∧ l.fresh text = some p :=
  Option.bind_eq_some_iff.1 h

variable {new : String → Prepared → Prop}

theorem adds_withLink (hlink : w.link? i = some l) (h : l.Adds (fun p => new p.text p) l') :
    keptStatements.Adds i new w (w.withLink i l') := by
  rintro text p ⟨l'', hlink'', hp, rfl⟩
  obtain rfl := Option.some.inj ((World.link?_withLink hlink h.number).symm.trans hlink'')
  exact (h.kept p hp).imp_left fun hp => ⟨l, hlink, hp, rfl⟩

theorem adds_on {α : Type} {f : Link → Except DriverError α × Link}
    (h : ∀ l, w.link? i = some l → l.Adds (fun p => new p.text p) (f l).2) :
    keptStatements.Adds i new w (w.on i f).2 := by
  cases hlink : w.link? i with
  | none => rw [World.on_of_none hlink]; exact fun _ _ => .inl
  | some l => rw [World.on_of_link hlink]; exact adds_withLink hlink (h l hlink)

theorem adds_modify {f : Link → Link}
    (h : ∀ l, w.link? i = some l → l.Adds (fun p => new p.text p) (f l)) :
    keptStatements.Adds i new w (w.modify i f) := by
  cases hlink : w.link? i with
  | none => rw [World.modify, hlink]; exact fun _ _ => .inl
  | some l => rw [World.modify_of_link hlink]; exact adds_withLink hlink (h l hlink)

/-- What is kept on a connection does not show in what a text is prepared to and gives. -/
theorem same_keeping (hlink : w.link? i = some l) (kept : List Prepared) :
    keptStatements.Same i w (w.withLink i (l.keeping kept)) := by
  have hlink' : (w.withLink i (l.keeping kept)).link? i = some (l.keeping kept) :=
    World.link?_withLink hlink rfl
  have hfresh (text : String) : keptStatements.fresh i text (w.withLink i (l.keeping kept)) =
      keptStatements.fresh i text w :=
    (fresh_of_link hlink' text).trans (fresh_of_link hlink text).symm
  refine ⟨hfresh, fun text args => ?_⟩
  show ((w.withLink i (l.keeping kept)).link? i).elim [] _ = (w.link? i).elim [] _
  rw [hlink', hlink, Option.elim_some, Option.elim_some]
  have hsame : (l.keeping kept).fresh text = l.fresh text := rfl
  rw [hsame]
  cases l.fresh text with
  | none => rfl
  | some p => exact congrArg Rows.told (Link.given_keeping rfl rfl i args l kept)

end

/-! ## Preparing and opening -/

/-- To prepare a text leaves a link as it is, but for what is kept. -/
theorem Link.exists_keeping_prepare (i : Nat) (sql : String) (l : Link) :
    ∃ kept, (l.prepare i sql).2 = l.keeping kept := by
  rcases l.prepare_cases i sql with ⟨p, -, -, hp⟩ | ⟨plan, -, hp⟩ | ⟨f, e, -, hp⟩ <;> rw [hp]
  · exact ⟨l.connection.kept.filter fun k => k.text != Text.trim sql, rfl⟩
  · exact ⟨l.connection.kept, rfl⟩
  · exact ⟨l.connection.kept, rfl⟩

section

variable {w w₁ w₂ w' : World} {i : Nat} {sql : String} {statement : Nat × Prepared}
  {args : List Cell} {rows : Running}

/-- What was prepared is a statement of the text on a connection that is left as it was, but for
what is kept. -/
theorem exists_keeping_of_prepare (h : engine.prepare i sql w = (.ok statement, w₁)) :
    ∃ l kept, w.link? i = some l ∧ (l.prepare i sql).1 = .ok statement ∧
      (statement.1, statement.2.text) = (i, Text.trim sql) ∧
      w₁ = w.withLink i (l.keeping kept) ∧ w₁.link? i = some (l.keeping kept) := by
  obtain ⟨l, hlink, hanswer, rfl⟩ := World.exists_link_of_on (f := Link.prepare i sql) h
  obtain ⟨kept, hkept⟩ := l.exists_keeping_prepare i sql
  rw [hkept]
  exact ⟨l, kept, hlink, hanswer, source_of_prepared hanswer, rfl, World.link?_withLink hlink rfl⟩

/-- A statement is taken from those that are kept, or prepared now. -/
theorem kept_or_fresh_of_prepare (h : engine.prepare i sql w = (.ok statement, w₁)) :
    keptStatements.Kept i (Text.trim sql) statement.2 w ∨
      keptStatements.fresh i (Text.trim sql) w = some statement.2 := by
  obtain ⟨l, -, hlink, hanswer, -⟩ := exists_keeping_of_prepare h
  rw [fresh_of_link hlink]
  rcases l.prepare_cases i sql with ⟨p, hkept, htext, hp⟩ | ⟨plan, hplan, hp⟩ | ⟨f, e, -, hp⟩ <;>
    rw [hp] at hanswer
  · obtain rfl := Except.ok.inj hanswer
    exact .inl ⟨l, hlink, hkept, htext⟩
  · obtain rfl := Except.ok.inj hanswer
    exact .inr (Link.fresh_eq_some_iff.2 ⟨plan, hplan, rfl⟩)
  · exact absurd hanswer nofun

theorem exists_prepare_of_fresh {p : Prepared}
    (h : keptStatements.fresh i (Text.trim sql) w = some p) :
    ∃ statement w', engine.prepare i sql w = (.ok statement, w') := by
  obtain ⟨l, hlink, hp⟩ := exists_link_of_fresh h
  obtain ⟨plan, hplan, -⟩ := Link.fresh_eq_some_iff.1 hp
  have hprepare := prepare_of_link hlink sql
  rcases l.prepare_cases i sql with ⟨p', -, -, hp'⟩ | ⟨plan', -, hp'⟩ | ⟨f, e, hf, -⟩
  · rw [hp'] at hprepare
    exact ⟨_, _, hprepare⟩
  · rw [hp'] at hprepare
    exact ⟨_, _, hprepare⟩
  · exact absurd (hplan.symm.trans hf) nofun

/-- To prepare a text changes nothing but that a statement is no longer kept. -/
theorem same_of_prepare {answer : Except DriverError (Nat × Prepared)}
    (h : engine.prepare i sql w = (answer, w')) :
    keptStatements.Same i w w' ∧ keptStatements.Adds i (fun _ _ => False) w w' := by
  cases hlink : w.link? i with
  | none =>
    have hnone : engine.prepare i sql w = _ := World.on_of_none (f := Link.prepare i sql) hlink
    obtain ⟨-, rfl⟩ := Prod.mk.inj (hnone.symm.trans h)
    exact ⟨⟨fun _ => rfl, fun _ _ => rfl⟩, fun _ _ => .inl⟩
  | some l =>
    obtain ⟨-, rfl⟩ := Prod.mk.inj ((prepare_of_link hlink sql).symm.trans h)
    obtain ⟨kept, hkept⟩ := l.exists_keeping_prepare i sql
    refine ⟨hkept ▸ same_keeping hlink kept, adds_withLink hlink ?_⟩
    rcases l.prepare_cases i sql with ⟨p, -, -, hp⟩ | ⟨plan, -, hp⟩ | ⟨f, e, -, hp⟩ <;> rw [hp]
    · exact Link.adds_drop _
    · exact Link.adds_self l
    · exact Link.adds_self l

/-- Arguments that fit a text once fit it always. -/
theorem exists_query_of_query (hprepare : engine.prepare i sql w = (.ok statement, w₁))
    (hquery : engine.query statement args w₁ = (.ok rows, w₂)) {w₁' : World}
    {statement' : Nat × Prepared} (hprepare' : engine.prepare i sql w' = (.ok statement', w₁')) :
    ∃ rows' w₂', engine.query statement' args w₁' = (.ok rows', w₂') := by
  obtain ⟨-, -, -, -, hsource, -⟩ := exists_keeping_of_prepare hprepare
  obtain ⟨l, kept, -, -, hsource', -, hlink⟩ := exists_keeping_of_prepare hprepare'
  obtain ⟨-, htext⟩ := Prod.mk.inj hsource
  obtain ⟨rfl, htext'⟩ := Prod.mk.inj hsource'
  obtain ⟨l₁, -, hbound, -⟩ :=
    World.exists_link_of_on (f := Link.query statement.1 statement.2 args) hquery
  obtain ⟨hparams, -, -⟩ := Link.query_eq_ok hbound
  have hparams' : statement'.2.checkParams args.length = .ok () := by
    unfold Prepared.checkParams at hparams ⊢
    rwa [htext', ← htext]
  rw [query_of_link hlink, Link.query, hparams']
  exact ⟨_, _, rfl⟩

/-- A statement that was prepared and opened gives its rows as if nothing had happened before. -/
theorem coming_of_opened (hprepare : engine.prepare i sql w = (.ok statement, w₁))
    (hquery : engine.query statement args w₁ = (.ok rows, w₂)) :
    ∃ l, w.link? i = some l ∧ statement.2.text = Text.trim sql ∧
      engine.coming rows w₂ = (l.given i statement.2 args).told := by
  obtain ⟨l, kept, hlink, -, hsource, -, hlink₁⟩ := exists_keeping_of_prepare hprepare
  obtain ⟨rfl, htext⟩ := Prod.mk.inj hsource
  rw [query_of_link hlink₁] at hquery
  obtain ⟨hanswer, rfl⟩ := Prod.mk.inj hquery
  obtain ⟨-, rfl, hsame⟩ := Link.query_eq_ok hanswer
  refine ⟨l, hlink, htext, ?_⟩
  rw [hsame, World.withLink_self hlink₁, coming_of_link hlink₁]
  exact congrArg Rows.told (Link.given_keeping rfl rfl statement.1 args l kept)

/-- What was opened gives what its text gives now, whatever the text was once prepared to. -/
theorem coming_of_fresh {v : World} {p : Prepared}
    (hform : keptStatements.fresh i (Text.trim sql) v = some statement.2)
    (hprepare : engine.prepare i sql w = (.ok statement, w₁))
    (hquery : engine.query statement args w₁ = (.ok rows, w₂))
    (hfresh : keptStatements.fresh i (Text.trim sql) w = some p) :
    (statement.2 ≠ p ∧ statement.2.names = [] ∧ p.names = []) ∨
      engine.coming rows w₂ = keptStatements.gives i (Text.trim sql) args w := by
  obtain ⟨l, hlink, htext, hcoming⟩ := coming_of_opened hprepare hquery
  obtain ⟨l₀, -, hform⟩ := exists_link_of_fresh hform
  rw [fresh_of_link hlink] at hfresh
  have hgives (heffect : statement.2.effect = p.effect) :
      engine.coming rows w₂ = keptStatements.gives i (Text.trim sql) args w := by
    rw [hcoming, gives_of_link hlink hfresh]
    exact congrArg Rows.told (Link.given_keeping (htext.trans (Link.text_of_fresh hfresh).symm)
      heffect i args l l.connection.kept)
  by_cases hsame : statement.2 = p
  · exact .inr (hgives (congrArg Prepared.effect hsame))
  · exact (Link.effect_eq_of_fresh hform hfresh).imp (fun hnames => ⟨hsame, hnames⟩) hgives

theorem not_mem_coming_of_unprepared (hprepare : engine.prepare i sql w = (.ok statement, w₁))
    (hquery : engine.query statement args w₁ = (.ok rows, w₂))
    (hfresh : keptStatements.fresh i (Text.trim sql) w = none) (cells : List Cell) :
    .ok cells ∉ engine.coming rows w₂ := by
  obtain ⟨l, hlink, htext, hcoming⟩ := coming_of_opened hprepare hquery
  rw [fresh_of_link hlink, ← htext] at hfresh
  obtain ⟨f, hgiven⟩ := Link.given_of_unprepared i args hfresh
  rw [hcoming, hgiven]
  exact fun hcells => absurd (List.mem_singleton.1 hcells) nofun

end

/-! ## Reading and flushing -/

/-- To ask for a row keeps nothing; the statement may be prepared anew. -/
theorem keeps_of_next {rows left : Running} {answer : Except DriverError (Option (List Cell))}
    {w w' : World} (h : engine.next rows w = (answer, left, w')) :
    (left.connection, left.statement.text) = (rows.connection, rows.statement.text) ∧
    (left.statement = rows.statement ∨
      keptStatements.fresh rows.connection rows.statement.text w = some left.statement) ∧
    keptStatements.Adds rows.connection (fun _ _ => False) w w' := by
  cases hlink : w.link? rows.connection with
  | none =>
    obtain ⟨-, hbehind⟩ := Prod.mk.inj ((next_of_none hlink).symm.trans h)
    obtain ⟨rfl, rfl⟩ := Prod.mk.inj hbehind
    exact ⟨rfl, .inl rfl, fun _ _ => .inl⟩
  | some l =>
    obtain ⟨-, hbehind⟩ := Prod.mk.inj ((next_of_link hlink).symm.trans h)
    obtain ⟨rfl, rfl⟩ := Prod.mk.inj hbehind
    obtain ⟨hsource, hnow⟩ := Link.next_statement rows l
    exact ⟨hsource, hnow.imp_right ((fresh_of_link hlink _).trans ·),
      adds_withLink hlink (Link.adds_next rows l)⟩

theorem flush_cases (i : Nat) (w : World) :
    (w.link? i = none ∧ keptStatements.flush i w = w) ∨
    ∃ l, w.link? i = some l ∧ keptStatements.flush i w = w.withLink i (l.keeping []) := by
  cases hlink : w.link? i with
  | none => exact .inl ⟨rfl, World.modify_of_none hlink⟩
  | some l => exact .inr ⟨l, rfl, World.modify_of_link (f := fun l => l.keeping []) hlink⟩

theorem not_kept_flush (i : Nat) (text : String) (p : Prepared) (w : World) :
    ¬ keptStatements.Kept i text p (keptStatements.flush i w) := by
  rintro ⟨l', hlink', hp, -⟩
  obtain ⟨hlink, hflush⟩ | ⟨l, hlink, hflush⟩ := flush_cases i w <;> rw [hflush] at hlink'
  · exact absurd (hlink.symm.trans hlink') nofun
  · have hflushed : (w.withLink i (l.keeping [])).link? i = some (l.keeping []) :=
      World.link?_withLink hlink rfl
    obtain rfl := Option.some.inj (hflushed.symm.trans hlink')
    exact absurd hp nofun

theorem same_flush (i : Nat) (w : World) :
    keptStatements.Same i w (keptStatements.flush i w) := by
  obtain ⟨-, hflush⟩ | ⟨l, hlink, hflush⟩ := flush_cases i w <;> rw [hflush]
  · exact ⟨fun _ => rfl, fun _ _ => rfl⟩
  · exact same_keeping hlink []

theorem Rows.mem_of_mem_told {rows : Rows} {cells : List Cell} (h : .ok cells ∈ rows.told) :
    .ok cells ∈ rows := by
  induction rows with
  | nil => exact absurd h nofun
  | cons row rows ih =>
    cases row with
    | error f => exact absurd (List.mem_singleton.1 h) nofun
    | ok cells' =>
      rcases List.mem_cons.1 h with h | h
      · obtain rfl := Except.ok.inj h
        exact List.mem_cons_self
      · exact List.mem_cons_of_mem _ (ih h)

/-- **What the engine keeps** is what is assumed of a driver. -/
theorem lawful_keptStatements : keptStatements.Lawful where
  names_form statement := rfl
  prepares h := by
    obtain ⟨-, -, -, -, hsource, -⟩ := exists_keeping_of_prepare h
    exact ⟨hsource, kept_or_fresh_of_prepare h⟩
  exists_prepare := exists_prepare_of_fresh
  prepare_adds := same_of_prepare
  execute_adds {statement args w answer w'} h := by
    obtain rfl : (engine.execute statement args w).2 = w' := congrArg Prod.snd h
    refine adds_on fun l hlink => (Link.adds_execute statement.1 statement.2 args l).mono ?_
    rintro p (rfl | hp)
    · exact ⟨rfl, .inl rfl⟩
    · have htext := Link.text_of_fresh hp
      exact ⟨htext, .inr ((fresh_of_link hlink _).trans (htext ▸ hp))⟩
  query_adds {statement args w answer w'} h := by
    obtain ⟨rfl, rfl⟩ := Prod.mk.inj h
    constructor
    · exact adds_on fun l hlink =>
        (Link.adds_query statement.1 statement.2 args l).mono fun p hp => hp ▸ ⟨rfl, rfl⟩
    · intro rows hrows
      obtain ⟨l, -, hanswer, -⟩ := World.exists_link_of_on
        (f := Link.query statement.1 statement.2 args) (Prod.ext hrows rfl)
      obtain ⟨-, rfl, -⟩ := Link.query_eq_ok hanswer
      exact ⟨rfl, rfl⟩
  binds hprepare hquery hprepare' := exists_query_of_query hprepare hquery hprepare'
  next_adds := keeps_of_next
  release_adds rows w :=
    adds_modify fun l hlink => (Link.adds_self l).keep ⟨rfl, rfl⟩
  begin_adds {i w answer w'} h := by
    obtain rfl : (engine.begin i w).2 = w' := congrArg Prod.snd h
    exact adds_on fun l hlink =>
      Link.adds_of_shelf (Run.leaves_begin Connection.lasting_shelf l rfl)
  commit_adds {i w answer w'} h := by
    obtain rfl : (engine.commit i w).2 = w' := congrArg Prod.snd h
    exact adds_on fun l hlink =>
      Link.adds_of_shelf (Run.leaves_commit Connection.lasting_shelf l rfl)
  abandon_adds i w := adds_modify fun l hlink =>
    Link.adds_of_shelf (Run.leaves_undo Connection.lasting_shelf l rfl)
  not_kept_flush := not_kept_flush _ _ _ _
  flush_same := same_flush
  runs {i sql v w statement w₁ args rows w₂} hform hprepare hquery := by
    cases hfresh : keptStatements.fresh i (keptStatements.text sql) w with
    | none => exact not_mem_coming_of_unprepared hprepare hquery hfresh
    | some p => exact coming_of_fresh hform hprepare hquery hfresh
  wide {i text w p args cells} hfresh hcells := by
    obtain ⟨l, hlink, hp⟩ := exists_link_of_fresh hfresh
    rw [gives_of_link hlink hp] at hcells
    have hwide := Link.wide_given (p := p) i args ((Link.text_of_fresh hp).symm ▸ hp)
    exact hwide cells (Rows.mem_of_mem_told hcells)

end TableRecords.Embedded
