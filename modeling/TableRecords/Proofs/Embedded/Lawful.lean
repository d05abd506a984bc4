import TableRecords.Proofs.Embedded.Calls
import TableRecords.Proofs.Embedded.Frame
import TableRecords.Proofs.Embedded.Meaning

/-!
# The engine keeps what is assumed of a driver

`meaning` tells what the statements of the engine do: what `evaluate` tells.

    lawful_meaning
-/

namespace TableRecords.Embedded

/-! ## Links of a world -/

namespace World

variable {w : World} {i : Nat} {l l' : Link}

theorem link?_withLink (h : w.link? i = some l)
    (hnumber : l'.connection.database = l.connection.database) :
    (w.withLink i l').link? i = some l' := by
  obtain ⟨c, hc, hlink⟩ := Option.bind_eq_some_iff.1 h
  obtain ⟨d, hd, hlink⟩ := Option.bind_eq_some_iff.1 hlink
  obtain rfl := Option.some.inj hlink
  have hi := (List.getElem?_eq_some_iff.1 hc).1
  have hj := (List.getElem?_eq_some_iff.1 hd).1
  have hconnection : (w.withLink i l').connections[i]? = some l'.connection := by
    simp [withLink, hi]
  have hdatabase : (w.withLink i l').databases[l'.connection.database]? = some l'.database := by
    simp [withLink, hnumber, hj]
  show ((w.withLink i l').connections[i]? >>= fun connection =>
    (w.withLink i l').databases[connection.database]? >>= fun database =>
      pure (⟨database, connection⟩ : Link)) = _
  rw [hconnection, Option.bind_eq_bind, Option.bind_some, hdatabase]
  rfl

theorem withLink_self (h : w.link? i = some l) : w.withLink i l = w := by
  obtain ⟨c, hc, hlink⟩ := Option.bind_eq_some_iff.1 h
  obtain ⟨d, hd, hlink⟩ := Option.bind_eq_some_iff.1 hlink
  obtain rfl := Option.some.inj hlink
  obtain ⟨hi, rfl⟩ := List.getElem?_eq_some_iff.1 hc
  obtain ⟨hj, rfl⟩ := List.getElem?_eq_some_iff.1 hd
  simp only [withLink, List.set_getElem_self]

theorem on_of_link {α : Type} {f : Link → Except DriverError α × Link} (h : w.link? i = some l) :
    w.on i f = ((f l).1, w.withLink i (f l).2) := by
  rw [on, h]

theorem modify_of_link {f : Link → Link} (h : w.link? i = some l) :
    w.modify i f = w.withLink i (f l) := by
  rw [modify, h]

theorem modify_of_none {f : Link → Link} (h : w.link? i = none) : w.modify i f = w := by
  rw [modify, h]

/-- What succeeds was done on a connection that is there. -/
theorem exists_link_of_on {α : Type} {f : Link → Except DriverError α × Link} {a : α} {w' : World}
    (h : w.on i f = (.ok a, w')) :
    ∃ l, w.link? i = some l ∧ (f l).1 = .ok a ∧ w' = w.withLink i (f l).2 := by
  cases hlink : w.link? i with
  | none =>
    rw [on, hlink] at h
    exact absurd (congrArg Prod.fst h) nofun
  | some l =>
    rw [on_of_link hlink] at h
    obtain ⟨ha, rfl⟩ := Prod.mk.inj h
    exact ⟨l, rfl, ha, rfl⟩

/-- Where there is no connection nothing is done. -/
theorem on_of_none {α : Type} {f : Link → Except DriverError α × Link} (h : w.link? i = none) :
    w.on i f = (.error (.other "no such connection"), w) := by
  rw [on, h]

end World

/-! ## Rows to come -/

/-- What rows are told as, up to the first fault. -/
def Rows.told : Rows → List (Except DriverError (List Cell))
  | [] => []
  | .ok cells :: rows => .ok cells :: told rows
  | .error f :: _ => [.error (f.toDriver f.running)]

section

variable {w : World} {i : Nat} {l : Link} {r : Running}

theorem next_of_link (hlink : w.link? r.connection = some l) :
    engine.next r w =
      ((l.next r).1, (l.next r).2.1, w.withLink r.connection (l.next r).2.2) := by
  show w.next r = _
  rw [World.next, hlink]

theorem next_of_none (hnone : w.link? r.connection = none) :
    engine.next r w = (.error (.other "no such connection"), { r with rest := some [] }, w) := by
  show w.next r = _
  rw [World.next, hnone]

theorem pending_of_running (hconnection : r.connection = i) (hlink : w.link? i = some l)
    {rows : Rows} (hrest : r.rest = some rows) {n : Nat} (hn : rows.length ≤ n) :
    engine.pending n r w = rows.told := by
  induction n generalizing rows r with
  | zero =>
    obtain rfl := List.length_eq_zero_iff.1 (Nat.le_zero.1 hn)
    rfl
  | succ n ih =>
    subst hconnection
    have hnext := next_of_link hlink
    rw [Link.next_of_running hrest, World.withLink_self hlink] at hnext
    unfold Driver.pending
    rw [hnext]
    match rows with
    | [] => rfl
    | .ok cells :: rows =>
      exact congrArg (.ok cells :: ·) (ih (r := { r with rest := some rows }) rfl rfl
        (Nat.le_of_succ_le_succ hn))
    | .error f :: rows =>
      exact congrArg (.error (f.toDriver f.running) :: ·)
        (ih (r := { r with rest := some [] }) rfl rfl (Nat.zero_le n))

/-- The rows that come are those that the statement gives. -/
theorem coming_of_link (hlink : w.link? r.connection = some l) :
    engine.coming r w = (l.coming r).told := by
  have hsize : engine.size r w = (l.coming r).length := by
    show (w.link? r.connection).elim 0 _ = _
    rw [hlink]
    rfl
  unfold Driver.coming
  rw [hsize]
  cases hrest : r.rest with
  | some rows =>
    have hcoming : l.coming r = rows := by rw [Link.coming, hrest]; rfl
    rw [hcoming]
    exact pending_of_running rfl hlink hrest le_rfl
  | none =>
    have hnumber : (l.next r).2.2.connection.database = l.connection.database := by
      unfold Link.next
      rw [hrest]
      exact Link.leaves_step (v := Connection.database)
        ⟨fun _ _ => rfl, fun _ _ => rfl, fun _ _ => rfl⟩ _ _ _ _
    have hanswer : (l.next r).1 = (l.coming r).answer.1 ∧
        (l.next r).2.1.connection = r.connection ∧
        (l.next r).2.1.rest = some (l.coming r).answer.2 := by
      unfold Link.next Link.coming
      rw [hrest]
      exact ⟨rfl, rfl, rfl⟩
    obtain ⟨hanswer, hconnection, hbehind⟩ := hanswer
    have hrunning (rows : Rows) (h : (l.coming r).answer.2 = rows) {n : Nat}
        (hn : rows.length ≤ n) :
        engine.pending n (l.next r).2.1 (w.withLink r.connection (l.next r).2.2) = rows.told :=
      pending_of_running hconnection (World.link?_withLink hlink hnumber)
        (hbehind.trans (congrArg some h)) hn
    match hcoming : l.coming r with
    | [] => rfl
    | .ok cells :: rows =>
      rw [hcoming] at hanswer hrunning
      rw [List.length_cons]
      unfold Driver.pending
      rw [next_of_link hlink, hanswer]
      exact congrArg (.ok cells :: ·) (hrunning rows rfl le_rfl)
    | .error f :: rows =>
      rw [hcoming] at hanswer hrunning
      rw [List.length_cons]
      unfold Driver.pending
      rw [next_of_link hlink, hanswer]
      exact congrArg (.error (f.toDriver f.running) :: ·) (hrunning [] rfl (Nat.zero_le _))

end

/-! ## The meaning of statements -/

/-- How far rows are. -/
def Running.stage (r : Running) : Stage engine :=
  match r.rest with
  | none => .waiting r.connection r.statement.text r.args
  | some _ => .running r.connection

/-- What the statements of the engine do.  A connection sees the content of its transaction, or that
of its database, and its settings. -/
def meaning : Meaning engine where
  Data := Scope
  seen i w := (World.link? w i).elim ⟨{}, []⟩ Link.scope
  Within i w := ∃ l, World.link? w i = some l ∧ l.connection.transaction ≠ none
  Runs text args before rows after := ∃ given content,
    evaluate before.settings text args before.content = .ok (given, content) ∧
    rows = given.told ∧ after = ⟨content, before.settings⟩
  IsControl := IsControl
  text := Text.trim
  source statement := (statement.1, statement.2.text)
  stage := Running.stage

section

variable {r : Running}

end

/-- A connection is within a transaction that was begun at `l₀` and sees a content. -/
def World.Within (l₀ : Link) (i : Nat) (c : Content) (w : World) : Prop :=
  ∃ l, w.link? i = some l ∧ l₀.Within i c l

namespace World.Within

variable {l₀ l : Link} {i : Nat} {c c' : Content} {w w' : World}

theorem seen (h : w.Within l₀ i c) : meaning.seen i w = ⟨c, l₀.connection.settings⟩ := by
  obtain ⟨l, hlink, hl⟩ := h
  show (w.link? i).elim _ Link.scope = _
  rw [hlink, Option.elim_some, Link.scope, hl.sees, hl.settings]

theorem withLink (hlink : w.link? i = some l) (hl : l₀.Within i c l) {l' : Link}
    (hl' : l₀.Within i c' l') : (w.withLink i l').Within l₀ i c' :=
  ⟨l', World.link?_withLink hlink (hl'.number.trans hl.number.symm), hl'⟩

end World.Within

/-! ## Calls in a transaction -/

theorem Run.run_prepare (sql : String) (l : Link) :
    (Run.prepare sql).run l =
      match l.connection.kept.find? (·.text == Text.trim sql) with
      | some p => (.ok p, l.onConnection (Connection.drop (Text.trim sql)))
      | none =>
        ((planned l.connection.settings l.content (Text.trim sql)).map
          (Plan.prepared (Text.trim sql)), l) := by
  show ((match l.connection.kept.find? (·.text == Text.trim sql) with
    | some p => do
      modify (Link.onConnection (Connection.drop (Text.trim sql)))
      return p
    | none => return (← Run.planOf (Text.trim sql)).prepared (Text.trim sql) :
      Run Prepared)).run l = _
  cases l.connection.kept.find? (·.text == Text.trim sql) with
  | some p => rfl
  | none =>
    dsimp only
    rw [run_bind_state, Run.run_planOf]
    cases planned l.connection.settings l.content (Text.trim sql) <;> rfl

/-- **To prepare a text** takes a statement of it that is kept, or its plan makes a new one. -/
theorem Link.prepare_cases (i : Nat) (sql : String) (l : Link) :
    (∃ p ∈ l.connection.kept, p.text = Text.trim sql ∧
      l.prepare i sql = (.ok (i, p), l.onConnection (Connection.drop (Text.trim sql)))) ∨
    (∃ plan, planned l.connection.settings l.content (Text.trim sql) = .ok plan ∧
      l.prepare i sql = (.ok (i, plan.prepared (Text.trim sql)), l)) ∨
    ∃ f e, planned l.connection.settings l.content (Text.trim sql) = .error f ∧
      l.prepare i sql = (.error e, l) := by
  have hrun := Run.run_prepare sql l
  unfold Link.prepare Link.attempt
  rw [hrun]
  cases hkept : l.connection.kept.find? (·.text == Text.trim sql) with
  | some p =>
    have htext := List.find?_some hkept
    exact .inl ⟨p, List.mem_of_find?_eq_some hkept, eq_of_beq htext, rfl⟩
  | none =>
    cases hplan : planned l.connection.settings l.content (Text.trim sql) with
    | error f => exact .inr (.inr ⟨f, _, rfl, rfl⟩)
    | ok plan => exact .inr (.inl ⟨plan, rfl, rfl⟩)

theorem source_of_prepared {i : Nat} {sql : String} {l : Link} {statement : Nat × Prepared}
    (h : (l.prepare i sql).1 = .ok statement) :
    (statement.1, statement.2.text) = (i, Text.trim sql) := by
  rcases l.prepare_cases i sql with ⟨p, -, htext, hp⟩ | ⟨plan, -, hp⟩ | ⟨f, e, -, hp⟩ <;>
    rw [hp] at h
  · obtain rfl := Except.ok.inj h
    exact congrArg (i, ·) htext
  · obtain rfl := Except.ok.inj h
    rfl
  · exact absurd h nofun

/-- Arguments that fit are bound, and nothing else happens. -/
theorem Link.query_eq_ok {i : Nat} {p : Prepared} {args : List Cell} {l : Link} {r : Running}
    (h : (l.query i p args).1 = .ok r) :
    p.checkParams args.length = .ok () ∧ r = ⟨i, p, args, none⟩ ∧ (l.query i p args).2 = l := by
  unfold Link.query at h ⊢
  cases hparams : p.checkParams args.length with
  | error f =>
    rw [hparams] at h
    exact absurd h nofun
  | ok u =>
    rw [hparams] at h
    exact ⟨rfl, (Except.ok.inj h).symm, rfl⟩

section

variable {i : Nat} {l : Link} {w : World}

theorem prepare_of_link (hlink : w.link? i = some l) (sql : String) :
    engine.prepare i sql w =
      ((l.prepare i sql).1, w.withLink i (l.prepare i sql).2) :=
  World.on_of_link (f := Link.prepare i sql) hlink

variable {statement : Nat × Prepared}

theorem query_of_link (hlink : w.link? statement.1 = some l) (args : List Cell) :
    engine.query statement args w =
      ((l.query statement.1 statement.2 args).1,
        w.withLink statement.1 (l.query statement.1 statement.2 args).2) :=
  World.on_of_link hlink

end

section

variable {l₀ : Link} {i : Nat} {c : Content} {w w' : World}

variable (hw : w.Within l₀ i c)

include hw

end

/-! ## The ends of a transaction -/

section

variable {l₀ l : Link} {i : Nat} {c : Content} {w w' w₀ : World}

end

end TableRecords.Embedded
