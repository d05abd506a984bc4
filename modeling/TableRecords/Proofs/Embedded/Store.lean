import TableRecords.Embedded.Store
import TableRecords.Proofs.Action
import TableRecords.Proofs.Adapter

/-!
# What the calls of an adapter do

An equation for each: by what the calls of the driver answer, and by what a visitor or a body does.
-/

namespace TableRecords.Embedded

variable {D : Driver} {τ : Type}

theorem Driver.exec_call {α : Type} (sql : String) (argCount : Nat)
    (f : D.World → Except DriverError α × D.World) (w : D.World) :
    (D.call sql argCount f).exec w = ((f w).1.mapError (·.toError sql argCount), (f w).2) := rfl

namespace Owner

variable {readers : List (Slot D)} {sql : String} (writer : Slot D) (turns : Nat)

/-- A pool chooses its writer for what does not count as reading only, or if there is no reader. -/
theorem route_writer (h : isReadOnly sql = false ∨ readers = []) :
    (pool writer readers turns).route sql = (writer, pool writer readers turns) := by
  have hchosen : ¬ (isReadOnly sql && !readers.isEmpty) = true := by
    rcases h with h | rfl
    · simp [h]
    · simp
  unfold route
  dsimp only
  rw [if_neg hchosen]

/-- It chooses one of its readers for what does. -/
theorem route_reader (h : isReadOnly sql = true) (hreaders : readers ≠ []) :
    ((pool writer readers turns).route sql).1 ∈ readers ∧
      ((pool writer readers turns).route sql).2 = pool writer readers (turns + 1) := by
  have hlt : turns % readers.length < readers.length :=
    Nat.mod_lt _ (List.length_pos_iff.2 hreaders)
  have hchosen : (isReadOnly sql && !readers.isEmpty) = true := by
    simpa [h] using hreaders
  unfold route
  dsimp only
  rw [if_pos hchosen, List.getD_eq_getElem _ _ hlt]
  exact ⟨List.getElem_mem hlt, rfl⟩

end Owner

namespace Store

variable {s s' : Store D}

theorem exec_execute (h : Handle D) (sql : String) (args : List Value) (s : Store D) :
    (adapter.execute h sql args).exec s =
      match s.writerOf h with
      | none => (.error (.adapter (.closed sql args.length)), s)
      | some c =>
        let (r, world) := (D.executeOn c sql args).exec s.world
        (r, { s with world }) := by
  show (get >>= fun s => liftM ((s.writerOf h).open sql args.length) >>= fun c =>
    onWorld (D.executeOn c sql args) : Action (Store D) ExecResult).exec s = _
  rw [Action.exec_bind_ok (Action.exec_get s), Action.exec_bind, Action.exec_liftM]
  cases s.writerOf h <;> rfl

/-! ## Queries -/

/-- A query is opened, visited and released. -/
theorem exec_visitOn (c : D.Connection) (sql : String) (args : List Value)
    (visitor : Action ((τ × Reader D) × Store D) Unit) (o : τ) (s : Store D) :
    (visitOn c sql args visitor).exec (o, s) =
      match (D.openOn c sql args).exec s.world with
      | (.error e, world) => (.error e, (o, { s with world }))
      | (.ok reader, world) =>
        let (r, ((o, reader), s)) := visitor.exec ((o, reader), { s with world })
        (r, (o, { s with world := D.release reader.rows s.world })) := by
  unfold visitOn
  rw [Action.exec_bind, Action.exec_onSecond, onWorld, Action.exec_of]
  rcases (D.openOn c sql args).exec s.world with ⟨e | reader, world⟩ <;> rfl

/-- A query runs on the connection that was chosen for it. -/
theorem exec_visit {h : Handle D} {sql : String} {slot : Slot D}
    (hroute : (route h sql).exec s = (.ok slot, s')) (args : List Value)
    (visitor : Action ((τ × Reader D) × Store D) Unit) (o : τ) :
    (Store.visit h sql args visitor).exec (o, s) =
      match slot with
      | none => (.error (.adapter (.closed sql args.length)), (o, s'))
      | some c => (visitOn c sql args visitor).exec (o, s') := by
  have hroute : (route h sql).onSecond.exec (o, s) = (.ok slot, (o, s')) := by
    rw [Action.exec_onSecond, hroute]
  unfold Store.visit
  rw [Action.exec_bind_ok hroute, Action.exec_bind, Action.exec_liftM]
  cases slot <;> rfl

/-- To open a query takes its statement and makes its rows ready to be read. -/
theorem openOn_eq_ok_iff {c : D.Connection} {sql : String} {args : List Value} {w w' : D.World}
    {reader : Reader D} :
    (D.openOn c sql args).exec w = (.ok reader, w') ↔
      ∃ statement w₁ rows, D.prepare c sql w = (.ok statement, w₁) ∧
        D.query statement (args.map Cell.bound) w₁ = (.ok rows, w') ∧
        reader = ⟨⟨D.names statement, sql, args.length⟩, rows⟩ := by
  have hopen : (D.openOn c sql args).exec w =
      match D.prepare c sql w with
      | (.error e, w) => (.error (e.toError sql args.length), w)
      | (.ok statement, w) =>
        match D.query statement (args.map Cell.bound) w with
        | (.error e, w) => (.error (e.toError sql args.length), w)
        | (.ok rows, w) => (.ok ⟨⟨D.names statement, sql, args.length⟩, rows⟩, w) := by
    unfold Driver.openOn
    rw [Action.exec_bind, Driver.exec_call]
    rcases D.prepare c sql w with ⟨e | statement, w₁⟩
    · rfl
    · dsimp only [Except.mapError]
      rw [Action.exec_bind, Driver.exec_call]
      rcases D.query statement (args.map Cell.bound) w₁ with ⟨e | rows, w₂⟩ <;> rfl
  rw [hopen]
  constructor
  · intro h
    rcases hprepare : D.prepare c sql w with ⟨e | statement, w₁⟩ <;> rw [hprepare] at h
    · exact absurd (Prod.mk.inj h).1 nofun
    · dsimp only at h
      rcases hquery : D.query statement (args.map Cell.bound) w₁ with ⟨e | rows, w₂⟩ <;>
        rw [hquery] at h
      · exact absurd (Prod.mk.inj h).1 nofun
      · obtain ⟨hreader, rfl⟩ := Prod.mk.inj h
        exact ⟨statement, w₁, rows, rfl, hquery, (Except.ok.inj hreader).symm⟩
  · rintro ⟨statement, w₁, rows, hprepare, hquery, rfl⟩
    rw [hprepare]
    dsimp only
    rw [hquery]

end Store

/-! ## Cursors -/

/-- The cursor that a query on a connection hands to its visitor, or its error without one. -/
def Driver.shown (D : Driver) (c : D.Connection) (sql : String) (args : List Value) (w : D.World) :
    Except Error Cursor :=
  match (D.openOn c sql args).exec w with
  | (.ok reader, w) => .ok (reader.cursor w)
  | (.error e, _) => .error e

theorem Driver.shown_eq_ok_iff {c : D.Connection} {sql : String} {args : List Value}
    {w : D.World} {cursor : Cursor} :
    D.shown c sql args w = .ok cursor ↔
      ∃ statement w₁ rows w', D.prepare c sql w = (.ok statement, w₁) ∧
        D.query statement (args.map Cell.bound) w₁ = (.ok rows, w') ∧
        cursor = Heading.cursorOf ⟨D.names statement, sql, args.length⟩ (D.coming rows w') := by
  unfold Driver.shown
  rcases hopen : (D.openOn c sql args).exec w with ⟨e | reader, w'⟩
  · refine ⟨nofun, fun ⟨statement, w₁, rows, w', hprepare, hquery, _⟩ => ?_⟩
    have hopened := Store.openOn_eq_ok_iff.2 ⟨statement, w₁, rows, hprepare, hquery, rfl⟩
    exact absurd (Prod.mk.inj (hopen.symm.trans hopened)).1 nofun
  · obtain ⟨statement, w₁, rows, hprepare, hquery, rfl⟩ := Store.openOn_eq_ok_iff.1 hopen
    refine ⟨fun h => ⟨statement, w₁, rows, w', hprepare, hquery, (Except.ok.inj h).symm⟩, ?_⟩
    rintro ⟨statement', w₂, rows', w'', hprepare', hquery', rfl⟩
    obtain ⟨hstatement, rfl⟩ := Prod.mk.inj (hprepare.symm.trans hprepare')
    obtain rfl := Except.ok.inj hstatement
    obtain ⟨hrows, rfl⟩ := Prod.mk.inj (hquery.symm.trans hquery')
    obtain rfl := Except.ok.inj hrows
    rfl

namespace Store

variable {s s' : Store D}

/-- How an adapter answers a query for which a connection was chosen. -/
def reply (slot : Slot D) (sql : String) (args : List Value) (s : Store D) :
    Adapter.Reply (Store D) :=
  match slot with
  | none => .failure (.adapter (.closed sql args.length)) s
  | some c =>
    match (D.openOn c sql args).exec s.world with
    | (.error e, world) => .failure e { s with world }
    | (.ok reader, world) => .rows (reader.cursor world) fun _ left =>
      let (reader, world) := reader.skip left.fetched world
      { s with world := D.release reader.rows world }

theorem cursor_reply (c : D.Connection) (sql : String) (args : List Value) (s : Store D) :
    (reply (some c) sql args s).cursor = D.shown c sql args s.world := by
  unfold reply Driver.shown
  dsimp only
  rcases (D.openOn c sql args).exec s.world with ⟨e | reader, world⟩ <;> rfl

/-- **A query is refused, or hands its visitor a cursor**, which does not depend on the visitor. -/
theorem repliesWith_of_route {h : Handle D} {sql : String} {slot : Slot D}
    (hroute : (route h sql).exec s = (.ok slot, s')) (args : List Value) :
    adapter.RepliesWith h sql args s (reply slot sql args s') := by
  intro β visitor b
  show (Store.visit h sql args (reading visitor)).exec (b, s) = _
  rw [exec_visit hroute]
  cases slot with
  | none => rfl
  | some c =>
    unfold reply
    dsimp only
    rw [exec_visitOn]
    rcases (D.openOn c sql args).exec s'.world with ⟨e | reader, world⟩ <;> rfl

/-- An adapter answers every query. -/
theorem exists_reply (h : Handle D) (sql : String) (args : List Value) (s : Store D) :
    ∃ reply, adapter.RepliesWith h sql args s reply := by
  have hroute : ∃ slot s', (route h sql).exec s = (.ok slot, s') := by
    unfold route
    rw [Action.exec_of]
    cases h with
    | connection c => exact ⟨_, _, rfl⟩
    | owner i =>
      dsimp only
      cases s.owners[i]? with
      | none => exact ⟨_, _, rfl⟩
      | some owner => exact ⟨_, _, rfl⟩
  obtain ⟨slot, s', hroute⟩ := hroute
  exact ⟨_, repliesWith_of_route hroute args⟩

/-! ## Transactions -/

/-- What a transaction on a connection does. -/
theorem exec_transactionOn (c : D.Connection) (body : Handle D → Action (τ × Store D) Unit) (o : τ)
    (s : Store D) :
    (transactionOn c body).exec (o, s) =
      match D.begin c s.world with
      | (.error e, world) => (.error (e.toError "BEGIN" 0), (o, { s with world }))
      | (.ok (), world) =>
        match (body (.connection c)).exec (o, { s with world }) with
        | (.error e, (o, s)) => (.error e, (o, { s with world := D.abandon c s.world }))
        | (.ok (), (o, s)) =>
          match D.commit c s.world with
          | (.ok (), world) => (.ok (), (o, { s with world }))
          | (.error e, w) =>
            (.error (e.toError "COMMIT" 0), (o, { s with world := D.abandon c w })) := by
  have hcall (sql : String) (f : D.World → Except DriverError Unit × D.World) (o : τ)
      (s : Store D) : (onWorld (D.call sql 0 f)).onSecond.exec (o, s) =
        ((f s.world).1.mapError (·.toError sql 0), (o, { s with world := (f s.world).2 })) := rfl
  unfold transactionOn
  rw [Action.exec_bind, hcall]
  rcases D.begin c s.world with ⟨e | ⟨⟩, w⟩
  · rfl
  · dsimp only [Except.mapError]
    rw [Action.exec_tryCatch, Action.exec_bind]
    rcases (body (.connection c)).exec (o, { s with world := w }) with ⟨e | ⟨⟩, o', s'⟩
    · rfl
    · dsimp only
      rw [hcall]
      rcases D.commit c s'.world with ⟨e | ⟨⟩, w'⟩ <;> rfl

/-- An adapter runs a transaction on its connection that writes. -/
theorem exec_transaction (i : Nat) (body : Handle D → Action (τ × Store D) Unit) (o : τ)
    (s : Store D) :
    (adapter.transaction (.owner i) body).exec (o, s) =
      match s.writerOf (.owner i) with
      | none => (.error (.adapter (.closed "BEGIN" 0)), (o, s))
      | some c => (transactionOn c body).exec (o, s) := by
  show (get >>= fun x => liftM ((x.2.writerOf (.owner i)).open "BEGIN" 0) >>= fun c =>
    transactionOn c body : Action (τ × Store D) Unit).exec (o, s) = _
  rw [Action.exec_bind_ok (Action.exec_get _), Action.exec_bind, Action.exec_liftM]
  cases s.writerOf (.owner i) <;> rfl

end Store
end TableRecords.Embedded
