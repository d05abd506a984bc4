import TableRecords.Embedded.Engine
import TableRecords.Proofs.Embedded.Body

/-!
# Closing is final

Up to its first `close` an adapter never answers that it is closed, unless a visitor or a body said
so.  From then on it answers that to every call, calls neither visitor nor body and leaves the world
of its driver alone, whichever of its connections the call would have gone to:

    closing_is_final

`close` itself succeeds exactly if the driver closes every connection (`closeOwner_eq_ok_iff`).
-/

namespace TableRecords

/-- An error that tells of an adapter that is closed. -/
def Error.IsClosed (e : Error) : Prop := ∃ a, e = .adapter a ∧ a.kind = .closed

namespace Embedded

variable {D : Driver} {α β γ τ : Type}

/-- No failure of a driver tells of an adapter that is closed. -/
theorem DriverError.not_isClosed (e : DriverError) (sql : String) (argCount : Nat) :
    ¬ (e.toError sql argCount).IsClosed := by
  rintro ⟨a, ha, hkind⟩
  obtain rfl := Error.adapter.inj ha
  cases e with
  | engine code text =>
    have hkind : AdapterErrorKind.ofResultCode code = .closed := hkind
    unfold AdapterErrorKind.ofResultCode at hkind
    split at hkind <;> exact absurd hkind nofun
  | returnedRows | columnIndex | other => exact absurd hkind nofun

/-- A driver closes connections when it is asked to. -/
def Driver.Closes (D : Driver) : Prop := ∀ c w, ∃ w', D.close c w = (.ok (), w')

/-- The connections of an adapter. -/
def Owner.slots : Owner D → List (Slot D)
  | single slot => [slot]
  | pool writer readers _ => writer :: readers

theorem Owner.writer_mem (owner : Owner D) : owner.writer ∈ owner.slots := by
  cases owner <;> exact List.mem_cons_self

/-- A query goes to a connection of the adapter, and closes none. -/
theorem Owner.route_mem (owner : Owner D) (sql : String) :
    (owner.route sql).1 ∈ owner.slots ∧ (owner.route sql).2.slots = owner.slots := by
  cases owner with
  | single slot => exact ⟨List.mem_cons_self, rfl⟩
  | pool writer readers turns =>
    by_cases hreader : isReadOnly sql = true ∧ readers ≠ []
    · obtain ⟨hmem, hroute⟩ := route_reader writer turns hreader.1 hreader.2
      rw [hroute]
      exact ⟨List.mem_cons_of_mem _ hmem, rfl⟩
    · have hwriter : isReadOnly sql = false ∨ readers = [] := by
        rwa [not_and_or, Bool.not_eq_true, not_ne_iff] at hreader
      rw [route_writer writer turns hwriter]
      exact ⟨List.mem_cons_self, rfl⟩

namespace Store

/-! ## What leaves connections alone -/

/-- The connections of all adapters. -/
def slots (s : Store D) : List (List (Slot D)) := s.owners.map Owner.slots

/-- An action that closes no connection. -/
def Keeps (a : Action (τ × Store D) α) : Prop := ∀ o s, (a.exec (o, s)).2.2.slots = s.slots

theorem Keeps.eq {a : Action (τ × Store D) α} (h : Keeps a) {o o' : τ} {s s' : Store D}
    {r : Except Error α} (hexec : a.exec (o, s) = (r, (o', s'))) : s'.slots = s.slots := by
  have h := h o s
  rwa [hexec] at h

theorem keeps_onWorld (a : Action D.World α) : Keeps (τ := τ) (onWorld a).onSecond :=
  fun _ _ => rfl

theorem keeps_liftM (x : Except Error α) : Keeps (liftM x : Action (τ × Store D) α) :=
  fun o s => by rw [Action.exec_liftM]

theorem Keeps.bind {a : Action (τ × Store D) γ} {f : γ → Action (τ × Store D) α} (ha : Keeps a)
    (hf : ∀ x, Keeps (f x)) : Keeps (a >>= f) := by
  intro o s
  rw [Action.exec_bind]
  rcases hexec : a.exec (o, s) with ⟨e | x, o', s'⟩
  · exact ha.eq hexec
  · exact (hf x o' s').trans (ha.eq hexec)

theorem Keeps.tryCatch {a : Action (τ × Store D) α} {handle : Error → Action (τ × Store D) α}
    (ha : Keeps a) (hhandle : ∀ e, Keeps (handle e)) : Keeps (tryCatch a handle) := by
  intro o s
  rw [Action.exec_tryCatch]
  rcases hexec : a.exec (o, s) with ⟨e | x, o', s'⟩
  · exact (hhandle e o' s').trans (ha.eq hexec)
  · exact ha.eq hexec

/-- One action after another, whatever the first gave. -/
theorem Keeps.followed {a : Action (τ × Store D) γ} {next : Except Error γ → Action (τ × Store D) α}
    (ha : Keeps a) (hnext : ∀ r, Keeps (next r)) :
    Keeps (.of fun x => let (r, x) := a.exec x; (next r).exec x) :=
  fun o s => (hnext _ _ _).trans (ha o s)

theorem keeps_route (h : Handle D) (sql : String) : Keeps (τ := τ) (route h sql).onSecond := by
  intro o s
  show ((route h sql).exec s).2.slots = s.slots
  unfold route
  rw [Action.exec_of]
  cases h with
  | connection c => rfl
  | owner i =>
    dsimp only
    cases howner : s.owners[i]? with
    | none => rfl
    | some owner =>
      obtain ⟨hi, rfl⟩ := List.getElem?_eq_some_iff.1 howner
      show (s.owners.set i _).map Owner.slots = _
      rw [List.map_set, (Owner.route_mem _ sql).2, ← List.map_set, List.set_getElem_self, slots]

theorem keeps_execute (h : Handle D) (sql : String) (args : List Value) :
    Keeps (τ := τ) (adapter.execute h sql args).onSecond := by
  intro o s
  show ((Store.execute h sql args).exec s).2.slots = s.slots
  unfold Store.execute
  rw [Action.exec_bind_ok (Action.exec_get s), Action.exec_bind, Action.exec_liftM]
  cases (s.writerOf h).open sql args.length <;> rfl

theorem keeps_visit (h : Handle D) (sql : String) (args : List Value)
    {visitor : Action ((τ × Reader D) × Store D) Unit} (hvisitor : Keeps visitor) :
    Keeps (Store.visit h sql args visitor) := by
  refine (keeps_route h sql).bind fun slot => (keeps_liftM _).bind fun c => ?_
  exact (keeps_onWorld _).bind fun reader o s => hvisitor (o, reader) s

/-- A transaction closes nothing if its body does not close anything on its connection. -/
theorem keeps_transaction (h : Handle D) (body : Handle D → Action (τ × Store D) Unit)
    (hbody : ∀ c, Keeps (body (.connection c))) : Keeps (adapter.transaction h body) := by
  cases h with
  | connection c => exact hbody c
  | owner i =>
    refine Keeps.bind (fun _ _ => rfl) fun state => (keeps_liftM _).bind fun c => ?_
    refine (keeps_onWorld _).bind fun _ => Keeps.tryCatch ?_ fun e => ?_
    · exact (hbody c).bind fun _ => keeps_onWorld _
    · exact Keeps.bind (fun _ _ => rfl) fun _ _ _ => rfl

theorem Keeps.runOnce {a : Action (τ × Store D) α} (ha : Keeps a) :
    Keeps (Session.runOnce a) := by
  rintro ⟨attempt, o⟩ s
  cases attempt with
  | waiting =>
    rcases hexec : a.exec (o, s) with ⟨r, o', s'⟩
    rw [Session.exec_runOnce hexec]
    exact ha.eq hexec
  | failed | gave => rfl

/-! ## Bodies -/

end Store

/-- Nothing that a body does with its handle itself closes that.  Bodies of transactions in it get a
handle that they cannot close. -/
def Body.LeavesOpen : {n : Nat} → {α : Type} → Body β n α → Prop
  | _, _, done _ => True
  | _, _, get next => ∀ b, (next b).LeavesOpen
  | _, _, set _ next => next.LeavesOpen
  | _, _, execute _ _ next => ∀ r, (next r).LeavesOpen
  | _, _, query _ _ visit next =>
    (∀ columns, (visit columns).LeavesOpen) ∧ ∀ r, (next r).LeavesOpen
  | _, _, fetch _ next => ∀ r, (next r).LeavesOpen
  | _, _, transaction _ next => ∀ r, (next r).LeavesOpen
  | _, _, onAdapter _ next => ∀ r, (next r).LeavesOpen
  | _, _, close _ => False

namespace Store

theorem keeps_fetch {n : Nat} (i : Fin n) : Keeps (Readers.fetch (D := D) (β := β) i) :=
  fun _ _ => rfl

theorem keeps_visitor {n : Nat} {body : List String → Action (Readers D β (n + 1) × Store D) Unit}
    (hbody : ∀ columns, Keeps (body columns)) : Keeps (Readers.visitor body) :=
  fun o s => hbody o.2.columns (o.1.push o.2) s

/-- A body closes nothing if it leaves its handle open, or has one that it cannot close. -/
theorem keeps_body (dialect : Dialect) (idColumn : String) {n : Nat} {α : Type}
    (body : Body β n α) (h : Handle D) (hopen : (∃ c, h = .connection c) ∨ body.LeavesOpen) :
    Keeps (body.run dialect idColumn h) := by
  induction body generalizing h with
  | done r => exact fun _ _ => rfl
  | get next ih => exact fun o s => ih o.1 h (hopen.imp_right fun hopen => hopen o.1) o s
  | set b next ih => exact fun o s => ih h hopen (b, o.2) s
  | execute sql args next ih =>
    exact (keeps_execute h sql args).followed fun r => ih r h (hopen.imp_right fun hopen => hopen r)
  | query sql args visit next ihVisit ih =>
    have hvisit := keeps_visit h sql args (keeps_visitor fun columns =>
      ihVisit columns h (hopen.imp_right fun hopen => hopen.1 columns))
    exact hvisit.followed fun r => ih r h (hopen.imp_right fun hopen => hopen.2 r)
  | fetch i next ih =>
    exact (keeps_fetch i).followed fun r => ih r h (hopen.imp_right fun hopen => hopen r)
  | transaction inner next ihInner ih =>
    have hinner : Keeps ((session h dialect idColumn).transaction fun s =>
        inner.run dialect idColumn s.handle) := by
      intro o s
      have hkept := keeps_transaction h (fun h => Session.runOnce (inner.run dialect idColumn h))
        fun c => (ihInner (.connection c) (.inl ⟨c, rfl⟩)).runOnce
      rcases hexec : (adapter.transaction h fun h => Session.runOnce
        (inner.run dialect idColumn h)).exec ((.waiting, o), s) with ⟨r, ⟨attempt, o'⟩, s'⟩
      rw [Session.exec_transaction (session h dialect idColumn)
        (fun s => inner.run dialect idColumn s.handle) hexec]
      exact hkept.eq hexec
    exact hinner.followed fun r => ih r h (hopen.imp_right fun hopen => hopen r)
  | onAdapter inner next ihInner ih =>
    exact (keeps_transaction h _ fun c => ihInner (.connection c) (.inl ⟨c, rfl⟩)).followed fun r =>
      ih r h (hopen.imp_right fun hopen => hopen r)
  | @close n α next ih =>
    obtain ⟨c, rfl⟩ | hopen := hopen
    · have hclose : Keeps (τ := Readers D β n) (adapter.close (.connection c)).onSecond :=
        fun _ _ => rfl
      exact hclose.followed fun r => ih r (.connection c) (.inl ⟨c, rfl⟩)
    · exact hopen.elim

/-! ## Closing -/

section

variable {slot : Slot D} {slots : List (Slot D)} {owner : Owner D} {w : D.World}

/-- A connection is closed if that is what is told, and only then. -/
theorem closeSlot_eq_ok_iff :
    (closeSlot slot w).1 = .ok () ↔ (closeSlot slot w).2.1 = none := by
  cases slot with
  | none => exact ⟨fun _ => rfl, fun _ => rfl⟩
  | some c =>
    unfold closeSlot
    dsimp only
    rcases D.close c w with ⟨e | ⟨⟩, w'⟩
    · exact ⟨nofun, nofun⟩
    · exact ⟨fun _ => rfl, fun _ => rfl⟩

/-- Connections are closed if that is what is told of them together, and only then. -/
theorem closeSlots_eq_ok_iff :
    (closeSlots slots w).1 = .ok () ↔ ∀ slot ∈ (closeSlots slots w).2.1, slot = none := by
  induction slots generalizing w with
  | nil => exact ⟨fun _ _ => nofun, fun _ => rfl⟩
  | cons slot slots ih =>
    unfold closeSlots
    dsimp only
    rw [List.forall_mem_cons, ← closeSlot_eq_ok_iff, ← ih]
    cases (closeSlot slot w).1 with
    | error e => exact ⟨nofun, fun h => absurd h.1 nofun⟩
    | ok u => exact ⟨fun h => ⟨rfl, h⟩, fun h => h.2⟩

/-- **An adapter is closed exactly if that is what it says.** -/
theorem closeOwner_eq_ok_iff :
    (closeOwner owner w).1 = .ok () ↔ ∀ slot ∈ (closeOwner owner w).2.1.slots, slot = none := by
  cases owner with
  | single slot =>
    show (closeSlot slot w).1 = .ok () ↔ ∀ slot' ∈ [(closeSlot slot w).2.1], slot' = none
    rw [List.forall_mem_singleton, closeSlot_eq_ok_iff]
  | pool writer readers turns =>
    unfold closeOwner
    dsimp only
    rw [Owner.slots, List.forall_mem_cons, ← closeSlot_eq_ok_iff, ← closeSlots_eq_ok_iff]
    cases (closeSlots readers w).1 with
    | error e => exact ⟨nofun, fun h => absurd h.2 nofun⟩
    | ok u => exact ⟨fun h => ⟨h, rfl⟩, fun h => h.1⟩

variable (hclose : D.Closes)

include hclose

theorem closeSlot_ok (slot : Slot D) (w : D.World) : (closeSlot slot w).1 = .ok () := by
  cases slot with
  | none => rfl
  | some c =>
    obtain ⟨w', hc⟩ := hclose c w
    unfold closeSlot
    dsimp only
    rw [hc]

theorem closeSlots_ok (slots : List (Slot D)) (w : D.World) : (closeSlots slots w).1 = .ok () := by
  induction slots generalizing w with
  | nil => rfl
  | cons slot slots ih =>
    unfold closeSlots
    dsimp only
    rw [closeSlot_ok hclose, ih]
    rfl

theorem closeOwner_ok (owner : Owner D) (w : D.World) : (closeOwner owner w).1 = .ok () := by
  cases owner with
  | single slot => exact closeSlot_ok hclose slot w
  | pool writer readers turns =>
    unfold closeOwner
    dsimp only
    rw [closeSlots_ok hclose, closeSlot_ok hclose]
    rfl

end

/-! ## Requests -/

/-- A visitor of a query. -/
inductive Visitor (D : Driver) (β : Type) : Type 1 where
  /-- It reads rows from a cursor and does nothing else. -/
  | reads (visit : Action (Readers D β 0 × Cursor) Unit)
  /-- It may use the adapter between two rows. -/
  | uses (visit : List String → Body β 1 Unit)

/-- A call on an adapter. -/
inductive Request (D : Driver) (β : Type) : Type 1 where
  | execute (sql : String) (args : List Value)
  | query (sql : String) (args : List Value) (visitor : Visitor D β)
  | transaction (body : Body β 0 Unit)
  | close

/-- A visitor does not close the adapter that it visits. -/
def Visitor.LeavesOpen : Visitor D β → Prop
  | reads _ => True
  | uses visit => ∀ columns, (visit columns).LeavesOpen

namespace Request

/-- Whether the adapter is closed. -/
def isClose : Request D β → Bool
  | close => true
  | _ => false

/-- The visitor does not close the adapter. -/
def LeavesOpen : Request D β → Prop
  | query _ _ visitor => visitor.LeavesOpen
  | _ => True

/-- The text that a refusal tells. -/
def sql : Request D β → String
  | execute sql _ => sql
  | query sql _ _ => sql
  | transaction _ => "BEGIN"
  | close => ""

/-- The number of arguments that a refusal tells. -/
def argCount : Request D β → Nat
  | execute _ args => args.length
  | query _ args _ => args.length
  | _ => 0

section

variable (dialect : Dialect) (idColumn : String) (i : Nat)

/-- What a visitor does, of a query on an adapter. -/
def visit : Visitor D β → Action ((Readers D β 0 × Reader D) × Store D) Unit
  | .reads visit => Store.reading visit
  | .uses visit => Readers.visitor fun columns => (visit columns).run dialect idColumn (.owner i)

/-- Makes a call on an adapter. -/
def send : Request D β → Action (Readers D β 0 × Store D) Unit
  | execute sql args => do let _ ← (adapter.execute (.owner i) sql args).onSecond
  | query sql args (.reads visit) => adapter.query (.owner i) sql args visit
  | query sql args visitor => Store.visit (.owner i) sql args (visit dialect idColumn i visitor)
  | transaction body => adapter.transaction (.owner i) fun h => body.run dialect idColumn h
  | close => (adapter.close (.owner i)).onSecond

theorem send_query (sql : String) (args : List Value) (visitor : Visitor D β) :
    send dialect idColumn i (.query sql args visitor) =
      Store.visit (.owner i) sql args (visit dialect idColumn i visitor) := by
  cases visitor <;> rfl

/-- **A call gets to its visitor or body**, which gives something. -/
inductive Gives (o : Readers D β 0) (s : Store D) : Request D β → Except Error Unit → Prop where
  | visitor {sql args visitor c s₁ reader w r state}
      (routed : (route (.owner i) sql).exec s = (.ok (some c), s₁))
      (opened : (D.openOn c sql args).exec s₁.world = (.ok reader, w))
      (visited : (visit dialect idColumn i visitor).exec ((o, reader), { s₁ with world := w }) =
        (r, state)) : Gives o s (.query sql args visitor) r
  | body {body c w r state} (found : s.writerOf (.owner i) = some c)
      (begun : D.begin c s.world = (.ok (), w))
      (ran : (body.run dialect idColumn (.connection c)).exec (o, { s with world := w }) =
        (r, state)) : Gives o s (.transaction body) r

end
end Request

/-! ## Before and after the first `close` -/

/-- All connections of an adapter are open, or all are closed. -/
def Stands (s : Store D) (i : Nat) (closed : Bool) : Prop :=
  ∃ slots, s.slots[i]? = some slots ∧ ∀ slot ∈ slots, slot.isNone = closed

section

variable {s s' : Store D} {i : Nat} {closed : Bool}

theorem Stands.of_slots (hs : s.Stands i closed) (h : s'.slots = s.slots) : s'.Stands i closed := by
  unfold Stands
  rwa [h]

theorem Stands.owner (hs : s.Stands i closed) :
    ∃ owner, s.owners[i]? = some owner ∧ ∀ slot ∈ owner.slots, slot.isNone = closed := by
  obtain ⟨slots, hslots, h⟩ := hs
  obtain ⟨owner, howner, rfl⟩ := Option.map_eq_some_iff.1 ((List.getElem?_map ..).symm.trans hslots)
  exact ⟨owner, howner, h⟩

/-- The connection that writes. -/
theorem Stands.writerOf (hs : s.Stands i closed) :
    (s.writerOf (.owner i)).isNone = closed := by
  obtain ⟨owner, howner, h⟩ := hs.owner
  show (s.owners[i]?.bind Owner.writer).isNone = closed
  rw [howner]
  exact h _ owner.writer_mem

/-- The connection for a query. -/
theorem Stands.route (hs : s.Stands i closed) (sql : String) :
    ∃ slot s', (route (.owner i) sql).exec s = (.ok slot, s') ∧ slot.isNone = closed ∧
      s'.world = s.world := by
  obtain ⟨owner, howner, h⟩ := hs.owner
  refine ⟨(owner.route sql).1, { s with owners := s.owners.set i (owner.route sql).2 }, ?_,
    h _ (owner.route_mem sql).1, rfl⟩
  unfold Store.route
  rw [Action.exec_of]
  dsimp only
  rw [howner]

/-- An adapter can be closed, also more than once. -/
theorem Stands.close (hclose : D.Closes) (hs : s.Stands i closed) :
    ∃ s', (adapter.close (.owner i)).exec s = (.ok (), s') ∧ s'.Stands i true := by
  obtain ⟨owner, howner, -⟩ := hs.owner
  have hok := closeOwner_ok hclose owner s.world
  have hnone := closeOwner_eq_ok_iff.1 hok
  rcases hclosed : closeOwner owner s.world with ⟨r, owner', world⟩
  rw [hclosed] at hok hnone
  obtain rfl : r = .ok () := hok
  refine ⟨{ world, owners := s.owners.set i owner' }, ?_, owner'.slots, ?_, fun slot hslot => ?_⟩
  · show (Store.close (.owner i)).exec s = _
    unfold Store.close
    rw [Action.exec_of]
    dsimp only
    rw [howner]
    dsimp only
    rw [hclosed]
  · show ((s.owners.set i owner').map Owner.slots)[i]? = _
    have hi := (List.getElem?_eq_some_iff.1 howner).1
    rw [List.getElem?_map, List.getElem?_set_self hi, Option.map_some]
  · rw [hnone slot hslot]
    rfl

end

/-! ## Failures of the driver -/

/-- A failure of an action does not tell of an adapter that is closed. -/
def Blameless {σ : Type} (a : Action σ α) : Prop :=
  ∀ w e w', a.exec w = (.error e, w') → ¬ e.IsClosed

theorem Blameless.bind {σ : Type} {a : Action σ γ} {f : γ → Action σ α} (ha : Blameless a)
    (hf : ∀ x, Blameless (f x)) : Blameless (a >>= f) := by
  intro w e w' h
  rw [Action.exec_bind] at h
  rcases hexec : a.exec w with ⟨e' | x, w₁⟩ <;> rw [hexec] at h
  · obtain rfl := Except.error.inj (Prod.mk.inj h).1
    exact ha w _ w₁ hexec
  · exact hf x w₁ e w' h

theorem blameless_call (sql : String) (argCount : Nat)
    (f : D.World → Except DriverError α × D.World) : Blameless (D.call sql argCount f) := by
  intro w e w' h
  obtain ⟨hfailed, -⟩ := Prod.mk.inj ((Driver.exec_call sql argCount f w).symm.trans h)
  cases hf : (f w).1 with
  | error e' =>
    rw [hf] at hfailed
    obtain rfl := Except.error.inj hfailed
    exact e'.not_isClosed sql argCount
  | ok x =>
    rw [hf] at hfailed
    exact absurd hfailed (by simp [Except.mapError])

theorem blameless_executeOn (c : D.Connection) (sql : String) (args : List Value) :
    Blameless (D.executeOn c sql args) :=
  (blameless_call sql args.length _).bind fun _ => (blameless_call sql args.length _).bind
    fun _ _ _ _ h => absurd (Prod.mk.inj h).1 nofun

theorem blameless_openOn (c : D.Connection) (sql : String) (args : List Value) :
    Blameless (D.openOn c sql args) :=
  (blameless_call sql args.length _).bind fun _ => (blameless_call sql args.length _).bind
    fun _ _ _ _ h => absurd (Prod.mk.inj h).1 nofun

/-! ## Calls -/

section

variable {s s' : Store D} {i : Nat} {o o' : Readers D β 0} {dialect : Dialect} {idColumn : String}
  {call : Request D β} {closed : Bool}

/-- Before it is closed an adapter says that it is closed only after a visitor or a body did. -/
theorem Stands.gives (hs : s.Stands i false) {e : Error} {state : Readers D β 0 × Store D}
    (hcall : call.isClose = false)
    (h : (call.send dialect idColumn i).exec (o, s) = (.error e, state)) (he : e.IsClosed) :
    call.Gives dialect idColumn i o s (.error e) := by
  cases call with
  | execute sql args =>
    obtain ⟨c, hc⟩ := Option.isSome_iff_exists.1 (Option.isNone_eq_false_iff.1 hs.writerOf)
    have h : ((adapter.execute (.owner i) sql args).onSecond >>= fun _ => pure ()).exec (o, s) =
      (.error e, state) := h
    rw [Action.exec_bind, Action.exec_onSecond, exec_execute, hc] at h
    dsimp only at h
    rcases hexec : (D.executeOn c sql args).exec s.world with ⟨e' | answer, w⟩ <;>
      rw [hexec] at h
    · obtain rfl := Except.error.inj (Prod.mk.inj h).1
      exact absurd he (blameless_executeOn c sql args _ _ _ hexec)
    · exact absurd (Prod.mk.inj h).1 nofun
  | query sql args visitor =>
    obtain ⟨slot, s₁, hroute, hslot, -⟩ := hs.route sql
    obtain ⟨c, rfl⟩ := Option.isSome_iff_exists.1 (Option.isNone_eq_false_iff.1 hslot)
    rw [Request.send_query, exec_visit hroute] at h
    dsimp only at h
    rw [exec_visitOn] at h
    rcases hopen : (D.openOn c sql args).exec s₁.world with ⟨e' | reader, w⟩ <;> rw [hopen] at h
    · obtain rfl := Except.error.inj (Prod.mk.inj h).1
      exact absurd he (blameless_openOn c sql args _ _ _ hopen)
    · dsimp only at h
      rcases hvisit : (Request.visit dialect idColumn i visitor).exec ((o, reader),
        { s₁ with world := w }) with ⟨r, state'⟩
      rw [hvisit] at h
      obtain rfl := (Prod.mk.inj h).1
      exact .visitor hroute hopen hvisit
  | transaction body =>
    obtain ⟨c, hc⟩ := Option.isSome_iff_exists.1 (Option.isNone_eq_false_iff.1 hs.writerOf)
    have h : (adapter.transaction (.owner i) fun h => body.run dialect idColumn h).exec (o, s) =
      (.error e, state) := h
    rw [exec_transaction, hc] at h
    dsimp only at h
    rw [exec_transactionOn] at h
    rcases hbegin : D.begin c s.world with ⟨e' | ⟨⟩, w⟩ <;> rw [hbegin] at h
    · obtain rfl := Except.error.inj (Prod.mk.inj h).1
      exact absurd he (e'.not_isClosed "BEGIN" 0)
    · dsimp only at h
      rcases hbody :
          (body.run dialect idColumn (.connection c)).exec (o, { s with world := w }) with
        ⟨e' | ⟨⟩, o₁, s₁⟩ <;> rw [hbody] at h
      · obtain rfl := Except.error.inj (Prod.mk.inj h).1
        exact .body hc hbegin hbody
      · dsimp only at h
        rcases hcommit : D.commit c s₁.world with ⟨e' | ⟨⟩, w'⟩ <;> rw [hcommit] at h
        · obtain rfl := Except.error.inj (Prod.mk.inj h).1
          exact absurd he (e'.not_isClosed "COMMIT" 0)
        · exact absurd (Prod.mk.inj h).1 nofun
  | close => exact absurd hcall nofun

/-- Once it is closed an adapter refuses every call, and does nothing else. -/
theorem Stands.refuses (hs : s.Stands i true) (hcall : call.isClose = false)
    (o : Readers D β 0) :
    (∃ s', (call.send dialect idColumn i).exec (o, s) =
      (.error (.adapter (.closed call.sql call.argCount)), (o, s')) ∧ s'.world = s.world) ∧
    ∀ r, ¬ call.Gives dialect idColumn i o s r := by
  have hwriter : s.writerOf (.owner i) = none := Option.isNone_iff_eq_none.1 hs.writerOf
  cases call with
  | execute sql args =>
    refine ⟨⟨s, ?_, rfl⟩, fun r => nofun⟩
    show ((adapter.execute (.owner i) sql args).onSecond >>= fun _ => pure ()).exec (o, s) = _
    rw [Action.exec_bind, Action.exec_onSecond, exec_execute, hwriter]
    rfl
  | query sql args visitor =>
    obtain ⟨slot, s₁, hroute, hslot, hworld⟩ := hs.route sql
    obtain rfl := Option.isNone_iff_eq_none.1 hslot
    refine ⟨⟨s₁, ?_, hworld⟩, fun r hr => ?_⟩
    · rw [Request.send_query, exec_visit hroute]
      rfl
    cases hr with
    | visitor routed opened visited =>
      exact absurd ((Prod.mk.inj (routed.symm.trans hroute)).1) nofun
  | transaction body =>
    refine ⟨⟨s, ?_, rfl⟩, fun r hr => ?_⟩
    · show (adapter.transaction (.owner i) fun h => body.run dialect idColumn h).exec (o, s) = _
      rw [exec_transaction, hwriter]
      rfl
    · cases hr with
      | body found begun ran => exact absurd (found.symm.trans hwriter) nofun
  | close => exact absurd hcall nofun

/-- What a call leaves behind. -/
theorem Stands.send (hclose : D.Closes) (hs : s.Stands i closed) (hcall : call.LeavesOpen)
    (o : Readers D β 0) :
    ((call.send dialect idColumn i).exec (o, s)).2.2.Stands i (closed || call.isClose) := by
  cases call with
  | execute sql args =>
    show Stands _ i (closed || false)
    rw [Bool.or_false]
    exact hs.of_slots (((keeps_execute (.owner i) sql args).bind fun _ _ _ => rfl) o s)
  | query sql args visitor =>
    show Stands _ i (closed || false)
    rw [Bool.or_false, Request.send_query]
    refine hs.of_slots (keeps_visit (.owner i) sql args ?_ o s)
    cases visitor with
    | reads visit => exact fun _ _ => rfl
    | uses visit =>
      exact keeps_visitor fun columns =>
        keeps_body dialect idColumn (visit columns) (.owner i) (.inr (hcall columns))
  | transaction body =>
    show Stands _ i (closed || false)
    rw [Bool.or_false]
    exact hs.of_slots (keeps_transaction (.owner i) _ (fun c =>
      keeps_body dialect idColumn body (.connection c) (.inl ⟨c, rfl⟩)) o s)
  | close =>
    obtain ⟨s', hexec, hs'⟩ := hs.close hclose
    rw [Request.isClose, Bool.or_true]
    show ((adapter.close (.owner i)).onSecond.exec (o, s)).2.2.Stands i true
    rwa [Action.exec_onSecond, hexec]

end

/-- What calls leave behind, one made after the other whatever they give. -/
def afterCalls (dialect : Dialect) (idColumn : String) (i : Nat) (calls : List (Request D β))
    (state : Readers D β 0 × Store D) : Readers D β 0 × Store D :=
  calls.foldl (fun state call => ((call.send dialect idColumn i).exec state).2) state

section

variable {s : Store D} {i : Nat} {dialect : Dialect} {idColumn : String} {closed : Bool}

/-- An adapter is open up to its first `close`, and closed from then on. -/
theorem Stands.afterCalls (hclose : D.Closes) (hs : s.Stands i closed) (calls : List (Request D β))
    (hcalls : ∀ call ∈ calls, call.LeavesOpen) (o : Readers D β 0) :
    (afterCalls dialect idColumn i calls (o, s)).2.Stands i
      (closed || calls.any Request.isClose) := by
  induction calls generalizing closed o s with
  | nil => rwa [List.any_nil, Bool.or_false]
  | cons call calls ih =>
    obtain ⟨hcall, hcalls⟩ := List.forall_mem_cons.1 hcalls
    rw [List.any_cons, ← Bool.or_assoc]
    exact ih (hs.send hclose hcall o) hcalls _

/-- **Closing is final**, with a driver that closes connections when it is asked to.  After any
calls on an adapter that was open, none of whose visitors closed it, a further call

* does not fail for the adapter being closed as long as none of them closed it, unless it got to its
  visitor or body and that gave this very error;
* fails for that once one of them did, with its own text and number of arguments; then it gets
  neither to a visitor nor to a body, and nothing happens in the world of the driver.

`close` itself always succeeds. -/
theorem closing_is_final (hclose : D.Closes) (hs : s.Stands i false) (calls : List (Request D β))
    (hcalls : ∀ call ∈ calls, call.LeavesOpen) (call : Request D β) (o o' : Readers D β 0)
    (s' : Store D) (hreached : Store.afterCalls dialect idColumn i calls (o, s) = (o', s')) :
    (call = .close →
      ∃ s'', (call.send dialect idColumn i).exec (o', s') = (.ok (), (o', s''))) ∧
    (call.isClose = false → calls.any Request.isClose = false →
      ∀ e state, (call.send dialect idColumn i).exec (o', s') = (.error e, state) → e.IsClosed →
        call.Gives dialect idColumn i o' s' (.error e)) ∧
    (call.isClose = false → calls.any Request.isClose = true →
      (∃ s'', (call.send dialect idColumn i).exec (o', s') =
        (.error (.adapter (.closed call.sql call.argCount)), (o', s'')) ∧ s''.world = s'.world) ∧
      ∀ r, ¬ call.Gives dialect idColumn i o' s' r) := by
  have hs' : (Store.afterCalls dialect idColumn i calls (o, s)).2.Stands i
      (false || calls.any Request.isClose) :=
    hs.afterCalls hclose calls hcalls o
  rw [hreached, Bool.false_or] at hs'
  refine ⟨?_, fun hcall hopen e state hexec he => ?_, fun hcall hclosed => ?_⟩
  · rintro rfl
    obtain ⟨s'', hexec, -⟩ := hs'.close hclose
    refine ⟨s'', ?_⟩
    show (adapter.close (.owner i)).onSecond.exec (o', s') = _
    rw [Action.exec_onSecond, hexec]
  · rw [hopen] at hs'
    exact hs'.gives hcall hexec he
  · rw [hclosed] at hs'
    exact hs'.refuses hcall o'

end

/-! ## Adapters that were opened -/

section

variable {s s' : Store engine}

theorem stands_own (s : Store engine) (world : World) {owner : Owner engine}
    (h : ∀ slot ∈ owner.slots, slot.isNone = false) :
    (s.own world owner).Stands s.owners.length false := by
  refine ⟨owner.slots, ?_, h⟩
  show ((s.owners ++ [owner]).map Owner.slots)[s.owners.length]? = _
  rw [List.getElem?_map, List.getElem?_concat_length, Option.map_some]

/-- What was just opened is open, with all its connections. -/
theorem stands_openMemory (s : Store engine) (pooled : Bool) (lockTimeout : Nat) :
    (s.openMemory pooled lockTimeout).Stands s.owners.length false := by
  refine stands_own s _ fun slot hslot => ?_
  cases pooled <;> exact List.mem_singleton.1 hslot ▸ rfl

theorem stands_openFile {missing : Option String} {readers : Option Nat} {lockTimeout : Nat}
    (h : s.openFile missing readers lockTimeout = .ok s') :
    s'.Stands s.owners.length false := by
  cases missing with
  | some path => exact absurd h nofun
  | none =>
    unfold openFile at h
    dsimp only at h
    split at h
    · exact absurd h nofun
    · cases readers with
      | none =>
        obtain rfl := Except.ok.inj h
        exact stands_own s _ fun slot hslot => List.mem_singleton.1 hslot ▸ rfl
      | some n =>
        obtain rfl := Except.ok.inj h
        refine stands_own s _ fun slot hslot => ?_
        obtain rfl | hslot := List.mem_cons.1 hslot
        · rfl
        · obtain ⟨c, -, rfl⟩ := List.mem_map.1 hslot
          rfl

end

/-- Says that another adapter is closed. -/
def blame : Body Unit 1 Unit := .done (.error (.adapter (.closed "elsewhere" 0)))

/-- Reads the first row. -/
def readOne : Body Unit 1 Unit := .fetch 0 fun r => .done (r.map fun _ => ())

/-- A visitor of a pool with two readers may put the blame on another adapter.  Once the pool is
closed its second reader refuses a query, although only the first one was ever used.  A database in
memory that was closed refuses a transaction. -/
theorem closing_is_final_twoReaders :
    engine.Closes ∧ ∃ s, empty.openFile none (some 2) 0 = .ok s ∧ s.Stands 0 false ∧
    (∀ e state, ((Request.query "SELECT 1" [] (.uses fun _ => blame)).send .sqlite "id" 0).exec
        (Readers.none (), s) = (.error e, state) → e.IsClosed →
      (Request.query "SELECT 1" [] (.uses fun _ => blame)).Gives .sqlite "id" 0 (Readers.none ()) s
        (.error e)) ∧
    (∀ o s', afterCalls .sqlite "id" 0
        [.query "SELECT 1" [] (.uses fun _ => readOne), .close] (Readers.none (), s) = (o, s') →
      ∃ s'', ((Request.query "SELECT ?" [.null] (.uses fun _ => readOne)).send .sqlite "id" 0).exec
          (o, s') = (.error (.adapter (.closed "SELECT ?" 1)), (o, s'')) ∧
        s''.world = s'.world) ∧
    ∀ o s', afterCalls .sqlite "id" 0 [.close]
        (Readers.none (), empty.openMemory false 0) = (o, s') →
      ∃ s'', ((Request.transaction (.done (.ok ()))).send .sqlite "id" 0).exec (o, s') =
          (.error (.adapter (.closed "BEGIN" 0)), (o, s'')) ∧ s''.world = s'.world := by
  have hclose : engine.Closes := fun _ _ => ⟨_, rfl⟩
  obtain ⟨s, hs⟩ : ∃ s, empty.openFile none (some 2) 0 = .ok s := ⟨_, rfl⟩
  have hstands := stands_openFile hs
  refine ⟨hclose, s, hs, hstands, ?_, fun o s' hreached => ?_, fun o s' hreached => ?_⟩
  · exact (closing_is_final hclose hstands [] (fun _ => nofun) _ _ _ _ rfl).2.1 rfl rfl
  · have hcalls : ∀ call ∈ [(.query "SELECT 1" [] (.uses fun _ => readOne) : Request engine Unit),
        .close], call.LeavesOpen := by
      rw [List.forall_mem_cons, List.forall_mem_singleton]
      exact ⟨fun _ _ => trivial, trivial⟩
    exact ((closing_is_final hclose hstands _ hcalls _ _ o s' hreached).2.2 rfl rfl).1
  · have hcalls : ∀ call ∈ [(.close : Request engine Unit)], call.LeavesOpen := by
      rw [List.forall_mem_singleton]
      trivial
    have hmemory := empty.stands_openMemory false 0
    exact ((closing_is_final hclose hmemory _ hcalls _ _ o s' hreached).2.2 rfl rfl).1

end Store
end Embedded
end TableRecords
