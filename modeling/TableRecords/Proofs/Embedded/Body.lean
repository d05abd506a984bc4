import TableRecords.Proofs.Embedded.Meaning
import TableRecords.Proofs.Embedded.Store
import TableRecords.Proofs.Session.Transaction

/-!
# Bodies of transactions

The body of a transaction as a tree of what it does with the handle that it is given: it runs
statements, visits the rows of queries, and opens transactions whose bodies are such trees again.
The visitor of a query is such a tree too.  It reads rows from its own query, and from those around
it, and may do with the handle whatever a body does.  A body goes on with what a call gave, also
when that is an error, so it can pass an error on or swallow it.

    Body.run      : what a tree does through a handle
    explains_body : in a transaction that is a course of calls on one connection
-/

namespace TableRecords.Embedded

variable {D : Driver} {M : Meaning D} {α β γ τ : Type}

/-- The state of a body: that of its caller, and the readers of the queries around it, the innermost
first. -/
abbrev Readers (D : Driver) (β : Type) (n : Nat) : Type := β × (Fin n → Reader D)

namespace Readers

variable {n : Nat}

/-- No query is around. -/
def none (b : β) : Readers D β 0 := (b, Fin.elim0)

/-- One more reader. -/
def push (o : Readers D β n) (r : Reader D) : Readers D β (n + 1) := (o.1, Fin.cases r o.2)

/-- The innermost reader, apart from the others. -/
def pop (o : Readers D β (n + 1)) : Readers D β n × Reader D := ((o.1, fun i => o.2 i.succ), o.2 0)

/-- Reads a row. -/
def fetch (i : Fin n) : Action (Readers D β n × Store D) (Option (List Value)) :=
  .of fun ((b, readers), s) =>
    let (row, (r, world)) := Reader.next.exec (readers i, s.world)
    (row, ((b, fun j => if j = i then r else readers j), { s with world }))

/-- All readers are of plain statements on a connection. -/
def Plain (M : Meaning D) (c : D.Connection) (o : Readers D β n) : Prop :=
  ∀ i, M.PlainRows c (o.2 i).rows

/-- A visitor that does what a body with one more reader does. -/
def visitor (body : List String → Action (Readers D β (n + 1) × Store D) Unit) :
    Action ((Readers D β n × Reader D) × Store D) Unit :=
  .of fun ((o, r), s) =>
    let (answer, (o, s)) := (body r.columns).exec (o.push r, s)
    (answer, (o.pop, s))

end Readers

/-- A body that works on a state of the caller and gives a value or an error. -/
inductive Body (β : Type) : Nat → Type → Type 1 where
  | done {n : Nat} {α : Type} (r : Except Error α) : Body β n α
  | get {n : Nat} {α : Type} (next : β → Body β n α) : Body β n α
  | set {n : Nat} {α : Type} (b : β) (next : Body β n α) : Body β n α
  | execute {n : Nat} {α : Type} (sql : String) (args : List Value)
      (next : Except Error ExecResult → Body β n α) : Body β n α
  /-- A query whose visitor is told the names of the columns. -/
  | query {n : Nat} {α : Type} (sql : String) (args : List Value)
      (visit : List String → Body β (n + 1) Unit) (next : Except Error Unit → Body β n α) :
      Body β n α
  /-- The next row of a query around. -/
  | fetch {n : Nat} {α : Type} (i : Fin n)
      (next : Except Error (Option (List Value)) → Body β n α) : Body β n α
  /-- A transaction of the session, which gives a value. -/
  | transaction {n : Nat} {α γ : Type} (inner : Body β n γ) (next : Except Error γ → Body β n α) :
      Body β n α
  /-- A transaction of the adapter itself. -/
  | onAdapter {n : Nat} {α : Type} (inner : Body β n Unit)
      (next : Except Error Unit → Body β n α) : Body β n α
  | close {n : Nat} {α : Type} (next : Except Error Unit → Body β n α) : Body β n α

/-- A session on an adapter of a store. -/
def Store.session (h : Handle D) (dialect : Dialect) (idColumn : String) :
    Session (Store D) (Handle D) :=
  ⟨adapter, h, dialect, idColumn⟩

namespace Body

section

variable (dialect : Dialect) (idColumn : String)

/-- Runs a body through a handle. -/
def run : {n : Nat} → {α : Type} → Body β n α → Handle D → Action (Readers D β n × Store D) α
  | _, _, done r, _ => .of fun state => (r, state)
  | _, _, get next, h => .of fun (o, s) => ((next o.1).run h).exec (o, s)
  | _, _, set b next, h => .of fun (o, s) => (next.run h).exec ((b, o.2), s)
  | _, _, execute sql args next, h => .of fun (o, s) =>
    let (r, s) := (Store.adapter.execute h sql args).exec s
    ((next r).run h).exec (o, s)
  | _, _, query sql args visit next, h => .of fun state =>
    let visitor := Readers.visitor fun columns => (visit columns).run h
    let (r, state) := (Store.visit h sql args visitor).exec state
    ((next r).run h).exec state
  | _, _, fetch i next, h => .of fun state =>
    let (r, state) := (Readers.fetch i).exec state
    ((next r).run h).exec state
  | _, _, transaction inner next, h => .of fun state =>
    let (r, state) :=
      ((Store.session h dialect idColumn).transaction fun s => inner.run s.handle).exec state
    ((next r).run h).exec state
  | _, _, onAdapter inner next, h => .of fun state =>
    let (r, state) := (Store.adapter.transaction h fun h => inner.run h).exec state
    ((next r).run h).exec state
  | _, _, close next, h => .of fun (o, s) =>
    let (r, s) := (Store.adapter.close h).exec s
    ((next r).run h).exec (o, s)

end

end Body

/-! ## Statements -/

namespace Meaning

/-- In a transaction on `c` an action is a course of calls, and what it gives satisfies `Q`. -/
def Follows (M : Meaning D) (c : D.Connection) (a : Action D.World α) (Q : α → Prop) : Prop :=
  ∀ w₀ w, M.Ongoing c w₀ w → ∃ r w' calls, a.exec w = (r, w') ∧ M.Course c w calls w' ∧
    ∀ x, r = .ok x → Q x

variable {c : D.Connection} {Q : α → Prop} {R : γ → Prop} (hM : M.Lawful)

theorem Follows.bind {a : Action D.World α} {f : α → Action D.World γ} (ha : M.Follows c a Q)
    (hf : ∀ x, Q x → M.Follows c (f x) R) : M.Follows c (a >>= f) R := by
  intro w₀ w hw
  obtain ⟨r, w₁, calls, hexec, hcourse, hQ⟩ := ha w₀ w hw
  cases r with
  | error e => exact ⟨.error e, w₁, calls, Action.exec_bind_error hexec, hcourse, nofun⟩
  | ok x =>
    obtain ⟨r, w', more, hexec', hcourse', hR⟩ := hf x (hQ x rfl) w₀ w₁ (hw.append hcourse)
    refine ⟨r, w', calls ++ more, ?_, hcourse.append hcourse', hR⟩
    rw [Action.exec_bind_ok hexec, hexec']

include hM

end Meaning

/-! ## Bodies -/

namespace Store

/-- In a transaction on `c` an action is a course of calls, from states of the caller that satisfy
`P` to such states. -/
def Explains (M : Meaning D) (c : D.Connection) (P : τ → Prop) (a : Action (τ × Store D) α) :
    Prop :=
  ∀ o s w₀, P o → M.Ongoing c w₀ s.world → ∃ r o' w calls,
    a.exec (o, s) = (r, (o', { s with world := w })) ∧ P o' ∧ M.Course c s.world calls w

variable {c : D.Connection} {P : τ → Prop} {n : Nat}

/-- What does not touch the store needs no calls. -/
theorem explains_of (f : τ → Except Error α × τ) (hf : ∀ o, P o → P (f o).2) :
    Explains M c P (.of fun (o, s) => ((f o).1, ((f o).2, s))) :=
  fun o s _ ho _ => ⟨_, _, s.world, [], rfl, hf o ho, .nil⟩

/-- One action after another, whatever the first gave. -/
theorem Explains.followed {a : Action (τ × Store D) γ}
    {next : Except Error γ → Action (τ × Store D) α} (ha : Explains M c P a)
    (hnext : ∀ r, Explains M c P (next r)) :
    Explains M c P (.of fun x => let (r, x) := a.exec x; (next r).exec x) := by
  intro o s w₀ ho hw
  obtain ⟨r, o₁, w₁, calls, hexec, ho₁, hcourse⟩ := ha o s w₀ ho hw
  obtain ⟨r', o', w', more, hexec', ho', hcourse'⟩ :=
    hnext r o₁ { s with world := w₁ } w₀ ho₁ (hw.append hcourse)
  refine ⟨r', o', w', calls ++ more, ?_, ho', hcourse.append hcourse'⟩
  rw [Action.exec_of, hexec]
  exact hexec'

variable (hM : M.Lawful)

include hM

end Store
end TableRecords.Embedded
