import TableRecords.Proofs.Embedded.Evaluate

/-!
# What a connection does

What is done on a connection is told in parts (`change_eq`, `plan_select`, `ready_eq`), so that what
is said of runs is said of the parts.

`Run.Ensures P r Q E` says of something a connection does that it leads from links that satisfy `P`
to links that satisfy `Q`, with what it gave, or `E`, with the fault it ended in.
-/

namespace TableRecords.Embedded

namespace Run

theorem run_planOf (text : String) (l : Link) :
    (planOf text).run l = (planned l.connection.settings l.content text, l) := by
  unfold planOf planned
  cases Command.parse text with
  | error f => rfl
  | ok command =>
    show (liftM (Plan.ofCommand l.scope command) : Run Plan).run l =
      (Plan.ofCommand l.scope command, l)
    cases Plan.ofCommand l.scope command <;> rfl

variable {α β : Type} {P P' : Link → Prop} {Q : α → Link → Prop} {R : β → Link → Prop}
  {E : Fault → Link → Prop}

/-! ## Parts of a run -/

/-- Notes the id of the last row that was inserted, if one was. -/
def noteId (id : Option Int64) : Run Unit :=
  modify (Link.onConnection fun c => { c with lastId := id.getD c.lastId })

/-- Puts what a change made in place, and notes how many rows it changed. -/
def finish (changed : Changed) : Run Rows :=
  (if changed.count ≠ 0 then publish changed.content else pure ()) >>= fun _ => do
    countChanges changed.count
    return []

theorem change_eq (i : Nat) (p : Plan) (args : List Cell) :
    change i p args = (do
      countChanges 0
      beginWrite i
      let l ← get
      noteId ((p.change l.content args).run.run none).2
      let (changed, rows) ← liftM ((p.change l.content args).run.run none).1
      let more ← tryCatch (finish changed) fun f => return [.error f]
      return rows.map .ok ++ more) := by
  unfold change finish
  refine bind_congr fun _ => bind_congr fun _ => bind_congr fun l => bind_congr fun _ =>
    bind_congr fun (changed, rows) => ?_
  dsimp only
  split <;> rfl

theorem plan_select (i : Nat) (q : QueryPlan) (args : List Cell) :
    plan i (.select q) args =
      (if q.readsTable then beginRead else pure ()) >>= fun _ => do
        return q.rows (← get).content args := by
  unfold plan
  dsimp only
  split <;> rfl

/-- A prepared statement notes that it changes rows and asks for the right to write, if it is to,
and its text is prepared anew. -/
theorem ready_eq (i : Nat) (p : Prepared) :
    ready i p =
      (if p.effect = .rows then countChanges 0 else pure ()) >>= fun _ =>
        (if p.effect ≠ .none then beginWrite i else pure ()) >>= fun _ => planOf p.text := by
  unfold ready
  dsimp only
  split <;> split <;> rfl

/-! ## Postconditions -/

/-- From where `P` holds, a run ends where `Q` holds or in a fault where `E` holds. -/
def Ensures (P : Link → Prop) (r : Run α) (Q : α → Link → Prop) (E : Fault → Link → Prop) : Prop :=
  ∀ l, P l → match r.run l with
    | (.ok a, l') => Q a l'
    | (.error f, l') => E f l'

theorem Ensures.ok {r : Run α} {l l' : Link} {a : α} (h : Ensures P r Q E) (hl : P l)
    (hrun : r.run l = (.ok a, l')) : Q a l' := by
  have h := h l hl
  rwa [hrun] at h

theorem Ensures.error {r : Run α} {l l' : Link} {f : Fault} (h : Ensures P r Q E) (hl : P l)
    (hrun : r.run l = (.error f, l')) : E f l' := by
  have h := h l hl
  rwa [hrun] at h

theorem Ensures.bind {r : Run α} {f : α → Run β} (hr : Ensures P r Q E)
    (hf : ∀ a, Ensures (Q a) (f a) R E) : Ensures P (r >>= f) R E := by
  intro l hl
  rw [run_bind_state]
  rcases hrun : r.run l with ⟨e | a, l'⟩
  · exact hr.error hl hrun
  · exact hf a l' (hr.ok hl hrun)

theorem Ensures.mono {Q' : α → Link → Prop} {E' : Fault → Link → Prop} {r : Run α}
    (h : Ensures P r Q E) (hQ : ∀ a l, Q a l → Q' a l) (hE : ∀ f l, E f l → E' f l) :
    Ensures P r Q' E' := by
  intro l hl
  rcases hrun : r.run l with ⟨f | a, l'⟩
  · exact hE f l' (h.error hl hrun)
  · exact hQ a l' (h.ok hl hrun)

theorem ensures_pure {a : α} (h : ∀ l, P l → Q a l) : Ensures P (pure a) Q E := h

theorem ensures_throw {f : Fault} (h : ∀ l, P l → E f l) : Ensures P (throw f : Run α) Q E := h

theorem ensures_modify {f : Link → Link} {Q : PUnit → Link → Prop} (h : ∀ l, P l → Q ⟨⟩ (f l)) :
    Ensures P (modify f) Q E := h

theorem ensures_set {l' : Link} {Q : PUnit → Link → Prop} (h : ∀ l, P l → Q ⟨⟩ l') :
    Ensures P (set l') Q E := h

theorem ensures_get_bind {f : Link → Run β} (h : ∀ l, P l → Ensures (· = l) (f l) R E) :
    Ensures P (get >>= f) R E := by
  intro l hl
  exact h l hl l rfl

theorem ensures_need {p : Bool} {f : Fault} {Q : Unit → Link → Prop}
    (hok : p = true → ∀ l, P l → Q () l) (herror : p = false → ∀ l, P l → E f l) :
    Ensures P (need p f) Q E := by
  unfold need
  split
  · next hp => exact ensures_pure (hok hp)
  · next hp => exact ensures_throw (herror (by simpa using hp))

theorem ensures_ite {b : Prop} [Decidable b] {r r' : Run α} (h : Ensures P r Q E)
    (h' : Ensures P r' Q E) : Ensures P (if b then r else r') Q E := by
  split
  · exact h
  · exact h'

end Run
end TableRecords.Embedded
