import TableRecords.Embedded.Engine
import TableRecords.Proofs.Embedded.Run

/-!
# Statements do not look at what is kept

Which prepared statements a connection keeps is asked for when a text is prepared and nowhere else.
`Run.Alike r' r` says that `r'`, on a link that keeps other statements, gives what `r` gives and
leads to the same link but for what is kept; all else that is done on a link is alike to itself.  So
the rows of a prepared statement do not depend on what is kept beside it (`Link.given_keeping`).
-/

namespace TableRecords.Embedded

/-- The link with other prepared statements kept. -/
def Link.keeping (l : Link) (kept : List Prepared) : Link :=
  l.onConnection fun c => { c with kept }

theorem Link.keeping_transaction (l : Link) (kept : List Prepared) :
    (l.keeping kept).connection.transaction = l.connection.transaction := rfl

namespace Run

variable {α β : Type}

/-- On a link that keeps other statements `r'` does what `r` does. -/
def Alike (r' r : Run α) : Prop :=
  ∀ l kept, ∃ kept', r'.run (l.keeping kept) = ((r.run l).1, (r.run l).2.keeping kept')

theorem Alike.eq {r' r : Run α} (h : Alike r' r) {l l' : Link} {x : Except Fault α}
    (hrun : r.run l = (x, l')) (kept : List Prepared) :
    ∃ kept', r'.run (l.keeping kept) = (x, l'.keeping kept') := by
  have h := h l kept
  rwa [hrun] at h

theorem alike_pure (a : α) : Alike (pure a) (pure a) := fun _ kept => ⟨kept, rfl⟩

theorem alike_throw (f : Fault) : Alike (throw f : Run α) (throw f) := fun _ kept => ⟨kept, rfl⟩

theorem alike_liftM (x : Except Fault α) : Alike (liftM x : Run α) (liftM x) := by
  intro l kept
  cases x <;> exact ⟨kept, rfl⟩

theorem alike_need (p : Bool) (f : Fault) : Alike (need p f) (need p f) := by
  intro l kept
  cases p <;> exact ⟨kept, rfl⟩

theorem alike_set {l' l : Link} (h : ∃ kept, l' = l.keeping kept) : Alike (set l') (set l) := by
  obtain ⟨kept, rfl⟩ := h
  exact fun _ _ => ⟨kept, rfl⟩

theorem alike_onConnection {f : Connection → Connection}
    (h : ∀ c kept, ∃ kept', f { c with kept } = { f c with kept := kept' }) :
    Alike (modify (Link.onConnection f)) (modify (Link.onConnection f)) := by
  intro l kept
  obtain ⟨kept', h⟩ := h l.connection kept
  refine ⟨kept', ?_⟩
  show (Except.ok PUnit.unit, Link.onConnection f (l.keeping kept)) =
    (Except.ok PUnit.unit, (l.onConnection f).keeping kept')
  unfold Link.keeping Link.onConnection
  dsimp only
  rw [h]

theorem alike_get_bind {f : Link → Run β} (h : ∀ l kept, Alike (f (l.keeping kept)) (f l)) :
    Alike (get >>= f) (get >>= f) :=
  fun l kept => h l kept l kept

theorem Alike.bind {r' r : Run α} {f' f : α → Run β} (hr : Alike r' r)
    (hf : ∀ a, Alike (f' a) (f a)) : Alike (r' >>= f') (r >>= f) := by
  intro l kept
  rw [run_bind_state, run_bind_state]
  rcases hrun : r.run l with ⟨e | a, l'⟩
  · obtain ⟨kept', h⟩ := hr.eq hrun kept
    rw [h]
    exact ⟨kept', rfl⟩
  · obtain ⟨kept₁, h⟩ := hr.eq hrun kept
    rw [h]
    exact hf a l' kept₁

theorem alike_ite {p : Prop} [Decidable p] {r' r s' s : Run α} (h : Alike r' r) (h' : Alike s' s) :
    Alike (if p then r' else s') (if p then r else s) := by
  split
  · exact h
  · exact h'

theorem Alike.tryCatch {r' r : Run α} {handle : Fault → Run α} (hr : Alike r' r)
    (hhandle : ∀ f, Alike (handle f) (handle f)) :
    Alike (tryCatch r' handle) (tryCatch r handle) := by
  intro l kept
  rw [run_tryCatch_state, run_tryCatch_state]
  rcases hrun : r.run l with ⟨f | a, l'⟩
  · obtain ⟨kept₁, h⟩ := hr.eq hrun kept
    rw [h]
    exact hhandle f l' kept₁
  · obtain ⟨kept', h⟩ := hr.eq hrun kept
    rw [h]
    exact ⟨kept', rfl⟩

/-! ## Transactions -/

theorem alike_countChanges (n : Nat) : Alike (countChanges n) (countChanges n) :=
  alike_onConnection fun _ kept => ⟨kept, rfl⟩

theorem alike_beginRead : Alike beginRead beginRead := fun _ kept => ⟨kept, rfl⟩

theorem alike_beginWrite (i : Nat) : Alike (beginWrite i) (beginWrite i) := by
  refine alike_get_bind fun l kept => (alike_need _ _).bind fun _ => (alike_need _ _).bind
    fun _ => ?_
  simp only [Link.keeping_transaction]
  cases l.connection.transaction with
  | none => exact alike_pure _
  | some t =>
    exact alike_ite (alike_pure _) ((alike_need _ _).bind fun _ => alike_set ⟨kept, rfl⟩)

theorem alike_publish (content : Content) : Alike (publish content) (publish content) := by
  refine alike_get_bind fun l kept => ?_
  simp only [Link.keeping_transaction]
  cases l.connection.transaction with
  | none => exact (alike_need _ _).bind fun _ => alike_set ⟨kept, rfl⟩
  | some t => exact alike_set ⟨kept, rfl⟩

theorem alike_begin : Alike begin begin :=
  alike_get_bind fun _ _ => (alike_need _ _).bind fun _ =>
    alike_onConnection fun _ kept => ⟨kept, rfl⟩

theorem alike_leave : Alike leave leave := fun _ kept => ⟨kept, rfl⟩

theorem alike_commit : Alike commit commit := by
  refine alike_get_bind fun l kept => ?_
  simp only [Link.keeping_transaction]
  rcases l.connection.transaction with _ | ⟨_ | s, _, _ | _⟩
  · exact alike_throw _
  · exact alike_leave
  · exact alike_leave
  · exact alike_leave
  · exact (alike_need _ _).bind fun _ => alike_leave.bind fun _ => fun _ kept => ⟨kept, rfl⟩

theorem alike_rollback : Alike rollback rollback :=
  alike_get_bind fun _ _ => (alike_need _ _).bind fun _ => alike_leave

/-! ## Statements -/

theorem alike_noteId (id : Option Int64) : Alike (noteId id) (noteId id) :=
  alike_onConnection fun _ kept => ⟨kept, rfl⟩

theorem alike_finish (changed : Changed) : Alike (finish changed) (finish changed) :=
  (alike_ite (alike_publish changed.content) (alike_pure _)).bind fun _ =>
    (alike_countChanges changed.count).bind fun _ => alike_pure _

theorem alike_change (i : Nat) (p : Plan) (args : List Cell) :
    Alike (change i p args) (change i p args) := by
  rw [change_eq]
  refine (alike_countChanges 0).bind fun _ => (alike_beginWrite i).bind fun _ =>
    alike_get_bind fun l kept => ?_
  have hcontent : (l.keeping kept).content = l.content := rfl
  rw [hcontent]
  refine (alike_noteId _).bind fun _ => (alike_liftM _).bind fun (changed, rows) => ?_
  exact ((alike_finish changed).tryCatch fun f => alike_pure _).bind fun more => alike_pure _

theorem alike_plan (i : Nat) (p : Plan) (args : List Cell) :
    Alike (plan i p args) (plan i p args) := by
  cases p with
  | select q =>
    rw [plan_select]
    exact (alike_ite alike_beginRead (alike_pure _)).bind fun _ =>
      alike_get_bind fun _ _ => alike_pure _
  | setting s => exact alike_pure _
  | define content =>
    exact (alike_beginWrite i).bind fun _ => (alike_publish content).bind fun _ => alike_pure _
  | keep => exact alike_beginRead.bind fun _ => alike_pure _
  | nothing => exact alike_throw _
  | begin => exact alike_begin.bind fun _ => alike_pure _
  | commit => exact alike_commit.bind fun _ => alike_pure _
  | rollback => exact alike_rollback.bind fun _ => alike_pure _
  | insert table columns rows returning =>
    exact alike_change i (.insert table columns rows returning) args
  | update table changes condition returning =>
    exact alike_change i (.update table changes condition returning) args
  | delete table condition returning =>
    exact alike_change i (.delete table condition returning) args

/-! ## Prepared statements -/

theorem alike_planOf (text : String) : Alike (planOf text) (planOf text) :=
  (alike_liftM _).bind fun _ => alike_get_bind fun _ _ => alike_liftM _

/-- A prepared statement runs by its text, and by whether it asks for the right to write. -/
theorem alike_ready (i : Nat) {p' p : Prepared} (htext : p'.text = p.text)
    (heffect : p'.effect = p.effect) : Alike (ready i p') (ready i p) := by
  rw [ready_eq, ready_eq, htext, heffect]
  exact (alike_ite (alike_countChanges 0) (alike_pure _)).bind fun _ =>
    (alike_ite (alike_beginWrite i) (alike_pure _)).bind fun _ => alike_planOf _

end Run

/-- The rows of a prepared statement depend neither on what is kept nor on the names it goes by. -/
theorem Link.given_keeping {p' p : Prepared} (htext : p'.text = p.text)
    (heffect : p'.effect = p.effect) (i : Nat) (args : List Cell) (l : Link)
    (kept : List Prepared) : given i p' args (l.keeping kept) = given i p args l := by
  have hstep : (step i p' args (l.keeping kept)).1 = (step i p args l).1 := by
    unfold step
    rcases hready : (Run.ready i p).run l with ⟨f | plan, l₁⟩
    · obtain ⟨kept₁, h⟩ := (Run.alike_ready i htext heffect).eq hready kept
      rw [h]
    · obtain ⟨kept₁, h⟩ := (Run.alike_ready i htext heffect).eq hready kept
      rw [h]
      dsimp only
      rcases hplan : (Run.plan i plan (args.map Cell.taken)).run l₁ with ⟨r, l₂⟩
      obtain ⟨kept₂, h⟩ := (Run.alike_plan i plan _).eq hplan kept₁
      rw [h]
  unfold given
  rw [hstep]

end TableRecords.Embedded
