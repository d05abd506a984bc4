import TableRecords.Embedded.Engine
import TableRecords.Proofs.Embedded.Run

/-!
# What statements leave alone

A statement changes of its connection the transaction and the notes on what was changed.
`Run.Leaves v x r` says that what `v` shows of the connection stays `x` in all that `r` does.

    Link.leaves_step : what does not depend on those stays the same when a statement runs
-/

namespace TableRecords.Embedded

/-- What is shown of a connection depends neither on its transaction nor on its notes on changes. -/
structure Connection.Lasting {γ : Type} (v : Connection → γ) : Prop where
  transaction : ∀ c t, v { c with transaction := t } = v c
  changes : ∀ c n, v { c with changes := n } = v c
  lastId : ∀ c id, v { c with lastId := id } = v c

namespace Run

variable {α β γ : Type} {v : Connection → γ} {x : γ}

/-- What is shown of the connection stays the same, also if the run fails. -/
def Leaves (v : Connection → γ) (x : γ) (r : Run α) : Prop :=
  ∀ l, v l.connection = x → v (r.run l).2.connection = x

theorem Leaves.eq {r : Run α} (h : Leaves v x r) {l l' : Link} {a : Except Fault α}
    (hl : v l.connection = x) (hrun : r.run l = (a, l')) : v l'.connection = x := by
  have h := h l hl
  rwa [hrun] at h

theorem leaves_pure (a : α) : Leaves v x (pure a) := fun _ => id

theorem leaves_throw (f : Fault) : Leaves v x (throw f : Run α) := fun _ => id

theorem leaves_liftM (a : Except Fault α) : Leaves v x (liftM a : Run α) := by
  intro l hl
  cases a <;> exact hl

theorem leaves_modify {f : Link → Link} (h : ∀ l, v (f l).connection = v l.connection) :
    Leaves v x (modify f) :=
  fun l hl => (h l).trans hl

theorem leaves_onConnection {f : Connection → Connection} (h : ∀ c, v (f c) = v c) :
    Leaves v x (modify (Link.onConnection f)) :=
  leaves_modify fun l => h l.connection

theorem leaves_set {l : Link} (h : v l.connection = x) : Leaves v x (set l) := fun _ _ => h

theorem leaves_need (p : Bool) (f : Fault) : Leaves v x (need p f) := by
  intro l hl
  cases p <;> exact hl

theorem leaves_get_bind {f : Link → Run β} (h : ∀ l, v l.connection = x → Leaves v x (f l)) :
    Leaves v x (get >>= f) :=
  fun l hl => h l hl l hl

theorem Leaves.bind {r : Run α} {f : α → Run β} (hr : Leaves v x r) (hf : ∀ a, Leaves v x (f a)) :
    Leaves v x (r >>= f) := by
  intro l hl
  rw [run_bind_state]
  rcases hrun : r.run l with ⟨e | a, l'⟩
  · exact hr.eq hl hrun
  · exact hf a l' (hr.eq hl hrun)

theorem leaves_ite {p : Prop} [Decidable p] {r r' : Run α} (h : Leaves v x r)
    (h' : Leaves v x r') : Leaves v x (if p then r else r') := by
  split
  · exact h
  · exact h'

theorem Leaves.tryCatch {r : Run α} {handle : Fault → Run α} (hr : Leaves v x r)
    (hhandle : ∀ f, Leaves v x (handle f)) : Leaves v x (tryCatch r handle) := by
  intro l hl
  rw [run_tryCatch_state]
  rcases hrun : r.run l with ⟨f | a, l'⟩
  · exact hhandle f l' (hr.eq hl hrun)
  · exact hr.eq hl hrun

/-! ## Transactions -/

section

variable (hv : Connection.Lasting v)

include hv

theorem leaves_countChanges (n : Nat) : Leaves v x (countChanges n) :=
  leaves_onConnection fun c => hv.changes c n

theorem leaves_beginRead : Leaves v x beginRead :=
  leaves_modify fun l => hv.transaction l.connection _

theorem leaves_beginWrite (i : Nat) : Leaves v x (beginWrite i) := by
  refine leaves_get_bind fun l hl => (leaves_need _ _).bind fun _ => (leaves_need _ _).bind
    fun _ => ?_
  split
  · exact leaves_pure _
  · refine leaves_ite (leaves_pure _) ((leaves_need _ _).bind fun _ => leaves_set ?_)
    exact (hv.transaction l.connection _).trans hl

theorem leaves_publish (content : Content) : Leaves v x (publish content) := by
  refine leaves_get_bind fun l hl => ?_
  dsimp only
  split
  · exact leaves_set ((hv.transaction l.connection _).trans hl)
  · exact (leaves_need _ _).bind fun _ => leaves_set hl

theorem leaves_begin : Leaves v x begin :=
  leaves_get_bind fun _ _ => (leaves_need _ _).bind fun _ =>
    leaves_onConnection fun c => hv.transaction c _

theorem leaves_leave : Leaves v x leave := leaves_modify fun l => hv.transaction l.connection _

theorem leaves_commit : Leaves v x commit := by
  refine leaves_get_bind fun l hl => ?_
  split
  · exact leaves_throw _
  · exact (leaves_need _ _).bind fun _ => (leaves_leave hv).bind fun _ =>
      leaves_modify fun _ => rfl
  · exact leaves_leave hv

theorem leaves_rollback : Leaves v x rollback :=
  leaves_get_bind fun _ _ => (leaves_need _ _).bind fun _ => leaves_leave hv

theorem leaves_undo : Leaves v x undo :=
  leaves_get_bind fun _ _ => leaves_ite (leaves_rollback hv) (leaves_pure _)

/-! ## Statements -/

theorem leaves_finish (changed : Changed) : Leaves v x (finish changed) :=
  (leaves_ite (leaves_publish hv changed.content) (leaves_pure _)).bind fun _ =>
    (leaves_countChanges hv changed.count).bind fun _ => leaves_pure _

theorem leaves_change (i : Nat) (p : Plan) (args : List Cell) : Leaves v x (change i p args) := by
  rw [change_eq]
  refine (leaves_countChanges hv 0).bind fun _ => (leaves_beginWrite hv i).bind fun _ =>
    leaves_get_bind fun l hl => ?_
  refine (leaves_onConnection fun c => hv.lastId c _).bind fun _ =>
    (leaves_liftM _).bind fun (changed, rows) => ?_
  exact ((leaves_finish hv changed).tryCatch fun f => leaves_pure _).bind fun more => leaves_pure _

theorem leaves_plan (i : Nat) (p : Plan) (args : List Cell) : Leaves v x (plan i p args) := by
  cases p with
  | select q =>
    rw [plan_select]
    exact (leaves_ite (leaves_beginRead hv) (leaves_pure _)).bind fun _ =>
      leaves_get_bind fun _ _ => leaves_pure _
  | setting s => exact leaves_pure _
  | define content =>
    exact (leaves_beginWrite hv i).bind fun _ => (leaves_publish hv content).bind fun _ =>
      leaves_pure _
  | keep => exact (leaves_beginRead hv).bind fun _ => leaves_pure _
  | nothing => exact leaves_throw _
  | begin => exact (leaves_begin hv).bind fun _ => leaves_pure _
  | commit => exact (leaves_commit hv).bind fun _ => leaves_pure _
  | rollback => exact (leaves_rollback hv).bind fun _ => leaves_pure _
  | insert table columns rows returning =>
    exact leaves_change hv i (.insert table columns rows returning) args
  | update table changes condition returning =>
    exact leaves_change hv i (.update table changes condition returning) args
  | delete table condition returning =>
    exact leaves_change hv i (.delete table condition returning) args

end

theorem leaves_planOf (text : String) : Leaves v x (planOf text) :=
  (leaves_liftM _).bind fun _ => leaves_get_bind fun _ _ => leaves_liftM _

/-! ## Prepared statements -/

theorem leaves_ready (hv : Connection.Lasting v) (i : Nat) (p : Prepared) :
    Leaves v x (ready i p) := by
  rw [ready_eq]
  exact (leaves_ite (leaves_countChanges hv 0) (leaves_pure _)).bind fun _ =>
    (leaves_ite (leaves_beginWrite hv i) (leaves_pure _)).bind fun _ => leaves_planOf _

end Run

/-- A prepared statement that runs leaves alone what every statement does. -/
theorem Link.leaves_step (hv : Connection.Lasting v) (i : Nat) (p : Prepared) (args : List Cell)
    (l : Link) : v (l.step i p args).2.2.connection = v l.connection := by
  unfold Link.step
  rcases hready : (Run.ready i p).run l with ⟨f | plan, l₁⟩
  · exact (Run.leaves_ready hv i p).eq rfl hready
  · dsimp only
    have hl₁ : v l₁.connection = v l.connection := (Run.leaves_ready hv i p).eq rfl hready
    rcases hplan : (Run.plan i plan (args.map Cell.taken)).run l₁ with ⟨r, l₂⟩
    exact ((Run.leaves_plan hv i plan _).eq rfl hplan).trans hl₁

end TableRecords.Embedded
