import TableRecords.Proofs.Session.Serving
import TableRecords.Record.Type

/-!
# Scripted answers

Whatever its script, a scripted adapter fails as adapters do (`Script.serves`).  A `draft` is a
record to rehearse with.
-/

namespace TableRecords.Rehearsal

namespace Script

theorem exec_needOpen_of_closed {s : Script} (h : s.closed = true) (sql : String) (argCount : Nat) :
    (needOpen sql argCount).exec s = (.error (.adapter (.closed sql argCount)), s) := by
  rw [needOpen, Action.exec_of, if_pos h]

theorem exec_needOpen_of_open {s : Script} (h : ¬ s.closed = true) (sql : String) (argCount : Nat) :
    (needOpen sql argCount).exec s = (.ok (), s) := by
  rw [needOpen, Action.exec_of, if_neg h]

theorem adapter_of_execute {sql : String} {args : List Value} {s s' : Script} {e : Error}
    (h : (execute sql args).exec s = (.error e, s')) : ∃ f, e = .adapter f := by
  by_cases hclosed : s.closed = true
  · rw [execute, Action.exec_bind_error (exec_needOpen_of_closed hclosed _ _)] at h
    cases h
    exact ⟨_, rfl⟩
  · rw [execute, Action.exec_bind_ok (exec_needOpen_of_open hclosed _ _), Action.exec_of] at h
    dsimp only at h
    split at h
    · exact absurd h (by simp)
    · next answer rest _ =>
      cases answer with
      | ok result => exact absurd h (by simp [Except.mapError])
      | error f =>
        cases h
        exact ⟨_, rfl⟩

theorem adapter_of_nextQuery {sql : String} {args : List Value} {s s' : Script} {e : Error}
    (h : (nextQuery sql args).exec s = (.error e, s')) : ∃ f, e = .adapter f := by
  by_cases hclosed : s.closed = true
  · rw [nextQuery, Action.exec_bind_error (exec_needOpen_of_closed hclosed _ _)] at h
    cases h
    exact ⟨_, rfl⟩
  · rw [nextQuery, Action.exec_bind_ok (exec_needOpen_of_open hclosed _ _), Action.exec_of] at h
    dsimp only at h
    split at h
    · exact absurd h (by simp)
    · cases h
      exact ⟨_, rfl⟩
    · exact absurd h (by simp)

theorem failsAsAdapter_of_nextQuery {sql : String} {args : List Value} {s s' : Script} {c : Cursor}
    (h : (nextQuery sql args).exec s = (.ok c, s')) : c.FailsAsAdapter := by
  by_cases hclosed : s.closed = true
  · rw [nextQuery, Action.exec_bind_error (exec_needOpen_of_closed hclosed _ _)] at h
    exact absurd h (by simp)
  · rw [nextQuery, Action.exec_bind_ok (exec_needOpen_of_open hclosed _ _), Action.exec_of] at h
    dsimp only at h
    split at h
    · cases h
      intro e he
      exact absurd he List.not_mem_nil
    · exact absurd h (by simp)
    · cases h
      intro e he
      obtain ⟨row, -, hrow⟩ := List.mem_map.1 he
      cases row with
      | ok values => exact absurd hrow (by simp [Except.mapError])
      | error f =>
        cases hrow
        exact ⟨_, rfl⟩

/-- A scripted adapter fails as adapters do, whatever its script. -/
theorem serves (dialectName : String) : (adapter dialectName).Serves fun _ => True where
  execute _ _ _ _ _ _ h := adapter_of_execute h
  query {β} _ sql args visit b s e after h := by
    have h : (query sql args visit).exec (b, s) = (.error e, after) := h
    rw [query, Action.exec_bind, Action.exec_onSecond] at h
    rcases hnext : (nextQuery sql args).exec s with ⟨r, s'⟩
    rw [hnext] at h
    cases r with
    | error f =>
      cases h
      exact .inl (adapter_of_nextQuery hnext)
    | ok c => exact .inr ⟨b, c, failsAsAdapter_of_nextQuery hnext, trivial, congrArg Prod.fst h⟩

end Script

/-! ## Drafts -/

/-- Records with a name, which the database is to number. -/
def draftShape : Shape :=
  .plain "id" "id,pk" (.int .int64) (.plain "name" "name" .text .nil)

/-- A record without a number. -/
def draft : draftShape.Data := (⟨0, IntKind.int64.holds_zero⟩, "x", ())

end TableRecords.Rehearsal
