import TableRecords.Proofs.Except
import TableRecords.Embedded.Connection

/-!
# What a statement does

`evaluate` tells what a text does to the content of a database, from the content and the arguments
alone: the rows that it gives and the content after it, or why it fails.  It knows nothing of
connections, of transactions or of statements that were prepared before.
-/

namespace TableRecords.Embedded

/-! ## Transaction statements -/

/-- Whether a command begins, commits or undoes a transaction. -/
def Command.isControl : Command → Bool
  | begin | commit | rollback => true
  | _ => false

/-- Whether a plan begins, commits or undoes a transaction. -/
def Plan.isControl : Plan → Bool
  | begin | commit | rollback => true
  | _ => false

/-- A text that begins, commits or undoes a transaction. -/
def IsControl (text : String) : Prop :=
  ∃ command, Command.parse text = .ok command ∧ command.isControl = true

instance (text : String) : Decidable (IsControl text) :=
  match hparse : Command.parse text with
  | .ok command =>
    decidable_of_iff (command.isControl = true)
      ⟨fun hcontrol => ⟨command, hparse, hcontrol⟩, fun ⟨_, hother, hcontrol⟩ =>
        Except.ok.inj (hparse.symm.trans hother) ▸ hcontrol⟩
  | .error f => .isFalse fun ⟨_, hother, _⟩ => absurd (hparse.symm.trans hother) (by simp)

/-! ## Evaluation -/

/-- The rows that a plan gives, and the content after it. -/
def Plan.evaluate (args : List Cell) (c : Content) : Plan → Except Fault (Rows × Content)
  | select q => .ok (q.rows c args, c)
  | setting s => .ok ([.ok [s.cell]], c)
  | define content => .ok ([], content)
  | nothing => .error .noStatement
  | keep | begin | commit | rollback => .ok ([], c)
  | p => do
    let (changed, rows) ← ((p.change c args).run.run none).1
    return (rows.map .ok, if changed.count ≠ 0 then changed.content else c)

/-- The plan of a text. -/
def planned (settings : List Setting) (c : Content) (text : String) : Except Fault Plan := do
  let command ← Command.parse text
  Plan.ofCommand ⟨c, settings⟩ command

/-- **What a statement does.**  The settings are those of its connection. -/
def evaluate (settings : List Setting) (text : String) (args : List Cell) (c : Content) :
    Except Fault (Rows × Content) := do
  (← planned settings c text).evaluate (args.map Cell.taken) c

section

variable {settings : List Setting} {c c' : Content} {text : String} {args : List Cell}

end

/-! ## Plans of transaction statements -/

namespace Plan

end Plan

end TableRecords.Embedded
