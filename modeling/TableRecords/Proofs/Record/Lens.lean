import TableRecords.Proofs.Field.Integer
import TableRecords.Record.Type

/-!
# Reading back what was set

A leaf holds what it was last set to (`Leaf.get_set`) and all others keep what they held
(`Leaf.get_set_of_ne`).  A leaf is found again by its path (`leafAt_path`).
-/

namespace TableRecords.Shape

theorem Leaf.get_set {s : Shape} (leaf : Leaf s) (x : leaf.type.Carrier) (d : s.Data) :
    leaf.get (leaf.set x d) = x := by
  induction leaf with
  | here => rfl
  | inside leaf ih => exact ih x d.1
  | behindPlain leaf ih => exact ih x d.2
  | behindEmbed leaf ih => exact ih x d.2

theorem Leaf.get_set_of_ne {s : Shape} {leaf other : Leaf s} (h : other ≠ leaf)
    (x : leaf.type.Carrier) (d : s.Data) : other.get (leaf.set x d) = other.get d := by
  induction leaf with
  | here =>
    cases other with
    | here => exact absurd rfl h
    | behindPlain other => rfl
  | inside leaf ih =>
    cases other with
    | inside other => exact ih (fun heq => h (heq ▸ rfl)) x d.1
    | behindEmbed other => rfl
  | behindPlain leaf ih =>
    cases other with
    | here => rfl
    | behindPlain other => exact ih (fun heq => h (heq ▸ rfl)) x d.2
  | behindEmbed leaf ih =>
    cases other with
    | inside other => rfl
    | behindEmbed other => exact ih (fun heq => h (heq ▸ rfl)) x d.2

/-! ## Paths -/

/-- A path counts the fields from the one its shape begins at. -/
theorem leafFrom_path {s : Shape} (leaf : Leaf s) (first : Nat) :
    ∃ i rest, leaf.pathFrom first = (first + i) :: rest ∧
      ∀ missing, s.leafFrom i rest missing = .ok leaf := by
  induction leaf generalizing first with
  | here => exact ⟨0, [], rfl, fun _ => rfl⟩
  | inside leaf ih =>
    obtain ⟨i, rest, hpath, hleaf⟩ := ih 0
    refine ⟨0, i :: rest, ?_, fun missing => ?_⟩
    · rw [Leaf.pathFrom, hpath, Nat.zero_add]
      rfl
    · rw [leafFrom, hleaf]
      rfl
  | behindPlain leaf ih =>
    obtain ⟨i, rest, hpath, hleaf⟩ := ih (first + 1)
    refine ⟨i + 1, rest, ?_, fun missing => ?_⟩
    · rw [Leaf.pathFrom, hpath]
      congr 1
      omega
    · rw [leafFrom, hleaf]
      rfl
  | behindEmbed leaf ih =>
    obtain ⟨i, rest, hpath, hleaf⟩ := ih (first + 1)
    refine ⟨i + 1, rest, ?_, fun missing => ?_⟩
    · rw [Leaf.pathFrom, hpath]
      congr 1
      omega
    · rw [leafFrom, hleaf]
      rfl

/-- **A leaf is found again by its path.** -/
theorem leafAt_path {s : Shape} (leaf : Leaf s) : s.leafAt leaf.path = .ok leaf := by
  obtain ⟨i, rest, hpath, hleaf⟩ := leafFrom_path leaf 0
  rw [Leaf.path, hpath, Nat.zero_add]
  exact hleaf _

theorem Leaf.path_injective {s : Shape} : Function.Injective (Leaf.path (s := s)) := by
  intro leaf other h
  have hleaf := leafAt_path leaf
  rw [h, leafAt_path other] at hleaf
  exact (Except.ok.inj hleaf).symm

end TableRecords.Shape
