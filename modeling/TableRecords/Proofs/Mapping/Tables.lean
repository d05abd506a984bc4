import Mathlib.Data.List.Induction
import Mathlib.Data.List.Nodup
import TableRecords.Mapping.Basic

/-!
# Tables of columns

Columns that are added one after the other are each found at the first place that their name has
among them: by the name as it is in the one table, by the name in small letters in the other
(`ColumnTables.Holds`).  A column that is there already is refused, so all of them can be added just
when none is there twice.

    ofColumns cs = some t → cs.Nodup ∧ t.Holds cs                      (holds_of_ofColumns)
    (∃ t, ofColumns cs = some t) ↔ cs.Nodup                            (exists_ofColumns_iff)
-/

namespace TableRecords.ColumnTables

/-- Adds columns one after the other.  The first of them has place number `n`. -/
def addAll (t : ColumnTables) (n : Nat) (cs : List String) : Option ColumnTables :=
  (cs.zipIdx n).foldlM add t

/-- The tables of some columns, each with its place among them. -/
def ofColumns (cs : List String) : Option ColumnTables := empty.addAll 0 cs

/-- Each table holds the first place of every key. -/
structure Holds (t : ColumnTables) (cs : List String) : Prop where
  exact : ∀ name, t.exact.lookup name = cs.findIdx? (· == name)
  folded : ∀ key, t.folded.lookup key = cs.findIdx? (Text.asciiLower · == key)

variable {t t' : ColumnTables} {cs : List String}

theorem addAll_append (t : ColumnTables) (n : Nat) (cs ds : List String) :
    t.addAll n (cs ++ ds) = (t.addAll n cs).bind fun t' => t'.addAll (n + cs.length) ds := by
  unfold addAll
  rw [List.zipIdx_append, List.foldlM_append]
  rfl

theorem addAll_singleton (t : ColumnTables) (n : Nat) (c : String) :
    t.addAll n [c] = t.add (c, n) :=
  bind_pure _

theorem holds_empty : empty.Holds [] := ⟨fun _ => rfl, fun _ => rfl⟩

theorem Holds.isSome_iff (h : t.Holds cs) (c : String) : (t.exact.lookup c).isSome ↔ c ∈ cs := by
  rw [h.exact, List.findIdx?_isSome]
  simp

theorem lookup_append_singleton (entries : List (String × Nat)) (key name : String) (n : Nat) :
    (entries ++ [(key, n)]).lookup name =
      (entries.lookup name).or (if key == name then some n else none) := by
  rw [List.lookup_append, List.lookup_cons, List.lookup_nil, BEq.comm]
  cases key == name <;> rfl

/-- A column that is new is found behind the others.  If it differs from an earlier one in letter
case only, that one keeps its place. -/
theorem Holds.add (h : t.Holds cs) {c : String} (hadd : t.add (c, cs.length) = some t') :
    c ∉ cs ∧ t'.Holds (cs ++ [c]) := by
  unfold ColumnTables.add at hadd
  split at hadd
  · exact absurd hadd (by simp)
  · next hnew =>
    obtain rfl := Option.some.inj hadd
    refine ⟨mt (h.isSome_iff c).2 hnew, fun name => ?_, fun key => ?_⟩
    · rw [lookup_append_singleton, h.exact, List.findIdx?_append, List.findIdx?_singleton]
      cases c == name <;> simp
    · have hfirst := h.folded key
      rw [List.findIdx?_append, List.findIdx?_singleton, ← hfirst]
      dsimp only
      split
      · next hold =>
        by_cases hkey : Text.asciiLower c = key
        · obtain ⟨n, hn⟩ := Option.isSome_iff_exists.1 hold
          rw [← hkey, hn, Option.some_or]
        · simp [hkey]
      · rw [lookup_append_singleton]
        cases Text.asciiLower c == key <;> simp

theorem ofColumns_append (cs : List String) (c : String) :
    ofColumns (cs ++ [c]) = (ofColumns cs).bind fun t => t.add (c, cs.length) := by
  unfold ofColumns
  rw [addAll_append, Nat.zero_add]
  simp only [addAll_singleton]

/-- What is filled in one pass holds every column, none of them twice. -/
theorem holds_of_ofColumns (h : ofColumns cs = some t) : cs.Nodup ∧ t.Holds cs := by
  induction cs using List.reverseRecOn generalizing t with
  | nil =>
    obtain rfl := Option.some.inj h
    exact ⟨List.nodup_nil, holds_empty⟩
  | append_singleton cs c ih =>
    rw [ofColumns_append] at h
    obtain ⟨t', ht', hadd⟩ := Option.bind_eq_some_iff.1 h
    obtain ⟨hcs, hholds⟩ := ih ht'
    obtain ⟨hc, hholds'⟩ := hholds.add hadd
    exact ⟨List.nodup_append_comm.2 (List.nodup_cons.2 ⟨hc, hcs⟩), hholds'⟩

theorem exists_ofColumns_iff : (∃ t, ofColumns cs = some t) ↔ cs.Nodup := by
  constructor
  · rintro ⟨t, h⟩
    exact (holds_of_ofColumns h).1
  · intro h
    induction cs using List.reverseRecOn with
    | nil => exact ⟨_, rfl⟩
    | append_singleton cs c ih =>
      obtain ⟨hc, hcs⟩ := List.nodup_cons.1 (List.nodup_append_comm.1 h)
      obtain ⟨t, ht⟩ := ih hcs
      have hnew := mt ((holds_of_ofColumns ht).2.isSome_iff c).1 hc
      exact ⟨_, by rw [ofColumns_append, ht, Option.bind_some, ColumnTables.add, if_neg hnew]⟩

end TableRecords.ColumnTables
