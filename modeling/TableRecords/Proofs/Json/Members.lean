import Mathlib
import TableRecords.Json.Schema

/-!
# The members of an object

`insertMember` keeps members sorted by key.  What is set last for a key is what the object has for
it:

    (k', j') ∈ insertMember k j members ↔ k' = k ∧ j' = j ∨ k' ≠ k ∧ (k', j') ∈ members
-/

namespace TableRecords.Json

/-- The keys of members stand in strictly increasing order, so that no key is there twice. -/
def Sorted (members : List (String × Json)) : Prop := members.Pairwise fun m m' => m.1 < m'.1

theorem sortedKeys_iff {members : List (String × Json)} :
    sortedKeys members = true ↔ Sorted members := by
  have hchain : sortedKeys members = true ↔ members.IsChain fun m m' => m.1 < m'.1 := by
    induction members with
    | nil => simp [sortedKeys]
    | cons m members ih =>
      cases members with
      | nil => simp [sortedKeys]
      | cons m' members => simp [sortedKeys, ih]
  rw [hchain, Sorted]
  exact List.isChain_iff_pairwise

/-- What is set is a member, and so is what was one under another key. -/
theorem mem_insertMember {key : String} {j : Json} {members : List (String × Json)}
    (h : Sorted members) (m : String × Json) :
    m ∈ insertMember key j members ↔ m = (key, j) ∨ m.1 ≠ key ∧ m ∈ members := by
  induction members with
  | nil => simp [insertMember]
  | cons first members ih =>
    obtain ⟨k, v⟩ := first
    obtain ⟨hless, hrest⟩ := List.pairwise_cons.1 h
    rw [insertMember]
    by_cases hlt : key < k
    · have hne : ∀ m ∈ (k, v) :: members, m.1 ≠ key := by
        rintro m (_ | ⟨_, hm⟩)
        · exact hlt.ne'
        · exact (hlt.trans (hless m hm)).ne'
      rw [if_pos hlt, List.mem_cons]
      exact or_congr_right ⟨fun hm => ⟨hne m hm, hm⟩, fun hm => hm.2⟩
    · rw [if_neg hlt]
      by_cases heq : key = k
      · subst heq
        rw [if_pos rfl, List.mem_cons, List.mem_cons]
        refine or_congr_right ⟨fun hm => ⟨(hless m hm).ne', .inr hm⟩, ?_⟩
        rintro ⟨hne, rfl | hm⟩
        · exact absurd rfl hne
        · exact hm
      · rw [if_neg heq, List.mem_cons, ih hrest, List.mem_cons]
        constructor
        · rintro (rfl | hset | ⟨hne, hm⟩)
          · exact .inr ⟨Ne.symm heq, .inl rfl⟩
          · exact .inl hset
          · exact .inr ⟨hne, .inr hm⟩
        · rintro (hset | ⟨hne, hfirst | hm⟩)
          · exact .inr (.inl hset)
          · exact .inl hfirst
          · exact .inr (.inr ⟨hne, hm⟩)

theorem sorted_insertMember {key : String} {j : Json} {members : List (String × Json)}
    (h : Sorted members) : Sorted (insertMember key j members) := by
  induction members with
  | nil => exact List.pairwise_singleton _ _
  | cons first members ih =>
    obtain ⟨k, v⟩ := first
    obtain ⟨hless, hrest⟩ := List.pairwise_cons.1 h
    rw [insertMember]
    by_cases hlt : key < k
    · rw [if_pos hlt]
      refine List.pairwise_cons.2 ⟨?_, h⟩
      rintro m (_ | ⟨_, hm⟩)
      · exact hlt
      · exact hlt.trans (hless m hm)
    · rw [if_neg hlt]
      by_cases heq : key = k
      · subst heq
        rw [if_pos rfl]
        exact List.pairwise_cons.2 ⟨hless, hrest⟩
      · rw [if_neg heq]
        refine List.pairwise_cons.2 ⟨fun m hm => ?_, ih hrest⟩
        rcases (mem_insertMember hrest m).1 hm with rfl | ⟨-, hm⟩
        · exact lt_of_le_of_ne (not_lt.1 hlt) (Ne.symm heq)
        · exact hless m hm

/-- A member behind all others is appended. -/
theorem insertMember_append {key : String} {j : Json} {members : List (String × Json)}
    (h : ∀ m ∈ members, m.1 < key) : insertMember key j members = members ++ [(key, j)] := by
  induction members with
  | nil => rfl
  | cons first members ih =>
    obtain ⟨k, v⟩ := first
    have hlt : k < key := h (k, v) List.mem_cons_self
    rw [insertMember, if_neg hlt.asymm, if_neg hlt.ne',
      ih fun m hm => h m (List.mem_cons_of_mem _ hm), List.cons_append]

/-- Sorted members are the members of their object as they stand. -/
theorem ofMembers_eq_self {members : List (String × Json)} (h : Sorted members) :
    ofMembers members = members := by
  have hfold : ∀ before after : List (String × Json), Sorted (before ++ after) →
      after.foldl (fun acc m => insertMember m.1 m.2 acc) before = before ++ after := by
    intro before after hsorted
    induction after generalizing before with
    | nil => rw [List.append_nil, List.foldl_nil]
    | cons m after ih =>
      have hless : ∀ m' ∈ before, m'.1 < m.1 := fun m' hm' =>
        (List.pairwise_append.1 hsorted).2.2 m' hm' m List.mem_cons_self
      rw [List.foldl_cons, insertMember_append hless, ih, List.append_assoc,
        List.singleton_append]
      rwa [List.append_assoc, List.singleton_append]
  exact hfold [] members h

end TableRecords.Json
