import Mathlib
import TableRecords.Text.Blank
import TableRecords.Text.Split

/-!
# The parts of a text

What it means that a text consists of parts with commas between them and blanks around them, said
without the functions that take it apart:

    trimChars cs = part ↔ Padded cs part                               (trimChars_eq_iff)
    trimmedParts text = (first, more) ↔ HasParts text first more       (trimmedParts_eq_iff)
-/

namespace TableRecords.Text

/-- The text is the part with blanks around it, and the part neither begins nor ends with one. -/
def Padded (cs part : List Char) : Prop :=
  ∃ front back, cs = front ++ part ++ back ∧ (∀ c ∈ front, isBlank c) ∧ (∀ c ∈ back, isBlank c) ∧
    (∀ c ∈ part.head?, isBlank c = false) ∧ ∀ c ∈ part.getLast?, isBlank c = false

/-- The text consists of parts with commas between them and blanks around them. -/
def HasParts (text first : String) (more : List String) : Prop :=
  ∃ pieces, [','].intercalate pieces = text.toList ∧ (∀ piece ∈ pieces, ',' ∉ piece) ∧
    List.Forall₂ (fun piece part => Padded piece part.toList) pieces (first :: more)

/-! ## Blanks around a part -/

theorem exists_blanks_around (cs : List Char) :
    ∃ front back, cs = front ++ trimChars cs ++ back ∧ (∀ c ∈ front, isBlank c) ∧
      (∀ c ∈ back, isBlank c) ∧ trimFront cs = trimChars cs ++ back := by
  have hback :
      trimFront cs = trimChars cs ++ ((trimFront cs).reverse.takeWhile isBlank).reverse := by
    rw [trimChars, trimBack, ← List.reverse_append, List.takeWhile_append_dropWhile,
      List.reverse_reverse]
  refine ⟨cs.takeWhile isBlank, _, ?_, fun c hc => List.mem_takeWhile_imp hc,
    fun c hc => List.mem_takeWhile_imp (List.mem_reverse.1 hc), hback⟩
  rw [List.append_assoc, ← hback]
  exact List.takeWhile_append_dropWhile.symm

theorem padded_trimChars (cs : List Char) : Padded cs (trimChars cs) := by
  obtain ⟨front, back, hcs, hfront, hback, hrest⟩ := exists_blanks_around cs
  refine ⟨front, back, hcs, hfront, hback, fun c hc => ?_, fun c hc => ?_⟩
  · have hhead : c ∈ (trimFront cs).head? := by
      rw [hrest, List.head?_append, Option.mem_def.1 hc]
      rfl
    have hnot := List.head?_dropWhile_not isBlank cs
    rw [show (cs.dropWhile isBlank).head? = some c from hhead] at hnot
    exact hnot
  · have hnot := List.head?_dropWhile_not isBlank (trimFront cs).reverse
    rw [trimChars, trimBack, List.getLast?_reverse] at hc
    rw [show ((trimFront cs).reverse.dropWhile isBlank).head? = some c from hc] at hnot
    exact hnot

theorem trimChars_of_padded {cs part : List Char} (h : Padded cs part) : trimChars cs = part := by
  obtain ⟨front, back, rfl, hfront, hback, hfirst, hlast⟩ := h
  have hrest : trimFront (front ++ part ++ back) = trimFront (part ++ back) := by
    rw [List.append_assoc]
    exact List.dropWhile_append_of_pos hfront
  rw [trimChars, hrest]
  cases part with
  | nil =>
    have hnone : trimFront ([] ++ back) = [] := List.dropWhile_eq_nil_iff.2 hback
    rw [hnone]
    rfl
  | cons c part =>
    have hkept : trimFront (c :: part ++ back) = c :: part ++ back :=
      List.dropWhile_cons_of_neg (by simp [hfirst c rfl])
    have hstop : (c :: part).reverse.dropWhile isBlank = (c :: part).reverse := by
      cases hreverse : (c :: part).reverse with
      | nil => rfl
      | cons d ds =>
        have hd : d ∈ (c :: part).getLast? := by
          rw [← List.head?_reverse, hreverse]
          rfl
        exact List.dropWhile_cons_of_neg (by simp [hlast d hd])
    rw [hkept, trimBack, List.reverse_append,
      List.dropWhile_append_of_pos fun d hd => hback d (List.mem_reverse.1 hd), hstop,
      List.reverse_reverse]

theorem trimChars_eq_iff {cs part : List Char} : trimChars cs = part ↔ Padded cs part :=
  ⟨fun h => h ▸ padded_trimChars cs, trimChars_of_padded⟩

theorem padded_self {part : List Char} (h : ∀ c ∈ part, isBlank c = false) : Padded part part :=
  ⟨[], [], by simp, by simp, by simp, fun c hc => h c (List.mem_of_head? hc),
    fun c hc => h c (List.mem_of_getLast? hc)⟩

theorem Padded.mem {cs part : List Char} (h : Padded cs part) {c : Char} (hc : c ∈ part) :
    c ∈ cs := by
  obtain ⟨front, back, rfl, -⟩ := h
  exact List.mem_append_left _ (List.mem_append_right _ hc)

/-! ## Pieces -/

theorem splitOn_eq (separator : Char) (cs : List Char) :
    (splitOn separator cs).1 :: (splitOn separator cs).2 = cs.splitOn separator := by
  induction cs with
  | nil => rfl
  | cons c cs ih =>
    have hcons : (c :: cs).splitOn separator = if c == separator then [] :: cs.splitOn separator
        else (cs.splitOn separator).modifyHead (List.cons c) :=
      List.splitOnP_cons_eq_if_modifyHead ..
    rw [hcons, ← ih]
    by_cases hc : c = separator <;> simp [splitOn, hc]

theorem not_mem_of_mem_splitOn {separator : Char} {cs piece : List Char}
    (h : piece ∈ (splitOn separator cs).1 :: (splitOn separator cs).2) : separator ∉ piece := by
  induction cs generalizing piece with
  | nil =>
    obtain rfl := List.mem_singleton.1 h
    exact List.not_mem_nil
  | cons c cs ih =>
    by_cases hc : c = separator
    · simp only [splitOn, if_pos hc] at h
      rcases List.mem_cons.1 h with rfl | h
      · exact List.not_mem_nil
      · exact ih h
    · simp only [splitOn, if_neg hc] at h
      rcases List.mem_cons.1 h with rfl | h
      · exact List.not_mem_cons_of_ne_of_not_mem (Ne.symm hc) (ih List.mem_cons_self)
      · exact ih (List.mem_cons_of_mem _ h)

theorem splitOn_eq_iff {separator : Char} {cs first : List Char} {more : List (List Char)} :
    splitOn separator cs = (first, more) ↔
      [separator].intercalate (first :: more) = cs ∧
        ∀ piece ∈ first :: more, separator ∉ piece := by
  have hiff : splitOn separator cs = (first, more) ↔ cs.splitOn separator = first :: more := by
    rw [← splitOn_eq, Prod.ext_iff, List.cons.injEq]
  rw [hiff]
  constructor
  · intro h
    refine ⟨by rw [← h, List.intercalate_splitOn], fun piece hpiece => ?_⟩
    rw [← h, ← splitOn_eq] at hpiece
    exact not_mem_of_mem_splitOn hpiece
  · rintro ⟨rfl, hpieces⟩
    exact List.splitOn_intercalate separator hpieces (List.cons_ne_nil first more)

/-- **The parts of a text** are its pieces between commas without the blanks around them. -/
theorem trimmedParts_eq_iff {text first : String} {more : List String} :
    trimmedParts text = (first, more) ↔ HasParts text first more := by
  constructor
  · intro h
    obtain ⟨rfl, rfl⟩ := Prod.mk.inj h
    obtain ⟨htext, hpieces⟩ := splitOn_eq_iff.1 (Prod.eta (splitOn ',' text.toList))
    refine ⟨_, htext, hpieces, .cons ?_ ?_⟩
    · rw [String.toList_ofList]
      exact padded_trimChars _
    · rw [List.forall₂_map_right_iff, List.forall₂_same]
      intro piece _
      rw [String.toList_ofList]
      exact padded_trimChars piece
  · rintro ⟨pieces, htext, hpieces, hparts⟩
    cases hparts with
    | @cons piece _ pieces _ hfirst hmore =>
      have hsplit := splitOn_eq_iff.2 ⟨htext, hpieces⟩
      have htrim {piece : List Char} {part : String} (h : Padded piece part.toList) :
          String.ofList (trimChars piece) = part := by
        rw [trimChars_of_padded h, String.ofList_toList]
      have hmap : pieces.map (fun piece => String.ofList (trimChars piece)) = more := by
        rw [← List.forall₂_eq_eq_eq, List.forall₂_map_left_iff]
        exact hmore.imp fun _ _ => htrim
      simp only [trimmedParts, hsplit, htrim hfirst, hmap]

theorem HasParts.noComma_first {text first : String} {more : List String}
    (h : HasParts text first more) : ',' ∉ first.toList := by
  obtain ⟨pieces, -, hpieces, hparts⟩ := h
  cases hparts with
  | cons hfirst _ => exact fun hc => hpieces _ List.mem_cons_self (hfirst.mem hc)

end TableRecords.Text
