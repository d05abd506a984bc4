import TableRecords.Proofs.Sql.Token

/-!
# Quoted identifiers are read back

A reader takes the opening quote and then characters, a doubled closing quote for one, up to the
first closing quote that is not doubled.  It reads exactly what quoting writes:

    d.readIdent text = some (ident, rest) ↔
      text = d.quoteIdent ident ++ rest ∧ rest.head? ≠ some d.closeQuote      (readIdent_eq_some_iff)

Whatever follows a quoted identifier, no quote in it is taken for its end (`isPrefix_of_readIdent`).
-/

namespace TableRecords.Dialect

variable {d : Dialect} {cs text ident rest : List Char}

/-- What is read stood there with its quotes doubled, in front of a closing quote. -/
theorem eq_of_readQuoted (h : d.readQuoted cs = some (ident, rest)) :
    cs = d.doubleQuotes ident ++ d.closeQuote :: rest ∧ rest.head? ≠ some d.closeQuote := by
  induction cs using readQuoted.induct d generalizing ident with
  | case1 => simp [readQuoted] at h
  | case2 =>
    obtain ⟨rfl, rfl⟩ : [] = ident ∧ [] = rest := by simpa [readQuoted] using h
    simp [doubleQuotes]
  | case3 c hc => simp [readQuoted, hc] at h
  | case4 tail ih =>
    simp only [readQuoted, if_true, Option.map_eq_some_iff, Prod.mk.injEq] at h
    obtain ⟨⟨inner, behind⟩, h, rfl, rfl⟩ := h
    obtain ⟨rfl, hrest⟩ := ih h
    exact ⟨by simp [doubleQuotes_cons], hrest⟩
  | case5 e tail he =>
    obtain ⟨rfl, rfl⟩ : [] = ident ∧ e :: tail = rest := by simpa [readQuoted, he] using h
    exact ⟨rfl, by simpa using he⟩
  | case6 c e tail hc ih =>
    simp only [readQuoted, if_neg hc, Option.map_eq_some_iff, Prod.mk.injEq] at h
    obtain ⟨⟨inner, behind⟩, h, rfl, rfl⟩ := h
    obtain ⟨htail, hrest⟩ := ih h
    exact ⟨by rw [htail, doubleQuotes_cons, if_neg hc]; simp, hrest⟩

theorem quoteIdent_append (d : Dialect) (ident rest : List Char) :
    d.quoteIdent ident ++ rest = d.openQuote :: (d.doubleQuotes ident ++ d.closeQuote :: rest) := by
  simp [quoteIdent]

/-- **Reading is the inverse of quoting.** -/
theorem readIdent_eq_some_iff :
    d.readIdent text = some (ident, rest) ↔
      text = d.quoteIdent ident ++ rest ∧ rest.head? ≠ some d.closeQuote := by
  constructor
  · intro h
    cases text with
    | nil => exact absurd h (by simp [readIdent])
    | cons c cs =>
      rw [readIdent, Option.ite_none_right_eq_some] at h
      obtain ⟨rfl, h⟩ := h
      obtain ⟨rfl, hrest⟩ := eq_of_readQuoted h
      exact ⟨(quoteIdent_append ..).symm, hrest⟩
  · rintro ⟨rfl, hrest⟩
    rw [quoteIdent_append, readIdent, if_pos rfl, readQuoted_doubleQuotes d ident rest hrest]

theorem quoteIdent_injective (d : Dialect) : Function.Injective d.quoteIdent := by
  intro ident other h
  have hread (c : List Char) : d.readIdent (d.quoteIdent c) = some (c, []) :=
    readIdent_eq_some_iff.2 ⟨(List.append_nil _).symm, by simp⟩
  have hsame := hread ident
  rw [h, hread other] at hsame
  exact (Prod.mk.inj (Option.some.inj hsame)).1.symm

/-- **No identifier ends its quoting early**: it is read whole, whatever follows. -/
theorem isPrefix_of_readIdent {taken behind : List Char}
    (h : d.readIdent (d.quoteIdent ident ++ rest) = some (taken, behind)) :
    ident <+: taken ∧ behind <:+ rest := by
  rw [quoteIdent_append, readIdent, if_pos rfl, readQuoted_doubleQuotes_append] at h
  obtain ⟨⟨more, tail⟩, hread, heq⟩ := Option.map_eq_some_iff.1 h
  obtain ⟨rfl, rfl⟩ := Prod.mk.inj heq
  refine ⟨List.prefix_append _ _, ?_⟩
  obtain ⟨hrest, -⟩ := eq_of_readQuoted hread
  -- the closing quote of the identifier is behind none of what was read
  cases hmore : d.doubleQuotes more with
  | nil =>
    rw [hmore] at hrest
    exact (List.cons.inj hrest).2 ▸ List.suffix_refl _
  | cons a written =>
    rw [hmore] at hrest
    exact (List.cons.inj hrest).2 ▸ (List.suffix_cons ..).trans (List.suffix_append ..)

/-- **A quoted identifier is read exactly.**  It is read up to the text behind it if that does not
begin with a closing quote; nothing else is read as it, so no two identifiers are quoted alike; and
whatever follows, reading never stops inside of it. -/
theorem quoteIdent_read_exactly (d : Dialect) :
    (∀ ident rest, d.readIdent (d.quoteIdent ident ++ rest) = some (ident, rest) ↔
      rest.head? ≠ some d.closeQuote) ∧
    (∀ text ident rest, d.readIdent text = some (ident, rest) ↔
      text = d.quoteIdent ident ++ rest ∧ rest.head? ≠ some d.closeQuote) ∧
    Function.Injective d.quoteIdent ∧
    ∀ ident rest taken behind, d.readIdent (d.quoteIdent ident ++ rest) = some (taken, behind) →
      ident <+: taken ∧ behind <:+ rest := by
  refine ⟨fun ident rest => ?_, fun text ident rest => readIdent_eq_some_iff,
    quoteIdent_injective d, fun ident rest taken behind => isPrefix_of_readIdent⟩
  rw [readIdent_eq_some_iff, and_iff_right rfl]

/-- Behind the identifier `a]`, a closing bracket goes on with it. -/
theorem quoteIdent_read_exactly_bracket :
    sqlServer.readIdent (sqlServer.quoteIdent ['a', ']'] ++ [' ', ']']) =
        some (['a', ']'], [' ', ']']) ∧
      sqlServer.readIdent (sqlServer.quoteIdent ['a', ']'] ++ [']', 'b', ']', ' ']) =
        some (['a', ']', ']', 'b'], [' ']) ∧
      ['a', ']'] <+: ['a', ']', ']', 'b'] := by
  obtain ⟨hread, -, -, hwhole⟩ := quoteIdent_read_exactly .sqlServer
  have hmore : sqlServer.readIdent (sqlServer.quoteIdent ['a', ']'] ++ [']', 'b', ']', ' ']) =
      some (['a', ']', ']', 'b'], [' ']) := by decide
  exact ⟨(hread _ _).2 (by decide), hmore, (hwhole _ _ _ _ hmore).1⟩

end TableRecords.Dialect
