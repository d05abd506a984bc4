import Mathlib
import TableRecords.Sql.Fragment

/-!
# Reading generated SQL: names, placeholders and the text between them

`lex` reads a text with no other knowledge than how a dialect quotes identifiers and writes
placeholders.  It gives back the fragments that a generated statement was made of:

    Spaced d fs → lex d (render d fs).toList = some (lexed d fs)              (lex_render)

No column name can break out of its quotes or be taken for a placeholder, whatever it holds.
-/

namespace TableRecords

namespace Dialect

/-! ## Quoted identifiers -/

theorem doubleQuotes_cons (d : Dialect) (c : Char) (cs : List Char) :
    d.doubleQuotes (c :: cs) = (if c = d.closeQuote then [c, c] else [c]) ++ d.doubleQuotes cs := by
  unfold doubleQuotes
  rw [List.flatMap_cons]

theorem readQuoted_cons {d : Dialect} {c : Char} (hc : c ≠ d.closeQuote) (cs : List Char) :
    d.readQuoted (c :: cs) = (d.readQuoted cs).map fun (ident, rest) => (c :: ident, rest) := by
  cases cs with
  | nil => simp [readQuoted, hc]
  | cons e cs => simp [readQuoted, hc]

/-- What is doubled is taken back whole, and reading goes on behind it. -/
theorem readQuoted_doubleQuotes_append (d : Dialect) (ident cs : List Char) :
    d.readQuoted (d.doubleQuotes ident ++ cs) =
      (d.readQuoted cs).map fun (more, rest) => (ident ++ more, rest) := by
  induction ident with
  | nil => simp [doubleQuotes]
  | cons c ident ih =>
    rw [doubleQuotes_cons]
    by_cases hc : c = d.closeQuote
    · simp [hc, readQuoted, ih, Function.comp_def]
    · rw [if_neg hc, List.append_assoc, List.singleton_append, readQuoted_cons hc, ih]
      simp [Function.comp_def]

/-- A closing quote ends an identifier, unless one more quote follows. -/
theorem readQuoted_closeQuote {d : Dialect} {rest : List Char}
    (hrest : rest.head? ≠ some d.closeQuote) :
    d.readQuoted (d.closeQuote :: rest) = some ([], rest) := by
  cases rest with
  | nil => simp [readQuoted]
  | cons e rest =>
    have he : e ≠ d.closeQuote := by simpa using hrest
    simp [readQuoted, he]

/-- A quoted identifier is read up to its closing quote, unless one more quote follows. -/
theorem readQuoted_doubleQuotes (d : Dialect) (ident rest : List Char)
    (hrest : rest.head? ≠ some d.closeQuote) :
    d.readQuoted (d.doubleQuotes ident ++ d.closeQuote :: rest) = some (ident, rest) := by
  rw [readQuoted_doubleQuotes_append, readQuoted_closeQuote hrest]
  simp

theorem length_readQuoted {d : Dialect} {cs ident rest : List Char}
    (h : d.readQuoted cs = some (ident, rest)) : rest.length < cs.length := by
  induction cs using readQuoted.induct d generalizing ident with
  | case1 => simp [readQuoted] at h
  | case2 =>
    obtain ⟨-, rfl⟩ : [] = ident ∧ [] = rest := by simpa [readQuoted] using h
    exact Nat.zero_lt_one
  | case3 c hc => simp [readQuoted, hc] at h
  | case4 tail ih =>
    simp only [readQuoted, if_true, Option.map_eq_some_iff, Prod.mk.injEq] at h
    obtain ⟨⟨ident', rest'⟩, h, -, rfl⟩ := h
    have hlt : rest'.length < tail.length := ih h
    simp only [List.length_cons]
    omega
  | case5 e tail he =>
    obtain ⟨-, rfl⟩ : [] = ident ∧ e :: tail = rest := by simpa [readQuoted, he] using h
    simp
  | case6 c e tail hc ih =>
    simp only [readQuoted, if_neg hc, Option.map_eq_some_iff, Prod.mk.injEq] at h
    obtain ⟨⟨ident', rest'⟩, h, -, rfl⟩ := h
    have hlt : rest'.length < (e :: tail).length := ih h
    simp only [List.length_cons] at hlt ⊢
    omega

/-! ## Placeholders -/

/-- The number that a placeholder shows; MySQL and SQLite do not number them. -/
def number? (d : Dialect) (n : Nat) : Option Nat :=
  match d with
  | postgres | sqlServer => some n
  | mysql | sqlite => none

/-- Reads a number at the front of a text. -/
def readNumber (cs : List Char) : Option (Option Nat × List Char) :=
  let digits := cs.takeWhile Char.isDigit
  if digits = [] then none
  else some (some (Nat.ofDigitChars 10 digits 0), cs.dropWhile Char.isDigit)

/-- Reads a placeholder at the front of a text whose first character is `c`. -/
def readPlaceholder (d : Dialect) (c : Char) (rest : List Char) :
    Option (Option Nat × List Char) :=
  match d with
  | postgres => if c = '$' then readNumber rest else none
  | sqlServer => if c = '@' ∧ rest.head? = some 'p' then readNumber rest.tail else none
  | mysql | sqlite => if c = '?' then some (none, rest) else none

theorem readNumber_toDigits (n : Nat) (rest : List Char)
    (hrest : ∀ c, rest.head? = some c → c.isDigit = false) :
    readNumber (Nat.toDigits 10 n ++ rest) = some (some n, rest) := by
  have hall : ∀ c ∈ Nat.toDigits 10 n, c.isDigit = true := fun c hc =>
    Nat.isDigit_of_mem_toDigits (by decide) (by decide) hc
  have hstop : rest.takeWhile Char.isDigit = [] ∧ rest.dropWhile Char.isDigit = rest := by
    cases rest with
    | nil => exact ⟨rfl, rfl⟩
    | cons c rest =>
      have hc := hrest c rfl
      exact ⟨by simp [hc], by simp [hc]⟩
  have htake : (Nat.toDigits 10 n ++ rest).takeWhile Char.isDigit = Nat.toDigits 10 n := by
    rw [List.takeWhile_append_of_pos hall, hstop.1, List.append_nil]
  have hdrop : (Nat.toDigits 10 n ++ rest).dropWhile Char.isDigit = rest := by
    rw [List.dropWhile_append_of_pos hall, hstop.2]
  simp only [readNumber, htake, hdrop, if_neg Nat.toDigits_ne_nil]
  rw [Nat.ofDigitChars_toDigits (by decide) (by decide)]

theorem length_readNumber {cs rest : List Char} {n : Option Nat}
    (h : readNumber cs = some (n, rest)) : rest.length ≤ cs.length := by
  simp only [readNumber, Option.ite_none_left_eq_some, Option.some.injEq, Prod.mk.injEq] at h
  rw [← h.2.2]
  exact (List.dropWhile_suffix _).length_le

/-- A placeholder is read as far as its number goes. -/
theorem readPlaceholder_placeholder (d : Dialect) (n : Nat) (rest : List Char)
    (hrest : ∀ c, rest.head? = some c → c.isDigit = false) :
    ∃ c more, d.placeholder n = c :: more ∧ c ≠ d.openQuote ∧
      d.readPlaceholder c (more ++ rest) = some (d.number? n, rest) := by
  cases d with
  | postgres =>
    refine ⟨'$', Nat.toDigits 10 n, rfl, by decide, ?_⟩
    simp only [readPlaceholder, if_true, number?]
    exact readNumber_toDigits n rest hrest
  | sqlServer =>
    refine ⟨'@', 'p' :: Nat.toDigits 10 n, rfl, by decide, ?_⟩
    simp only [readPlaceholder, number?, List.cons_append, List.head?_cons, and_self, if_true,
      List.tail_cons]
    exact readNumber_toDigits n rest hrest
  | mysql => exact ⟨'?', [], rfl, by decide, rfl⟩
  | sqlite => exact ⟨'?', [], rfl, by decide, rfl⟩

theorem length_readPlaceholder {d : Dialect} {c : Char} {cs rest : List Char} {n : Option Nat}
    (h : d.readPlaceholder c cs = some (n, rest)) : rest.length ≤ cs.length := by
  cases d with
  | postgres =>
    simp only [readPlaceholder, Option.ite_none_right_eq_some] at h
    exact length_readNumber h.2
  | sqlServer =>
    simp only [readPlaceholder, Option.ite_none_right_eq_some] at h
    have := length_readNumber h.2
    rw [List.length_tail] at this
    omega
  | mysql =>
    simp only [readPlaceholder, Option.ite_none_right_eq_some, Option.some.injEq,
      Prod.mk.injEq] at h
    exact Nat.le_of_eq (by rw [h.2.2])
  | sqlite =>
    simp only [readPlaceholder, Option.ite_none_right_eq_some, Option.some.injEq,
      Prod.mk.injEq] at h
    exact Nat.le_of_eq (by rw [h.2.2])

end Dialect

namespace Sql

/-! ## Taking a text apart -/

/-- What a dialect lets stand out of a text. -/
inductive Atom where
  | ident (column : String)
  | param (number : Option Nat)
  deriving DecidableEq

/-- An atom behind the text that leads to it. -/
structure Word where
  lead : List Char
  atom : Atom
  deriving DecidableEq

/-- A text, taken apart: its atoms with what leads to them, and what is left at the end. -/
structure Lexed where
  words : List Word
  tail : List Char
  deriving DecidableEq

namespace Lexed

/-- Puts text in front. -/
def addText (s : List Char) : Lexed → Lexed
  | ⟨[], tail⟩ => ⟨[], s ++ tail⟩
  | ⟨w :: ws, tail⟩ => ⟨⟨s ++ w.lead, w.atom⟩ :: ws, tail⟩

/-- Puts an atom in front. -/
def addAtom (a : Atom) (l : Lexed) : Lexed := ⟨⟨[], a⟩ :: l.words, l.tail⟩

@[simp] theorem addText_nil (l : Lexed) : l.addText [] = l := by
  obtain ⟨ws, tail⟩ := l
  cases ws <;> rfl

@[simp] theorem addText_addText (s t : List Char) (l : Lexed) :
    (l.addText t).addText s = l.addText (s ++ t) := by
  obtain ⟨ws, tail⟩ := l
  cases ws with
  | nil => simp [addText]
  | cons w ws => simp [addText]

end Lexed

/-- Takes a text apart by the quotes and placeholders of a dialect alone. -/
def lex (d : Dialect) : List Char → Option Lexed
  | [] => some ⟨[], []⟩
  | c :: cs =>
    if c = d.openQuote then
      match _h : d.readQuoted cs with
      | none => none
      | some (ident, rest) => (lex d rest).map (.addAtom (.ident (String.ofList ident)))
    else
      match _h : d.readPlaceholder c cs with
      | none => (lex d cs).map (.addText [c])
      | some (n, rest) => (lex d rest).map (.addAtom (.param n))
termination_by cs => cs.length
decreasing_by
  · have := Dialect.length_readQuoted _h
    simp only [List.length_cons]
    omega
  · simp
  · have := Dialect.length_readPlaceholder _h
    simp only [List.length_cons]
    omega

/-- A character with which no dialect opens an identifier or a placeholder. -/
def isPlain (c : Char) : Bool := c ∉ ['\x22', '\x60', '[', '$', '@', '?']

theorem openQuote_not_plain (d : Dialect) : isPlain d.openQuote = false := by
  cases d <;> rfl

theorem readPlaceholder_of_isPlain {d : Dialect} {c : Char} (h : isPlain c = true)
    (cs : List Char) : d.readPlaceholder c cs = none := by
  have hc : c ≠ '$' ∧ c ≠ '@' ∧ c ≠ '?' := by
    refine ⟨?_, ?_, ?_⟩ <;>
    · rintro rfl
      exact absurd h (by decide)
  cases d <;> simp [Dialect.readPlaceholder, hc]

theorem lex_plain {d : Dialect} {s : List Char} (h : s.all isPlain = true) (cs : List Char) :
    lex d (s ++ cs) = (lex d cs).map (.addText s) := by
  induction s with
  | nil =>
    rw [List.nil_append]
    cases lex d cs <;> simp
  | cons c s ih =>
    rw [List.all_cons, Bool.and_eq_true] at h
    have hc : c ≠ d.openQuote := by
      rintro rfl
      rw [openQuote_not_plain] at h
      exact absurd h.1 (by decide)
    rw [List.cons_append, lex, if_neg hc]
    split
    · rw [ih h.2, Option.map_map]
      congr 1
      funext l
      simp
    · next hp =>
      rw [readPlaceholder_of_isPlain h.1] at hp
      exact absurd hp (by simp)

theorem lex_quoteIdent {d : Dialect} (ident : List Char) {cs : List Char}
    (h : cs.head? ≠ some d.closeQuote) :
    lex d (d.quoteIdent ident ++ cs) =
      (lex d cs).map (.addAtom (.ident (String.ofList ident))) := by
  have hquoted : d.quoteIdent ident ++ cs =
      d.openQuote :: (d.doubleQuotes ident ++ d.closeQuote :: cs) := by
    simp [Dialect.quoteIdent]
  have hread := d.readQuoted_doubleQuotes ident cs h
  rw [hquoted, lex, if_pos rfl]
  split
  · next hnone =>
    rw [hread] at hnone
    exact absurd hnone (by simp)
  · next hsome =>
    rw [hread] at hsome
    obtain ⟨rfl, rfl⟩ := Prod.mk.inj (Option.some.inj hsome)
    rfl

theorem lex_placeholder {d : Dialect} (n : Nat) {cs : List Char}
    (h : ∀ c, cs.head? = some c → c.isDigit = false) :
    lex d (d.placeholder n ++ cs) = (lex d cs).map (.addAtom (.param (d.number? n))) := by
  obtain ⟨c, more, hplaceholder, hc, hread⟩ := d.readPlaceholder_placeholder n cs h
  rw [hplaceholder, List.cons_append, lex, if_neg hc]
  split
  · next hnone =>
    rw [hread] at hnone
    exact absurd hnone (by simp)
  · next hsome =>
    rw [hread] at hsome
    obtain ⟨rfl, rfl⟩ := Prod.mk.inj (Option.some.inj hsome)
    rfl

/-! ## Generated fragments -/

/-- Puts a fragment in front. -/
def Fragment.addTo (d : Dialect) : Fragment → Lexed → Lexed
  | text s, l => l.addText s.toList
  | ident column, l => l.addAtom (.ident column)
  | param n, l => l.addAtom (.param (d.number? n))

/-- What fragments say, as `lex` gives it. -/
def lexed (d : Dialect) (fs : List Fragment) : Lexed := fs.foldr (Fragment.addTo d) ⟨[], []⟩

/-- What follows cannot be taken for a part of a name or of a number. -/
def Apart : List Fragment → Prop
  | [] => True
  | .text s :: _ => ∃ c, s.toList.head? = some c ∧ c ∈ [' ', ',', ')']
  | _ => False

/-- Names and placeholders are set apart, and the text between them holds none. -/
def Spaced : List Fragment → Prop
  | [] => True
  | .text s :: fs => s.toList.all isPlain = true ∧ Spaced fs
  | .ident _ :: fs | .param _ :: fs => Apart fs ∧ Spaced fs

theorem Apart.head_mem {d : Dialect} {fs : List Fragment} (h : Apart fs) {c : Char}
    (hc : (fs.flatMap (Fragment.chars d)).head? = some c) : c ∈ [' ', ',', ')'] := by
  cases fs with
  | nil => exact absurd hc (by simp)
  | cons f fs =>
    cases f with
    | text s =>
      obtain ⟨a, ha, hmem⟩ := h
      obtain ⟨more, hs⟩ := List.head?_eq_some_iff.1 ha
      rw [List.flatMap_cons, Fragment.chars, hs] at hc
      obtain rfl : a = c := by simpa using hc
      exact hmem
    | ident column => exact absurd h id
    | param n => exact absurd h id

/-- **A generated text is read back fragment by fragment.** -/
theorem lex_render {d : Dialect} {fs : List Fragment} (h : Spaced fs) :
    lex d (render d fs).toList = some (lexed d fs) := by
  unfold render
  rw [String.toList_ofList]
  induction fs with
  | nil => simp [lex, lexed]
  | cons f fs ih =>
    rw [List.flatMap_cons]
    cases f with
    | text s =>
      rw [Fragment.chars, lex_plain h.1, ih h.2]
      rfl
    | ident column =>
      have hhead : (fs.flatMap (Fragment.chars d)).head? ≠ some d.closeQuote := by
        intro hc
        have := h.1.head_mem hc
        cases d <;> exact absurd this (by decide)
      rw [Fragment.chars, lex_quoteIdent _ hhead, ih h.2, String.ofList_toList]
      rfl
    | param n =>
      have hhead : ∀ c, (fs.flatMap (Fragment.chars d)).head? = some c → c.isDigit = false := by
        intro c hc
        have := h.1.head_mem hc
        simp only [List.mem_cons, List.not_mem_nil, or_false] at this
        rcases this with rfl | rfl | rfl <;> rfl
      rw [Fragment.chars, lex_placeholder _ hhead, ih h.2]
      rfl

end Sql
end TableRecords
