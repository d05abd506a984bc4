import TableRecords.Text.Ascii
import TableRecords.Text.Blank
import Mathlib.Data.List.Infix

/-!
# Words in a text

What it means that a text begins with a word or has it somewhere, letter case aside, said without
the functions that look for it.
-/

namespace TableRecords.Text

/-- Behind blanks the text begins with the letters of a word, in any letter case. More of a name
may follow. -/
def Begins (word : String) (cs : List Char) : Prop :=
  ∃ blanks letters behind, cs = blanks ++ letters ++ behind ∧ (∀ c ∈ blanks, isBlank c) ∧
    letters.map Char.toLower = word.toList

/-- Behind blanks the text is the letters of a word, in any letter case, and then `behind`. -/
def BeginsWith (word : String) (behind cs : List Char) : Prop :=
  ∃ blanks letters, cs = blanks ++ letters ++ behind ∧ (∀ c ∈ blanks, isBlank c) ∧
    letters.map Char.toLower = word.toList

/-- The first word of the text behind its blanks is this word, letter case aside: no more of a name
follows. -/
def FirstWord (isName : Char → Bool) (word : String) (cs : List Char) : Prop :=
  ∃ behind, BeginsWith word behind cs ∧ behind.head?.any isName = false

/-- The letters of a word stand somewhere in the text, in any letter case: also within a longer
name, a string or a comment. -/
def Mentions (word : String) (cs : List Char) : Prop :=
  word.toList <:+: cs.map Char.toLower

/-- No character is both in a class and outside of it. -/
theorem ne_of_class {p : Char → Bool} {c a : Char} (hc : p c = true) (ha : p a = false) :
    c ≠ a := by
  rintro rfl
  exact absurd (hc.symm.trans ha) (by decide)

/-! ## Blanks -/

/-- No blank is a letter of ASCII, in either case. -/
theorem isAlpha_toLower_of_isBlank {c : Char} (h : isBlank c = true) :
    c.toLower.isAlpha = false := by
  have hoff : ¬ (65 ≤ c.val.toNat ∧ c.val.toNat ≤ 90) ∧
      ¬ (97 ≤ c.val.toNat ∧ c.val.toNat ≤ 122) := by
    simp only [isBlank, Char.toNat, Bool.or_eq_true, Bool.and_eq_true, decide_eq_true_eq,
      beq_iff_eq] at h
    omega
  have hupper : ¬ (c.val ≥ 'A'.val ∧ c.val ≤ 'Z'.val) := fun hc =>
    hoff.1 ⟨UInt32.le_iff_toNat_le.1 hc.1, UInt32.le_iff_toNat_le.1 hc.2⟩
  have hlower : ¬ (c.val ≥ 'a'.val ∧ c.val ≤ 'z'.val) := fun hc =>
    hoff.2 ⟨UInt32.le_iff_toNat_le.1 hc.1, UInt32.le_iff_toNat_le.1 hc.2⟩
  have hsame : c.toLower = c := dif_neg hupper
  have hisLower : c.isLower = false :=
    (Bool.decide_and _ _).symm.trans (decide_eq_false hlower)
  rw [hsame]
  exact Bool.or_eq_false_iff.2 ⟨decide_eq_false hupper, hisLower⟩

theorem trimFront_append_of_blank {blanks : List Char} (h : ∀ c ∈ blanks, isBlank c)
    (cs : List Char) : trimFront (blanks ++ cs) = trimFront cs :=
  List.dropWhile_append_of_pos h

/-- A text that begins with a letter keeps it when blanks are dropped. -/
theorem trimFront_of_isAlpha {c : Char} (h : c.toLower.isAlpha = true) (cs : List Char) :
    trimFront (c :: cs) = c :: cs := by
  have hc : isBlank c = false := by
    by_contra hblank
    rw [isAlpha_toLower_of_isBlank (Bool.not_eq_false _ ▸ hblank)] at h
    exact absurd h (by decide)
  rw [trimFront, List.dropWhile_cons_of_neg (by simp [hc])]

/-! ## Looking for a word -/

variable {word : String} {cs : List Char}

theorem opensWith_eq_true_iff {letters : List Char} :
    opensWith letters cs = true ↔
      ∃ front behind, cs = front ++ behind ∧ front.map Char.toLower = letters := by
  rw [opensWith, List.isPrefixOf_iff_prefix]
  constructor
  · rintro ⟨behind, h⟩
    obtain ⟨front, rest, rfl, hfront, -⟩ := List.map_eq_append_iff.1 h.symm
    exact ⟨front, rest, rfl, hfront⟩
  · rintro ⟨front, behind, rfl, rfl⟩
    exact ⟨behind.map Char.toLower, (List.map_append).symm⟩

theorem beginsWith_iff (hword : word.toList.head?.any Char.isAlpha = true) {behind : List Char} :
    BeginsWith word behind cs ↔
      ∃ letters, trimFront cs = letters ++ behind ∧ letters.map Char.toLower = word.toList := by
  constructor
  · rintro ⟨blanks, letters, rfl, hblanks, hletters⟩
    cases letters with
    | nil => simp [← hletters] at hword
    | cons a letters =>
      have ha : a.toLower.isAlpha = true := by simpa [← hletters] using hword
      rw [List.append_assoc, trimFront_append_of_blank hblanks, List.cons_append,
        trimFront_of_isAlpha ha]
      exact ⟨a :: letters, rfl, hletters⟩
  · rintro ⟨letters, hcs, hletters⟩
    refine ⟨cs.takeWhile isBlank, letters, ?_, List.all_eq_true.1 List.all_takeWhile, hletters⟩
    rw [List.append_assoc, ← hcs, trimFront, List.takeWhile_append_dropWhile]

/-- What follows the word is told by the text. -/
theorem BeginsWith.unique {behind behind' : List Char}
    (hword : word.toList.head?.any Char.isAlpha = true) (h : BeginsWith word behind cs)
    (h' : BeginsWith word behind' cs) : behind = behind' := by
  obtain ⟨letters, hcs, hletters⟩ := (beginsWith_iff hword).1 h
  obtain ⟨letters', hcs', hletters'⟩ := (beginsWith_iff hword).1 h'
  have hlength : letters.length = letters'.length := by
    rw [← List.length_map Char.toLower, hletters, ← hletters', List.length_map]
  exact (List.append_inj (hcs.symm.trans hcs') hlength).2

/-- The first word is the longest run of name characters behind the blanks. -/
theorem firstWord_iff {isName : Char → Bool} (hword : word.toList.head?.any Char.isAlpha = true)
    (hname : ∀ c : Char, c.toLower ∈ word.toList → isName c = true) :
    FirstWord isName word cs ↔
      ((trimFront cs).takeWhile isName).map Char.toLower = word.toList := by
  simp only [FirstWord, beginsWith_iff hword]
  constructor
  · rintro ⟨behind, ⟨letters, htrim, hletters⟩, hstop⟩
    have hnames : ∀ c ∈ letters, isName c = true := fun c hc =>
      hname c (hletters ▸ List.mem_map_of_mem hc)
    have htake : behind.takeWhile isName = [] := by
      cases behind with
      | nil => rfl
      | cons b behind => exact List.takeWhile_cons_of_neg (by simpa using hstop)
    rw [htrim, List.takeWhile_append_of_pos hnames, htake, List.append_nil, hletters]
  · intro hletters
    refine ⟨(trimFront cs).dropWhile isName,
      ⟨_, List.takeWhile_append_dropWhile.symm, hletters⟩, ?_⟩
    have hstop := List.head?_dropWhile_not isName (trimFront cs)
    cases hbehind : ((trimFront cs).dropWhile isName).head? with
    | none => rfl
    | some b =>
      rw [hbehind] at hstop
      exact hstop

theorem exists_beginsWith_iff : (∃ behind, BeginsWith word behind cs) ↔ Begins word cs := by
  constructor
  · rintro ⟨behind, blanks, letters, h⟩
    exact ⟨blanks, letters, behind, h⟩
  · rintro ⟨blanks, letters, behind, h⟩
    exact ⟨behind, blanks, letters, h⟩

/-- Looking at the text behind its blanks tells whether it begins with a word. -/
theorem opensWith_trimFront_eq_true_iff
    (hword : word.toList.head?.any Char.isAlpha = true) :
    opensWith word.toList (trimFront cs) = true ↔ Begins word cs := by
  rw [opensWith_eq_true_iff, ← exists_beginsWith_iff]
  constructor
  · rintro ⟨letters, behind, h⟩
    exact ⟨behind, (beginsWith_iff hword).2 ⟨letters, h⟩⟩
  · rintro ⟨behind, h⟩
    obtain ⟨letters, h⟩ := (beginsWith_iff hword).1 h
    exact ⟨letters, behind, h⟩

/-- The first character behind the blanks is the first letter of the word that the text begins
with. -/
theorem Begins.head?_eq {c : Char} {behind : List Char} (h : Begins word cs)
    (hword : word.toList.head?.any Char.isAlpha = true) (hcs : trimFront cs = c :: behind) :
    word.toList.head? = some c.toLower := by
  obtain ⟨letters, rest, hletters, hsame⟩ :=
    opensWith_eq_true_iff.1 ((opensWith_trimFront_eq_true_iff hword).2 h)
  cases letters with
  | nil => simp [← hsame] at hword
  | cons a letters =>
    obtain ⟨rfl, -⟩ := List.cons.inj (hcs.symm.trans hletters)
    rw [← hsame, List.map_cons, List.head?_cons]

theorem contains_eq_true_iff {part : List Char} : contains part cs = true ↔ part <:+: cs := by
  induction cs with
  | nil => rw [contains, List.isEmpty_iff, List.infix_nil]
  | cons c cs ih =>
    rw [contains, Bool.or_eq_true, List.isPrefixOf_iff_prefix, ih, List.infix_cons_iff]

end TableRecords.Text
