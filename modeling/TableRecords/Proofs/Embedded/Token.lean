import TableRecords.Embedded.Token
import TableRecords.Proofs.Text.Words
import Mathlib.Data.List.Infix

/-!
# What stands in a token

Every token ends at an end of the text, so that the tokens behind it are those of what is left. A
word is then a part of the text, and the first token of a text that is a word stands behind
nothing but blanks and comments.
-/

namespace TableRecords.Embedded

/-- Whether a token is a keyword, in any letter case. -/
def Lexeme.Says (keyword : String) (l : Lexeme) : Prop :=
  ∃ s, l = .word s ∧ Text.asciiLower s = keyword

namespace Cell

theorem takeExponent_suffix {cs rest : List Char} {e : Int}
    (h : takeExponent cs = some (e, rest)) : rest <:+ cs := by
  unfold takeExponent at h
  split at h
  · rename_i c behind
    split at h
    · cases h
    · split at h
      rename_i negative digits hsign
      have hdigits : digits <:+ behind := by
        split at hsign <;> cases hsign
        · exact List.suffix_cons ..
        · exact List.suffix_cons ..
        · exact List.suffix_refl _
      simp only at h
      split at h
      · cases h
      · cases h
        exact ((List.drop_suffix ..).trans hdigits).trans (List.suffix_cons ..)
  · cases h

theorem takeNumeral_suffix {cs : List Char} {n : Numeral} (h : takeNumeral cs = some n) :
    n.rest <:+ cs := by
  unfold takeNumeral at h
  extract_lets unspaced at h
  have hunspaced : unspaced <:+ cs := List.dropWhile_suffix takeNumeral.isSpace
  clear_value unspaced
  split at h
  rename_i negative signed hsign
  have hsigned : signed <:+ unspaced := by
    split at hsign <;> cases hsign
    · exact List.suffix_cons ..
    · exact List.suffix_cons ..
    · exact List.suffix_refl _
  extract_lets whole behind at h
  have hbehind : behind <:+ signed := List.drop_suffix ..
  clear_value behind
  split at h
  rename_i hasPoint part pointed hpoint
  have hpointed : pointed <:+ behind := by
    split at hpoint <;> cases hpoint
    · exact (List.drop_suffix ..).trans (List.suffix_cons ..)
    · exact List.suffix_refl _
  split at h
  · cases h
  · split at h
    rename_i hasExponent e rest hexponent
    cases h
    have hrest : rest <:+ pointed := by
      split at hexponent <;> cases hexponent
      · rename_i htaken
        exact takeExponent_suffix htaken
      · exact List.suffix_refl _
    exact hrest.trans (hpointed.trans (hbehind.trans (hsigned.trans hunspaced)))

end Cell

namespace Token

variable {ps : Params} {c : Char} {rest cs : List Char} {l : Lexeme}

/-! ## What a token leaves -/

theorem skipBlock_suffix (cs : List Char) : skipBlock cs <:+ cs := by
  fun_induction skipBlock cs with
  | case1 => exact List.suffix_refl _
  | case2 => exact List.nil_suffix
  | case3 c d rest => exact (List.suffix_cons ..).trans (List.suffix_cons ..)
  | case4 c d rest _ ih => exact ih.trans (List.suffix_cons ..)

theorem between_suffix {quote : Char} {s tail : List Char}
    (h : between quote cs = some (s, tail)) : tail <:+ cs := by
  fun_induction between quote cs generalizing s with
  | case1 => cases h
  | case2 => cases h; exact List.nil_suffix
  | case3 => cases h
  | case4 rest ih =>
    obtain ⟨⟨s', tail'⟩, hrest, hpair⟩ := Option.map_eq_some_iff.1 h
    cases hpair
    exact (ih hrest).trans ((List.suffix_cons ..).trans (List.suffix_cons ..))
  | case5 => cases h; exact List.suffix_cons ..
  | case6 c d rest _ ih =>
    obtain ⟨⟨s', tail'⟩, hrest, hpair⟩ := Option.map_eq_some_iff.1 h
    cases hpair
    exact (ih hrest).trans (List.suffix_cons ..)

theorem closed_suffix (quote : Char) (make : String → Lexeme) (cs : List Char) :
    (closed quote make cs).2 <:+ cs := by
  unfold closed
  split
  · rename_i h
    exact between_suffix h
  · exact List.nil_suffix

theorem bracketed_suffix (cs : List Char) : (bracketed cs).2 <:+ cs := by
  unfold bracketed
  extract_lets s
  split
  · exact List.nil_suffix
  · rename_i h
    exact (List.suffix_cons ..).trans (h ▸ List.drop_suffix ..)

theorem blob_suffix (cs : List Char) : (blob cs).2 <:+ cs := by
  unfold blob
  extract_lets digits behind
  have hbehind : behind <:+ cs := List.drop_suffix ..
  split
  · rename_i h _
    exact (List.suffix_cons ..).trans (h ▸ hbehind)
  · exact (List.tail_suffix _).trans ((List.dropWhile_suffix _).trans hbehind)

theorem number_suffix (cs : List Char) : (number cs).2 <:+ cs := by
  unfold number
  split
  · exact List.tail_suffix cs
  · rename_i n h
    have hrest : n.rest <:+ cs := Cell.takeNumeral_suffix h
    split
    · exact (List.dropWhile_suffix _).trans hrest
    · exact hrest

theorem symbol_suffix (cs : List Char) : (symbol cs).2 <:+ cs := by
  unfold symbol
  split
  · exact List.drop_suffix ..
  · exact List.tail_suffix cs

/-- What stands behind a token is an end of the text. -/
theorem take_suffix (ps : Params) (c : Char) (rest : List Char) :
    (take ps c rest).2.2 <:+ c :: rest := by
  have hrest : rest <:+ c :: rest := List.suffix_cons ..
  unfold take
  split
  · exact (closed_suffix ..).trans hrest
  split
  · exact (closed_suffix ..).trans hrest
  split
  · exact (closed_suffix ..).trans hrest
  split
  · exact (bracketed_suffix _).trans hrest
  split
  · exact (blob_suffix _).trans ((List.tail_suffix rest).trans hrest)
  split
  · exact List.drop_suffix ..
  split
  · exact number_suffix _
  split
  · exact (List.drop_suffix ..).trans hrest
  split
  · dsimp only
    split
    · exact hrest
    · exact (List.drop_suffix ..).trans hrest
  · exact symbol_suffix _

/-! ## Words -/

theorem closed_ne_word {quote : Char} {make : String → Lexeme} (hmake : ∀ s t, make s ≠ .word t)
    (cs : List Char) (t : String) : (closed quote make cs).1 ≠ .word t := by
  unfold closed
  split
  · exact hmake _ t
  · exact Lexeme.noConfusion

theorem bracketed_ne_word (cs : List Char) (t : String) : (bracketed cs).1 ≠ .word t := by
  unfold bracketed
  extract_lets s
  split <;> exact Lexeme.noConfusion

theorem blob_ne_word (cs : List Char) (t : String) : (blob cs).1 ≠ .word t := by
  unfold blob
  extract_lets digits behind
  split <;> exact Lexeme.noConfusion

theorem number_ne_word (cs : List Char) (t : String) : (number cs).1 ≠ .word t := by
  unfold number
  split
  · exact Lexeme.noConfusion
  · split
    · exact Lexeme.noConfusion
    · dsimp only
      split <;> exact Lexeme.noConfusion

theorem symbol_ne_word (cs : List Char) (t : String) : (symbol cs).1 ≠ .word t := by
  unfold symbol
  split <;> exact Lexeme.noConfusion

/-- A word is the longest name at the front of the text. -/
theorem take_word {s : String} (h : (take ps c rest).1 = .word s) :
    beginsName c = true ∧ s.toList = (c :: rest).takeWhile isNameChar := by
  unfold take at h
  split at h
  · exact absurd h (closed_ne_word (fun _ _ => Lexeme.noConfusion) _ s)
  split at h
  · exact absurd h (closed_ne_word (fun _ _ => Lexeme.noConfusion) _ s)
  split at h
  · exact absurd h (closed_ne_word (fun _ _ => Lexeme.noConfusion) _ s)
  split at h
  · exact absurd h (bracketed_ne_word _ s)
  split at h
  · exact absurd h (blob_ne_word _ s)
  split at h
  · rename_i hname
    cases h
    exact ⟨hname, String.toList_ofList⟩
  split at h
  · exact absurd h (number_ne_word _ s)
  split at h
  · cases h
  split at h
  · dsimp only at h
    split at h <;> cases h
  · exact absurd h (symbol_ne_word _ s)

/-- The words of a text stand in it. -/
theorem infix_of_mem_scanFrom {fuel offset : Nat} {t : Token} {s : String}
    (ht : t ∈ scanFrom fuel ps offset cs) (hs : t.lexeme = .word s) : s.toList <:+: cs := by
  fun_induction scanFrom fuel ps offset cs with
  | case1 => cases ht
  | case2 => cases ht
  | case3 => cases ht
  | case4 _ _ _ c rest _ _ _ ih => exact (ih rest ht).trans (List.suffix_cons ..).isInfix
  | case5 _ _ _ c rest _ _ _ _ ih =>
    exact (ih _ ht).trans ((List.dropWhile_suffix _).trans (List.suffix_cons ..)).isInfix
  | case6 _ _ _ c rest _ _ _ _ _ ih =>
    have htail : skipBlock rest.tail <:+ rest := (skipBlock_suffix _).trans (List.tail_suffix rest)
    exact (ih _ ht).trans (htail.trans (List.suffix_cons ..)).isInfix
  | case7 _ ps _ c rest _ _ _ _ lexeme _ tail htake _ _ ih =>
    rcases List.mem_cons.1 ht with rfl | ht
    · have hlexeme : (take ps c rest).1 = .word s := (congrArg Prod.fst htake).trans hs
      have hword : s.toList = (c :: rest).takeWhile isNameChar := (take_word hlexeme).2
      exact hword ▸ (List.takeWhile_prefix _).isInfix
    · have htail : tail <:+ c :: rest := by
        have hsuffix := take_suffix ps c rest
        rwa [htake] at hsuffix
      exact (ih ht).trans htail.isInfix

/-- Blanks of the engine are blanks of the text, a byte order mark excepted. -/
theorem isBlank_of_skipped {c : Char} (h : c ∈ [' ', '\t', '\n', '\x0c', '\x0d', '\ufeff']) :
    Text.isBlank c = true ∨ c = '\ufeff' := by
  simp only [List.mem_cons, List.not_mem_nil, or_false] at h
  rcases h with rfl | rfl | rfl | rfl | rfl | rfl <;> decide

/-- Where the first token is a keyword, the first character that is no blank begins a comment or
is a byte order mark, or else it is the keyword's first letter. -/
theorem exists_trimFront_of_scanFrom {fuel offset : Nat} {t : Token} {ts : List Token}
    {keyword : String} {a : Char} (hscan : scanFrom fuel ps offset cs = t :: ts)
    (hsaid : t.lexeme.Says keyword) (ha : keyword.toList.head? = some a)
    (hletter : a.isAlpha = true) :
    ∃ c behind, Text.trimFront cs = c :: behind ∧ (c ∈ ['-', '/', '\ufeff'] ∨ c.toLower = a) := by
  fun_induction scanFrom fuel ps offset cs with
  | case1 => cases hscan
  | case2 => cases hscan
  | case3 => cases hscan
  | case4 _ _ _ c rest _ _ hskip ih =>
    rcases isBlank_of_skipped hskip with hblank | rfl
    · obtain ⟨d, behind, htrim, hd⟩ := ih rest hscan
      exact ⟨d, behind, by rwa [Text.trimFront, List.dropWhile_cons_of_pos hblank], hd⟩
    · exact ⟨_, rest, rfl, .inl (by decide)⟩
  | case5 _ _ _ c rest _ _ _ hcomment =>
    obtain ⟨rfl, -⟩ := hcomment
    exact ⟨_, rest, rfl, .inl (by decide)⟩
  | case6 _ _ _ c rest _ _ _ _ hcomment =>
    obtain ⟨rfl, -⟩ := hcomment
    exact ⟨_, rest, rfl, .inl (by decide)⟩
  | case7 _ ps _ c rest _ _ _ _ lexeme _ tail htake =>
    obtain ⟨rfl, -⟩ := List.cons.inj hscan
    obtain ⟨s, hs, hkeyword⟩ := hsaid
    have hlexeme : (take ps c rest).1 = .word s := (congrArg Prod.fst htake).trans hs
    obtain ⟨hbegins, hword⟩ := take_word hlexeme
    have hname : isNameChar c = true := by simp [isNameChar, hbegins]
    rw [List.takeWhile_cons_of_pos hname] at hword
    have hc : c.toLower = a := by
      rw [← hkeyword, Text.asciiLower, String.toList_ofList, hword] at ha
      exact Option.some.inj ha
    -- A name of the engine may begin with a blank of the text, but a keyword does not.
    exact ⟨c, rest, Text.trimFront_of_isAlpha (hc ▸ hletter) rest, .inr hc⟩

/-! ## The first token -/

theorem byteLength_pos {cs : List Char} (h : cs ≠ []) : 0 < byteLength cs := by
  have hfold (n : Nat) (cs : List Char) : n ≤ cs.foldl (fun n c => n + c.utf8Size) n := by
    induction cs generalizing n with
    | nil => exact Nat.le_refl n
    | cons c cs ih => exact (Nat.le_add_right n _).trans (ih _)
  obtain ⟨c, cs, rfl⟩ := List.exists_cons_of_ne_nil h
  exact (Nat.lt_of_lt_of_le c.utf8Size_pos (Nat.le_of_eq (Nat.zero_add _).symm)).trans_le (hfold _ cs)

/-- No token begins in front of the place where the scan does. -/
theorem le_start_of_mem_scanFrom {fuel offset : Nat} {t : Token}
    (ht : t ∈ scanFrom fuel ps offset cs) : offset ≤ t.start := by
  fun_induction scanFrom fuel ps offset cs with
  | case1 => cases ht
  | case2 => cases ht
  | case3 => cases ht
  | case4 _ _ _ c rest _ _ _ ih => exact (Nat.le_add_right ..).trans (ih rest ht)
  | case5 _ _ _ c rest _ _ _ _ ih => exact (Nat.le_add_right ..).trans (ih _ ht)
  | case6 _ _ _ c rest _ _ _ _ _ ih => exact (Nat.le_add_right ..).trans (ih _ ht)
  | case7 _ ps _ c rest _ _ _ _ lexeme _ tail htake _ _ ih =>
    rcases List.mem_cons.1 ht with rfl | ht
    · exact Nat.le_refl _
    · exact (Nat.le_add_right ..).trans (ih ht)

/-- A token at the front of the text is the one that is taken there. -/
theorem lexeme_of_start {t : Token} {ts : List Token} {fuel : Nat}
    (hscan : scanFrom fuel ps 0 cs = t :: ts) (hstart : t.start = 0) :
    ∃ c rest, cs = c :: rest ∧ t.lexeme = (take ps c rest).1 := by
  -- behind what is skipped the scan goes on at a later place
  have hskipped {fuel : Nat} {ps : Params} {c : Char} {rest tail : List Char}
      (htail : tail.length ≤ rest.length) :
      scanFrom fuel ps
        (0 + byteLength ((c :: rest).take (rest.length + 1 - tail.length))) tail ≠ t :: ts := by
    intro h
    have hle := le_start_of_mem_scanFrom (h ▸ List.mem_cons_self : t ∈ scanFrom ..)
    have hpos : 0 < byteLength ((c :: rest).take (rest.length + 1 - tail.length)) :=
      byteLength_pos (by simp; omega)
    omega
  cases fuel with
  | zero => exact absurd hscan (by simp [scanFrom])
  | succ fuel =>
    cases cs with
    | nil => exact absurd hscan (by simp [scanFrom])
    | cons c rest =>
      refine ⟨c, rest, rfl, ?_⟩
      by_cases hzero : c = '\x00'
      · exact absurd hscan (by simp [scanFrom, hzero])
      rw [scanFrom] at hscan
      swap
      · exact hzero
      split at hscan
      · exact absurd hscan (hskipped (Nat.le_refl _))
      split at hscan
      · exact absurd hscan (hskipped (List.dropWhile_suffix _).length_le)
      split at hscan
      · refine absurd hscan (hskipped ?_)
        exact ((skipBlock_suffix _).trans (List.tail_suffix rest)).length_le
      · exact (List.cons.inj hscan).1 ▸ rfl

theorem isAlpha_of_toLower {c : Char} (h : c.toLower.isAlpha = true) : c.isAlpha = true := by
  by_cases hupper : c.isUpper = true
  · exact Bool.or_eq_true_iff.2 (.inl hupper)
  · have hsame : c.toLower = c := dif_neg fun hrange => hupper (decide_eq_true hrange)
    rwa [hsame] at h

/-- A letter begins a word, but for the one of blobs. -/
theorem take_of_isAlpha {ps : Params} {c : Char} (hc : c.isAlpha = true) (hx : c.toLower ≠ 'x')
    (rest : List Char) :
    (take ps c rest).1 = .word (String.ofList ((c :: rest).takeWhile isNameChar)) := by
  have hblob : ¬ (c = 'x' ∨ c = 'X') := by
    rintro (rfl | rfl)
    · exact hx rfl
    · exact hx (by decide)
  have hbegins : beginsName c = true := by simp [beginsName, hc]
  rw [take, if_neg (Text.ne_of_class hc (by decide)), if_neg (Text.ne_of_class hc (by decide)),
    if_neg (Text.ne_of_class hc (by decide)), if_neg (Text.ne_of_class hc (by decide)),
    if_neg (fun h => hblob h.1), if_pos hbegins]

theorem exists_scanFrom_of_isAlpha {c : Char} (hc : c.isAlpha = true) (ps : Params)
    (fuel offset : Nat) (rest : List Char) :
    ∃ stop ts, scanFrom (fuel + 1) ps offset (c :: rest) =
      ⟨(take ps c rest).1, offset, stop⟩ :: ts := by
  have hblank : c ∉ [' ', '\t', '\n', '\x0c', '\x0d', '\ufeff'] := by
    simp only [List.mem_cons, List.not_mem_nil, or_false]
    rintro (h | h | h | h | h | h) <;> exact Text.ne_of_class hc (by decide) h
  have hcomment : c ≠ '-' := Text.ne_of_class hc (by decide)
  have hblock : c ≠ '/' := Text.ne_of_class hc (by decide)
  rw [scanFrom]
  swap
  · exact Text.ne_of_class hc (by decide)
  rw [if_neg hblank, if_neg (fun h => hcomment h.1), if_neg (fun h => hblock h.1)]
  exact ⟨_, _, rfl⟩

/-- **The first word of a text is its first token**, by what continues a name of the engine. -/
theorem firstWord_iff_scan {keyword : String} {a : Char} (ha : keyword.toList.head? = some a)
    (hx : a ≠ 'x') (hletters : keyword.toList.all Char.isAlpha = true) (sql : String) :
    Text.FirstWord isNameChar keyword sql.toList ↔
      ∃ t ts, scan (Text.trimStart sql) = t :: ts ∧ t.start = 0 ∧ t.lexeme.Says keyword := by
  rw [List.all_eq_true] at hletters
  have hword : keyword.toList.head?.any Char.isAlpha = true := by
    simp [ha, hletters a (List.mem_of_mem_head? ha)]
  have hname (c : Char) (hc : c.toLower ∈ keyword.toList) : isNameChar c = true := by
    simp [isNameChar, beginsName, isAlpha_of_toLower (hletters _ hc)]
  rw [Text.firstWord_iff hword hname, Text.trimStart, scan, String.toList_ofList]
  constructor
  · intro hsame
    cases htrim : Text.trimFront sql.toList with
    | nil => simp [← hsame, htrim] at ha
    | cons c rest =>
      rw [htrim] at hsame
      have hc : c.toLower = a := by
        have hhead := congrArg List.head? hsame
        rw [ha, List.head?_map, List.head?_takeWhile, List.head?_cons,
          Option.map_eq_some_iff] at hhead
        obtain ⟨first, hfirst, hlower⟩ := hhead
        obtain rfl := Option.some.inj (Option.filter_eq_some_iff.1 hfirst).1
        exact hlower
      have halpha : c.isAlpha = true :=
        isAlpha_of_toLower (hc ▸ hletters a (List.mem_of_mem_head? ha))
      obtain ⟨stop, ts, hscan⟩ := exists_scanFrom_of_isAlpha halpha {}
        (String.ofList (c :: rest)).length 0 rest
      refine ⟨_, ts, hscan, rfl, _, take_of_isAlpha halpha (hc ▸ hx) rest, ?_⟩
      rw [Text.asciiLower, String.toList_ofList, hsame, String.ofList_toList]
  · rintro ⟨t, ts, hscan, hstart, s, hs, hsaid⟩
    obtain ⟨c, rest, htrim, hlexeme⟩ := lexeme_of_start hscan hstart
    rw [htrim, ← (take_word (hlexeme.symm.trans hs)).2, ← hsaid, Text.asciiLower,
      String.toList_ofList]

end Token
end TableRecords.Embedded
