import Mathlib
import TableRecords.Sql.Placeholder

/-!
# Cutting a text into pieces

`Cuts` says in a declarative way how a text of a caller falls into pieces, and `cut` is the
function that finds them:

    Cuts d cs ps ↔ ps = cut d cs                                             (cuts_iff)

So every text can be cut in exactly one way.  What `withPlaceholders` does then depends on the
pieces alone (`withPlaceholders_cut`).
-/

namespace TableRecords.Sql

/-! ## Delimiters of protected spans -/

/-- The tag of a dollar-quoted body: letters, digits and underscores of ASCII, no digit first. -/
def IsTag (tag : List Char) : Prop :=
  (∀ c ∈ tag, c.isAlphanum = true ∨ c = '_') ∧ ∀ c, tag.head? = some c → c.isDigit = false

/-- What opens and what closes the protected spans of a dialect. -/
inductive Delimiters (d : Dialect) : (opener closer : List Char) → Prop
  | string : Delimiters d ['\x27'] ['\x27']
  | quoted : Delimiters d ['\x22'] ['\x22']
  | lineComment : Delimiters d ['-', '-'] ['\n']
  | blockComment : Delimiters d ['/', '*'] ['*', '/']
  | backquoted (hd : d = .mysql) : Delimiters d ['\x60'] ['\x60']
  | bracketed (hd : d = .sqlServer) : Delimiters d ['['] [']']
  | body (hd : d = .postgres) (tag : List Char) (htag : IsTag tag) :
      Delimiters d ('$' :: (tag ++ ['$'])) ('$' :: (tag ++ ['$']))

/-- In `body ++ closer ++ rest` the closer does not occur before the place behind `body`. -/
def FirstAt (closer body rest : List Char) : Prop :=
  ∀ before behind, body ++ closer ++ rest = before ++ closer ++ behind →
    body.length ≤ before.length

/-- A text and the pieces it falls into, from left to right. -/
inductive Cuts (d : Dialect) : List Char → List Piece → Prop
  | nil : Cuts d [] []
  /-- A span runs up to the first closer behind its opener. -/
  | closed {opener closer body rest : List Char} {ps : List Piece} :
      Delimiters d opener closer → FirstAt closer body rest → Cuts d rest ps →
      Cuts d (opener ++ (body ++ closer ++ rest)) (.span (opener ++ (body ++ closer)) :: ps)
  /-- A span without a closer runs up to the end. -/
  | unclosed {opener closer body : List Char} :
      Delimiters d opener closer → ¬ closer <:+: body →
      Cuts d (opener ++ body) [.span (opener ++ body)]
  | escaped {rest : List Char} {ps : List Piece} :
      Cuts d rest ps → Cuts d ('?' :: '?' :: rest) (.escaped :: ps)
  | mark {rest : List Char} {ps : List Piece} :
      rest.head? ≠ some '?' → Cuts d rest ps → Cuts d ('?' :: rest) (.mark :: ps)
  | char {c : Char} {rest : List Char} {ps : List Piece} :
      c ≠ '?' → (∀ opener closer, Delimiters d opener closer → ¬ opener <+: c :: rest) →
      Cuts d rest ps → Cuts d (c :: rest) (.char c :: ps)

/-! ## Openers -/

theorem isTagChar_iff (c : Char) : isTagChar c = true ↔ c.isAlphanum = true ∨ c = '_' := by
  unfold isTagChar
  rw [Bool.or_eq_true, beq_iff_eq]

theorem IsTag.dollar_not_mem {tag : List Char} (h : IsTag tag) : '$' ∉ tag := by
  intro hm
  rcases h.1 '$' hm with h | h
  · exact absurd h (by decide)
  · exact absurd h (by decide)

theorem takeWhile_ne_append {c : Char} {cs rest : List Char} (h : c ∉ cs) :
    (cs ++ c :: rest).takeWhile (· != c) = cs := by
  induction cs with
  | nil => simp
  | cons a cs ih =>
    rw [List.mem_cons, not_or] at h
    have ha : (a != c) = true := by simpa using Ne.symm h.1
    rw [List.cons_append, List.takeWhile_cons, if_pos ha, ih h.2]

theorem dollarDelimiter?_eq_some_iff (cs delimiter : List Char) :
    dollarDelimiter? cs = some delimiter ↔
      ∃ tag, IsTag tag ∧ tag ++ ['$'] <+: cs ∧ delimiter = '$' :: (tag ++ ['$']) := by
  unfold dollarDelimiter?
  simp only [Option.ite_none_right_eq_some, Option.some.injEq]
  constructor
  · rintro ⟨⟨hhead, hall, hdigit⟩, rfl⟩
    refine ⟨cs.takeWhile (· != '$'), ⟨fun c hc => ?_, fun c hc => ?_⟩, ?_, by simp⟩
    · exact (isTagChar_iff c).1 (List.all_eq_true.1 hall c hc)
    · rw [hc] at hdigit
      simpa using hdigit
    · obtain ⟨rest, hrest⟩ := List.head?_eq_some_iff.1 hhead
      refine ⟨rest, ?_⟩
      rw [List.append_assoc, List.singleton_append, ← hrest]
      exact List.prefix_iff_eq_append.1 (List.takeWhile_prefix _)
  · rintro ⟨tag, htag, ⟨rest, rfl⟩, rfl⟩
    have htake : (tag ++ ['$'] ++ rest).takeWhile (· != '$') = tag := by
      rw [List.append_assoc]
      exact takeWhile_ne_append htag.dollar_not_mem
    rw [htake]
    refine ⟨⟨by simp, ?_, ?_⟩, by simp⟩
    · exact List.all_eq_true.2 fun c hc => (isTagChar_iff c).2 (htag.1 c hc)
    · cases hh : tag.head? with
      | none => simp
      | some c => simp [htag.2 c hh]

/-- `opener?` finds the delimiters of the span at the front of a text, if one opens there. -/
theorem opener?_eq_some_iff (d : Dialect) (c : Char) (rest more closer : List Char) :
    opener? d c rest = some (more, closer) ↔
      Delimiters d (c :: more) closer ∧ c :: more <+: c :: rest := by
  have hcons : c :: more <+: c :: rest ↔ more <+: rest := by simp
  rw [hcons]
  constructor
  · intro h
    unfold opener? at h
    split at h
    · next hc =>
      obtain ⟨rfl, rfl⟩ : [] = more ∧ [c] = closer := by simpa using h
      refine ⟨?_, List.nil_prefix⟩
      rcases hc with rfl | rfl
      · exact .string
      · exact .quoted
    split at h
    · next hc =>
      obtain ⟨rfl, hhead⟩ := hc
      obtain ⟨rfl, rfl⟩ : ['-'] = more ∧ ['\n'] = closer := by simpa using h
      obtain ⟨tail, rfl⟩ := List.head?_eq_some_iff.1 hhead
      exact ⟨.lineComment, by simp⟩
    split at h
    · next hc =>
      obtain ⟨rfl, hhead⟩ := hc
      obtain ⟨rfl, rfl⟩ : ['*'] = more ∧ ['*', '/'] = closer := by simpa using h
      obtain ⟨tail, rfl⟩ := List.head?_eq_some_iff.1 hhead
      exact ⟨.blockComment, by simp⟩
    split at h
    · next hc =>
      obtain ⟨rfl, hd⟩ := hc
      obtain ⟨rfl, rfl⟩ : [] = more ∧ ['\x60'] = closer := by simpa using h
      exact ⟨.backquoted hd, List.nil_prefix⟩
    split at h
    · next hc =>
      obtain ⟨rfl, hd⟩ := hc
      obtain ⟨rfl, rfl⟩ : [] = more ∧ [']'] = closer := by simpa using h
      exact ⟨.bracketed hd, List.nil_prefix⟩
    split at h
    · next hc =>
      obtain ⟨rfl, hd⟩ := hc
      obtain ⟨delimiter, hdelimiter, heq⟩ := Option.map_eq_some_iff.1 h
      obtain ⟨tag, htag, hpre, rfl⟩ := (dollarDelimiter?_eq_some_iff _ _).1 hdelimiter
      obtain ⟨rfl, rfl⟩ : tag ++ ['$'] = more ∧ '$' :: (tag ++ ['$']) = closer := by
        simpa using heq
      exact ⟨.body hd tag htag, hpre⟩
    · exact absurd h (by simp)
  · rintro ⟨h, hpre⟩
    unfold opener?
    cases h with
    | string => simp
    | quoted => simp
    | lineComment =>
      obtain ⟨tail, rfl⟩ := hpre
      simp
    | blockComment =>
      obtain ⟨tail, rfl⟩ := hpre
      simp
    | backquoted hd => simp [hd]
    | bracketed hd => simp [hd]
    | body hd tag htag =>
      have hdelimiter := (dollarDelimiter?_eq_some_iff rest _).2 ⟨tag, htag, hpre, rfl⟩
      simp [hd, hdelimiter]

theorem Delimiters.opener_ne_nil {d : Dialect} {opener closer : List Char}
    (h : Delimiters d opener closer) : opener ≠ [] := by
  cases h <;> simp

theorem Delimiters.closer_ne_nil {d : Dialect} {opener closer : List Char}
    (h : Delimiters d opener closer) : closer ≠ [] := by
  cases h <;> simp

theorem opener?_eq_none_iff (d : Dialect) (c : Char) (rest : List Char) :
    opener? d c rest = none ↔
      ∀ opener closer, Delimiters d opener closer → ¬ opener <+: c :: rest := by
  constructor
  · intro h opener closer hdel hpre
    cases opener with
    | nil => exact hdel.opener_ne_nil rfl
    | cons a more =>
      obtain rfl : a = c := by
        obtain ⟨tail, htail⟩ := hpre
        exact (List.cons.inj htail).1
      rw [(opener?_eq_some_iff d a rest more closer).2 ⟨hdel, hpre⟩] at h
      exact absurd h (by simp)
  · intro h
    cases ho : opener? d c rest with
    | none => rfl
    | some found =>
      obtain ⟨hdel, hpre⟩ := (opener?_eq_some_iff d c rest found.1 found.2).1 ho
      exact absurd hpre (h _ _ hdel)

theorem opener?_mark (d : Dialect) (rest : List Char) : opener? d '?' rest = none := by
  simp [opener?]

/-! ## The end of a span -/

theorem FirstAt.of_cons {closer body rest : List Char} {b : Char}
    (h : FirstAt closer (b :: body) rest) : FirstAt closer body rest := by
  intro before behind heq
  have := h (b :: before) behind (by rw [List.cons_append, List.cons_append, heq]; rfl)
  simpa using this

theorem FirstAt.not_starts {closer body rest : List Char} {b : Char}
    (h : FirstAt closer (b :: body) rest) : ¬ closer <+: b :: body ++ closer ++ rest := by
  rintro ⟨behind, heq⟩
  have := h [] behind heq.symm
  simp at this

theorem firstAt_nil (closer rest : List Char) : FirstAt closer [] rest := by
  intro before behind _
  exact Nat.zero_le _

theorem firstAt_cons {closer body rest : List Char} {b : Char}
    (hpre : ¬ closer <+: b :: (body ++ closer ++ rest)) (h : FirstAt closer body rest) :
    FirstAt closer (b :: body) rest := by
  intro before behind heq
  cases before with
  | nil => exact absurd ⟨behind, heq.symm⟩ hpre
  | cons a before =>
    have := h before behind (List.cons.inj heq).2
    simpa using this

/-- Every text either has a first closer or none. -/
theorem exists_firstAt_or_none (closer : List Char) (cs : List Char) :
    (∃ body rest, cs = body ++ closer ++ rest ∧ FirstAt closer body rest) ∨
      ¬ closer <:+: cs := by
  induction cs with
  | nil =>
    by_cases h : closer = []
    · exact Or.inl ⟨[], [], by simp [h], firstAt_nil _ _⟩
    · exact Or.inr (by simpa using h)
  | cons c cs ih =>
    by_cases hpre : closer <+: c :: cs
    · obtain ⟨rest, hrest⟩ := hpre
      exact Or.inl ⟨[], rest, hrest.symm, firstAt_nil _ _⟩
    · rcases ih with ⟨body, rest, rfl, hfirst⟩ | hno
      · exact Or.inl ⟨c :: body, rest, rfl, firstAt_cons hpre hfirst⟩
      · exact Or.inr (by rw [List.infix_cons_iff]; simp [hpre, hno])

theorem upTo_of_firstAt {closer body rest : List Char} (hne : closer ≠ [])
    (h : FirstAt closer body rest) :
    upTo closer (body ++ closer ++ rest) = (body ++ closer, rest) := by
  induction body with
  | nil =>
    obtain ⟨a, more, rfl⟩ := List.exists_cons_of_ne_nil hne
    have hpre : (a :: more).isPrefixOf (a :: (more ++ rest)) = true :=
      List.isPrefixOf_iff_prefix.2 ⟨rest, rfl⟩
    show upTo (a :: more) (a :: (more ++ rest)) = (a :: more, rest)
    rw [upTo, if_pos hpre]
    simp
  | cons b body ih =>
    have hpre : ¬ closer.isPrefixOf (b :: (body ++ closer ++ rest)) = true := by
      rw [List.isPrefixOf_iff_prefix]
      exact h.not_starts
    show upTo closer (b :: (body ++ closer ++ rest)) = (b :: (body ++ closer), rest)
    rw [upTo, if_neg hpre, ih h.of_cons]

theorem upTo_eq_self {closer cs : List Char} (h : ¬ closer <:+: cs) :
    upTo closer cs = (cs, []) := by
  induction cs with
  | nil => rfl
  | cons c cs ih =>
    rw [List.infix_cons_iff, not_or] at h
    have hpre : ¬ closer.isPrefixOf (c :: cs) = true := by
      rw [List.isPrefixOf_iff_prefix]
      exact h.1
    rw [upTo, if_neg hpre, ih h.2]

/-! ## One step of the cut -/

theorem cut_span {d : Dialect} {opener closer body : List Char}
    (h : Delimiters d opener closer) :
    cut d (opener ++ body) =
      .span (opener ++ (upTo closer body).1) :: cut d (upTo closer body).2 := by
  cases opener with
  | nil => exact absurd rfl h.opener_ne_nil
  | cons c more =>
    have ho : opener? d c (more ++ body) = some (more, closer) :=
      (opener?_eq_some_iff ..).2 ⟨h, List.prefix_append _ _⟩
    rw [List.cons_append, cut.eq_def]
    simp only [ho]
    simp

theorem cut_escaped (d : Dialect) (rest : List Char) :
    cut d ('?' :: '?' :: rest) = .escaped :: cut d rest := by
  rw [cut, opener?_mark]

theorem cut_mark {d : Dialect} {rest : List Char} (h : rest.head? ≠ some '?') :
    cut d ('?' :: rest) = .mark :: cut d rest := by
  rw [cut, opener?_mark]
  rintro tail rfl
  exact h rfl

theorem cut_char {d : Dialect} {c : Char} {rest : List Char} (hc : c ≠ '?')
    (h : opener? d c rest = none) : cut d (c :: rest) = .char c :: cut d rest := by
  rw [cut, h]
  · intro heq
    exact hc heq
  · intro tail heq
    exact absurd heq hc

/-! ## The cut is the only one -/

/-- `cut` cuts every text. -/
theorem cuts_cut (d : Dialect) (cs : List Char) : Cuts d cs (cut d cs) := by
  -- The rest behind a span is no longer than the text, so the induction is on the length.
  induction hn : cs.length using Nat.strongRecOn generalizing cs with
  | ind n ih =>
    cases cs with
    | nil =>
      rw [cut]
      exact .nil
    | cons c rest =>
      simp only [List.length_cons] at hn
      cases ho : opener? d c rest with
      | some found =>
        obtain ⟨hdel, ⟨body, hbody⟩⟩ := (opener?_eq_some_iff d c rest found.1 found.2).1 ho
        rw [← hbody, cut_span hdel]
        have hlen : found.1.length + body.length = rest.length := by
          simpa using congrArg List.length hbody
        rcases exists_firstAt_or_none found.2 body with ⟨inner, tail, rfl, hfirst⟩ | hno
        · rw [upTo_of_firstAt hdel.closer_ne_nil hfirst]
          simp only [List.length_append] at hlen
          exact .closed hdel hfirst (ih _ (by omega) tail rfl)
        · rw [upTo_eq_self hno, cut]
          exact .unclosed hdel hno
      | none =>
        by_cases hc : c = '?'
        · subst hc
          by_cases hhead : rest.head? = some '?'
          · obtain ⟨tail, rfl⟩ := List.head?_eq_some_iff.1 hhead
            rw [cut_escaped]
            simp only [List.length_cons] at hn
            exact .escaped (ih _ (by omega) tail rfl)
          · rw [cut_mark hhead]
            exact .mark hhead (ih _ (by omega) rest rfl)
        · rw [cut_char hc ho]
          exact .char hc ((opener?_eq_none_iff d c rest).1 ho) (ih _ (by omega) rest rfl)

theorem Cuts.eq_cut {d : Dialect} {cs : List Char} {ps : List Piece} (h : Cuts d cs ps) :
    ps = cut d cs := by
  induction h with
  | nil => rw [cut]
  | closed hdel hfirst _ ih =>
    rw [cut_span hdel, upTo_of_firstAt hdel.closer_ne_nil hfirst, ← ih]
  | unclosed hdel hno => rw [cut_span hdel, upTo_eq_self hno, cut]
  | escaped _ ih => rw [cut_escaped, ← ih]
  | mark hhead _ ih => rw [cut_mark hhead, ← ih]
  | char hc hno _ ih => rw [cut_char hc ((opener?_eq_none_iff ..).2 hno), ← ih]

theorem cuts_iff (d : Dialect) (cs : List Char) (ps : List Piece) :
    Cuts d cs ps ↔ ps = cut d cs := by
  constructor
  · intro h
    exact h.eq_cut
  · rintro rfl
    exact cuts_cut d cs

/-- Nothing is lost: the pieces joined give the text. -/
theorem Cuts.join_eq {d : Dialect} {cs : List Char} {ps : List Piece} (h : Cuts d cs ps) :
    join ps = cs := by
  induction h with
  | nil => rfl
  | closed _ _ _ ih => simpa [join, Piece.chars] using ih
  | unclosed _ _ => simp [join, Piece.chars]
  | escaped _ ih => simpa [join, Piece.chars] using ih
  | mark _ _ ih => simpa [join, Piece.chars] using ih
  | char _ _ _ ih => simpa [join, Piece.chars] using ih

/-! ## Pieces in a dialect -/

/-- A piece as the dialect writes it, if a mark there is the argument at position `n`. -/
def Piece.written (d : Dialect) (n : Nat) : Piece → List Char
  | span cs => cs
  | escaped => ['?']
  | mark => d.placeholder n
  | char c => [c]

/-- The pieces one after the other; before a mark stand `offset` arguments and those of the
marks in front of it. -/
def translated (d : Dialect) (offset : Nat) (ps : List Piece) : List Char :=
  (ps.mapIdx fun i p => p.written d (offset + (ps.take i).count .mark + 1)).flatten

theorem renderPieces_cons (d : Dialect) (next : Nat) (p : Piece) (ps : List Piece) :
    renderPieces d next (p :: ps) =
      p.written d next ++ renderPieces d (next + [p].count .mark) ps := by
  cases p <;> rfl

theorem renderPieces_eq_translated (d : Dialect) (offset : Nat) (ps : List Piece) :
    renderPieces d (offset + 1) ps = translated d offset ps := by
  induction ps generalizing offset with
  | nil => rfl
  | cons p ps ih =>
    have hnext : offset + 1 + [p].count .mark = offset + [p].count .mark + 1 := by omega
    rw [renderPieces_cons, hnext, ih]
    unfold translated
    rw [List.mapIdx_cons, List.flatten_cons]
    congr 3
    funext i q
    have hcount : ((p :: ps).take (i + 1)).count .mark =
        [p].count .mark + (ps.take i).count .mark := by
      rw [List.take_succ_cons, ← List.count_append]
      rfl
    rw [hcount, Nat.add_assoc offset]

theorem markCount_eq_count (ps : List Piece) : markCount ps = ps.count .mark := rfl

/-- **Marks become placeholders in order.**  A text falls into pieces in exactly one way.  It is
put in a dialect if its single marks are as many as its arguments, mark number `k` as
placeholder `offset + k`, and refused as an invalid argument in every other case. -/
theorem withPlaceholders_cut (sql : String) (d : Dialect) (offset n : Nat) :
    ∃ pieces, (∀ ps, Cuts d sql.toList ps ↔ ps = pieces) ∧ join pieces = sql.toList ∧
      withPlaceholders sql d offset n =
        if pieces.count .mark = n then .ok (String.ofList (translated d offset pieces))
        else .error (.invalidArgument
          s!"statement has {pieces.count .mark} placeholders but {n} arguments were given") := by
  refine ⟨cut d sql.toList, cuts_iff d sql.toList, (cuts_cut d sql.toList).join_eq, ?_⟩
  simp only [withPlaceholders, markCount_eq_count, renderPieces_eq_translated]

end TableRecords.Sql
