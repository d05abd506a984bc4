import TableRecords.Proofs.Sql.Cutting

/-!
# Quoted identifiers in texts of callers

A caller may write a quoted identifier into a text with marks.  It is left alone if it is `Inert`:
no mark in it counts, and it leaves no span open.  Where one character opens and closes an
identifier, a doubled one closes a span and opens the next, and nothing gets out:

    d ≠ .sqlServer → Inert d (d.quoteIdent ident)                              (inert_quoteIdent)

Between brackets the first closing one ends the span, and what stands behind it is open:

    withPlaceholders_quoteIdent_iff
-/

namespace TableRecords.Sql

variable {d : Dialect} {opener closer body cs rest : List Char}

/-! ## Spans in a longer text -/

theorem Delimiters.blank_not_mem (h : Delimiters d opener closer) : ' ' ∉ opener := by
  cases h with
  | body _ tag htag =>
    have hblank : ' ' ∉ tag := by
      intro hm
      rcases htag.1 ' ' hm with h | h
      · exact absurd h (by decide)
      · exact absurd h (by decide)
    simp [hblank]
  | _ => decide

/-- Behind a blank no opener goes on. -/
theorem Delimiters.isPrefix_of_append (h : Delimiters d opener closer)
    (hpre : opener <+: cs ++ ' ' :: rest) : opener <+: cs := by
  obtain ⟨behind, hbehind⟩ := hpre
  rcases List.append_eq_append_iff.1 hbehind with ⟨more, rfl, -⟩ | ⟨more, rfl, hmore⟩
  · exact List.prefix_append _ _
  · cases more with
    | nil => simp
    | cons a more =>
      obtain rfl := (List.cons.inj hmore).1
      exact absurd (List.mem_append_right cs List.mem_cons_self) h.blank_not_mem

/-- Where a closer stands first does not depend on what follows. -/
theorem FirstAt.before (h : FirstAt closer body rest) (rest' : List Char) :
    FirstAt closer body rest' := by
  intro before behind heq
  by_contra hlt
  have hpre : before ++ closer <+: body ++ closer := by
    refine List.prefix_of_prefix_length_le ⟨behind, heq.symm⟩ ⟨rest', rfl⟩ ?_
    simp only [List.length_append]
    omega
  obtain ⟨more, hmore⟩ := hpre
  exact hlt (h before (more ++ rest) (by rw [← hmore, List.append_assoc]))

theorem firstAt_of_not_mem {c : Char} (h : c ∉ body) (rest : List Char) :
    FirstAt [c] body rest := by
  intro before behind heq
  by_contra hlt
  have hpre : before ++ [c] <+: body := by
    refine List.prefix_of_prefix_length_le ⟨behind, heq.symm⟩ ⟨[c] ++ rest, by simp⟩ ?_
    simp only [List.length_append, List.length_singleton]
    omega
  exact h (hpre.subset (by simp))

/-! ## Inert texts -/

/-- A text in which no mark counts and that leaves no span open. -/
inductive Inert (d : Dialect) : List Char → Prop
  | nil : Inert d []
  | span {opener closer body rest : List Char} :
      Delimiters d opener closer → FirstAt closer body rest → Inert d rest →
      Inert d (opener ++ (body ++ closer ++ rest))
  | char {c : Char} {rest : List Char} :
      c ≠ '?' → (∀ opener closer, Delimiters d opener closer → ¬ opener <+: c :: rest) →
      Inert d rest → Inert d (c :: rest)

/-- **An inert text is left alone**, and what follows it behind a blank is read as if it stood at
the front. -/
theorem renderPieces_of_inert (h : Inert d cs) (next : Nat) (rest : List Char) :
    renderPieces d next (cut d (cs ++ ' ' :: rest)) =
        cs ++ renderPieces d next (cut d (' ' :: rest)) ∧
      markCount (cut d (cs ++ ' ' :: rest)) = markCount (cut d (' ' :: rest)) := by
  induction h with
  | nil => exact ⟨rfl, rfl⟩
  | @span opener closer body tail hdel hfirst _ ih =>
    have htext : opener ++ (body ++ closer ++ tail) ++ ' ' :: rest =
        opener ++ (body ++ closer ++ (tail ++ ' ' :: rest)) := by simp
    rw [htext, cut_span hdel, upTo_of_firstAt hdel.closer_ne_nil (hfirst.before _)]
    refine ⟨?_, ih.2⟩
    show _ ++ renderPieces d next _ = _
    rw [ih.1]
    simp
  | @char c tail hc hno _ ih =>
    have hopen : opener? d c (tail ++ ' ' :: rest) = none := by
      refine (opener?_eq_none_iff ..).2 fun opener closer hdel hpre => ?_
      exact hno opener closer hdel (hdel.isPrefix_of_append hpre)
    rw [List.cons_append, cut_char hc hopen]
    refine ⟨?_, ih.2⟩
    show c :: renderPieces d next _ = _
    rw [ih.1]
    rfl

/-- A span at the front is taken away. -/
theorem inert_span_iff (hdel : Delimiters d opener closer) (hfirst : FirstAt closer body rest) :
    Inert d (opener ++ (body ++ closer ++ rest)) ↔ Inert d rest := by
  refine ⟨fun h => ?_, .span hdel hfirst⟩
  obtain ⟨c, more, rfl⟩ := List.exists_cons_of_ne_nil hdel.opener_ne_nil
  generalize htext : c :: more ++ (body ++ closer ++ rest) = cs at h
  cases h with
  | nil => exact absurd htext (by simp)
  | char _ hno => exact absurd ⟨_, htext⟩ (hno _ _ hdel)
  | @span opener' closer' body' rest' hdel' hfirst' h =>
    obtain ⟨c', more', rfl⟩ := List.exists_cons_of_ne_nil hdel'.opener_ne_nil
    rw [List.cons_append, List.cons_append] at htext
    obtain ⟨rfl, htail⟩ := List.cons.inj htext
    have ho := (opener?_eq_some_iff d c (more ++ (body ++ closer ++ rest)) more closer).2
      ⟨hdel, by simp⟩
    have ho' := (opener?_eq_some_iff d c (more ++ (body ++ closer ++ rest)) more' closer').2
      ⟨hdel', by rw [htail]; simp⟩
    obtain ⟨rfl, rfl⟩ := Prod.mk.inj (Option.some.inj (ho.symm.trans ho'))
    have hcut := upTo_of_firstAt hdel.closer_ne_nil hfirst
    rw [List.append_cancel_left htail, upTo_of_firstAt hdel.closer_ne_nil hfirst'] at hcut
    obtain ⟨-, rfl⟩ := Prod.mk.inj hcut
    exact h

/-- A character that opens nothing is taken away. -/
theorem inert_char_iff {c : Char} (hc : c ≠ '?')
    (hno : ∀ opener closer, Delimiters d opener closer → ¬ opener <+: c :: rest) :
    Inert d (c :: rest) ↔ Inert d rest := by
  refine ⟨fun h => ?_, .char hc hno⟩
  generalize htext : c :: rest = cs at h
  cases h with
  | nil => exact absurd htext (by simp)
  | char _ _ h =>
    obtain ⟨rfl, rfl⟩ := List.cons.inj htext
    exact h
  | @span opener closer _ _ hdel =>
    exact absurd ⟨_, htext.symm⟩ (hno opener closer hdel)

/-! ## Quoted identifiers -/

theorem doubleQuotes_of_not_mem {ident : List Char} (h : d.closeQuote ∉ ident) :
    d.doubleQuotes ident = ident := by
  unfold Dialect.doubleQuotes
  induction ident with
  | nil => rfl
  | cons c ident ih =>
    rw [List.mem_cons, not_or] at h
    rw [List.flatMap_cons, if_neg (Ne.symm h.1), ih h.2]
    rfl

/-- What is quoted up to its first closing quote. -/
theorem quoteIdent_append {before after : List Char} (h : d.closeQuote ∉ before) :
    d.quoteIdent (before ++ d.closeQuote :: after) =
      [d.openQuote] ++ (before ++ [d.closeQuote] ++
        (d.closeQuote :: d.doubleQuotes after ++ [d.closeQuote])) := by
  have hbefore := doubleQuotes_of_not_mem h
  unfold Dialect.doubleQuotes at hbefore
  simp [Dialect.quoteIdent, Dialect.doubleQuotes, hbefore]

theorem delimiters_quote (d : Dialect) : Delimiters d [d.openQuote] [d.closeQuote] := by
  cases d with
  | postgres | sqlite => exact .quoted
  | mysql => exact .backquoted rfl
  | sqlServer => exact .bracketed rfl

/-- An identifier without a closing quote is one span. -/
theorem inert_quoteIdent_of_not_mem {ident : List Char} (h : d.closeQuote ∉ ident) :
    Inert d (d.quoteIdent ident) := by
  have htext : d.quoteIdent ident = [d.openQuote] ++ (ident ++ [d.closeQuote] ++ []) := by
    rw [Dialect.quoteIdent, doubleQuotes_of_not_mem h]
    simp
  rw [htext]
  exact .span (delimiters_quote d) (firstAt_of_not_mem h []) .nil

/-- **Nothing gets out of quotes of one kind**: a doubled quote closes a span and opens the next. -/
theorem inert_quoteIdent (hquote : d.openQuote = d.closeQuote) (ident : List Char) :
    Inert d (d.quoteIdent ident) := by
  -- what follows the first quote of the identifier is shorter, and again between quotes
  induction hn : ident.length using Nat.strongRecOn generalizing ident with
  | ind n ih =>
    by_cases hmem : d.closeQuote ∈ ident
    · obtain ⟨before, after, rfl, hbefore⟩ := List.eq_append_cons_of_mem hmem
      rw [quoteIdent_append hbefore]
      refine .span (delimiters_quote d) (firstAt_of_not_mem hbefore _) ?_
      have hshort : after.length < n := by
        simp only [List.length_append, List.length_cons] at hn
        omega
      have hafter := ih _ hshort after rfl
      rwa [Dialect.quoteIdent, hquote] at hafter
    · exact inert_quoteIdent_of_not_mem hmem

/-- What stands behind the first closing bracket of an identifier stands in the open. -/
theorem inert_bracketed_iff (ident : List Char) :
    Inert .sqlServer (Dialect.sqlServer.quoteIdent ident) ↔
      ∀ before after, ident = before ++ ']' :: after → ']' ∉ before →
        Inert .sqlServer (Dialect.sqlServer.doubleQuotes after ++ [']']) := by
  have hsplit {before after : List Char} (hbefore : ']' ∉ before) :
      Inert .sqlServer (Dialect.sqlServer.quoteIdent (before ++ ']' :: after)) ↔
        Inert .sqlServer (Dialect.sqlServer.doubleQuotes after ++ [']']) := by
    have htext : Dialect.sqlServer.quoteIdent (before ++ ']' :: after) =
        ['['] ++ (before ++ [']'] ++ (']' :: Dialect.sqlServer.doubleQuotes after ++ [']'])) :=
      quoteIdent_append (d := .sqlServer) hbefore
    have hdel : Delimiters .sqlServer ['['] [']'] := .bracketed rfl
    rw [htext, inert_span_iff hdel (firstAt_of_not_mem hbefore _)]
    refine inert_char_iff (by decide) fun opener closer hdel hpre => ?_
    have hopen : opener? .sqlServer ']' (Dialect.sqlServer.doubleQuotes after ++ [']']) = none := by
      simp [opener?]
    exact (opener?_eq_none_iff ..).1 hopen opener closer hdel hpre
  constructor
  · rintro h before after rfl hbefore
    exact (hsplit hbefore).1 h
  · intro h
    by_cases hmem : ']' ∈ ident
    · obtain ⟨before, after, rfl, hbefore⟩ := List.eq_append_cons_of_mem hmem
      exact (hsplit hbefore).2 (h before after rfl hbefore)
    · exact inert_quoteIdent_of_not_mem hmem

/-! ## Comparing a column with an argument -/

/-- What compares a column with an argument, ` = ?`. -/
def equalsMark : List Char := [' ', '=', ' ', '?']

theorem cut_equalsMark (d : Dialect) :
    cut d equalsMark = [.char ' ', .char '=', .char ' ', .mark] := by
  have hblank (rest : List Char) : opener? d ' ' rest = none := by simp [opener?]
  have hequals (rest : List Char) : opener? d '=' rest = none := by simp [opener?]
  rw [equalsMark, cut_char (by decide) (hblank _), cut_char (by decide) (hequals _),
    cut_char (by decide) (hblank _), cut_mark (by decide), cut]

/-- What closes a span of SQL Server is no part of ` = ?`. -/
theorem Delimiters.closer_apart (h : Delimiters .sqlServer opener closer) :
    ∀ c ∈ closer, c ∉ equalsMark := by
  cases h with
  | backquoted hd => exact absurd hd (by decide)
  | body hd => exact absurd hd (by decide)
  | _ => simp [equalsMark]

/-- A closer in front of ` = ?` does not reach into it. -/
theorem Delimiters.exists_rest (h : Delimiters .sqlServer opener closer)
    (htext : cs ++ equalsMark = body ++ closer ++ rest) :
    ∃ tail, cs = body ++ closer ++ tail ∧ rest = tail ++ equalsMark := by
  rcases List.append_eq_append_iff.1 htext with ⟨more, hclosed, hmore⟩ | ⟨tail, hcs, hrest⟩
  · rcases List.eq_nil_or_concat more with rfl | ⟨init, c, rfl⟩
    · exact ⟨[], by simpa using hclosed.symm, by simpa using hmore.symm⟩
    · -- the last character of the closer would stand in ` = ?`
      obtain ⟨init', c', rfl⟩ := (List.eq_nil_or_concat closer).resolve_left h.closer_ne_nil
      have hlast := congrArg List.getLast? hclosed
      simp only [List.concat_eq_append, ← List.append_assoc, List.getLast?_concat] at hlast
      obtain rfl := Option.some.inj hlast
      refine absurd ?_ (h.closer_apart c' (by simp))
      rw [hmore]
      simp
  · exact ⟨tail, hcs, hrest⟩

theorem length_renderPieces_of_none {ps : List Piece} (h : markCount ps = 0) (next : Nat) :
    (renderPieces d next ps).length ≤ (join ps).length := by
  induction ps with
  | nil => exact Nat.le_refl 0
  | cons p ps ih =>
    cases p with
    | mark => exact absurd h (by simp [markCount])
    | span cs | escaped | char c =>
      have ih := ih (by simpa [markCount] using h)
      simp only [renderPieces, join, List.flatMap_cons, Piece.chars, List.length_append,
        List.length_cons, List.length_nil] at ih ⊢
      omega

/-- One placeholder makes a text of SQL Server longer by two characters. -/
theorem length_renderPieces_of_one {ps : List Piece} (h : markCount ps = 1) :
    (renderPieces .sqlServer 1 ps).length ≤ (join ps).length + 2 := by
  induction ps with
  | nil => exact absurd h (by decide)
  | cons p ps ih =>
    cases p with
    | mark =>
      have hnone : markCount ps = 0 := by simpa [markCount] using h
      have hrest : (renderPieces .sqlServer (1 + 1) ps).length ≤ (join ps).length :=
        length_renderPieces_of_none hnone (1 + 1)
      have hparam : (Dialect.sqlServer.placeholder 1).length = 3 := by decide
      simp only [renderPieces, join, List.flatMap_cons, Piece.chars, List.length_append,
        List.length_cons, List.length_nil, hparam] at hrest ⊢
      omega
    | span cs | escaped | char c =>
      have ih := ih (by simpa [markCount] using h)
      simp only [renderPieces, join, List.flatMap_cons, Piece.chars, List.length_append,
        List.length_cons, List.length_nil] at ih ⊢
      omega

/-- A text of SQL Server that comes out unchanged in front of its only placeholder is inert. -/
theorem inert_of_renderPieces (hcount : markCount (cut .sqlServer (cs ++ equalsMark)) = 1)
    (hrender : renderPieces .sqlServer 1 (cut .sqlServer (cs ++ equalsMark)) =
      cs ++ [' ', '=', ' ', '@', 'p', '1']) : Inert .sqlServer cs := by
  -- the rest behind a span is no longer than the text, so the induction is on the length
  induction hn : cs.length using Nat.strongRecOn generalizing cs with
  | ind n ih =>
    cases cs with
    | nil => exact .nil
    | cons c cs =>
      simp only [List.length_cons] at hn
      rw [List.cons_append] at hcount hrender
      cases ho : opener? .sqlServer c (cs ++ equalsMark) with
      | some found =>
        obtain ⟨hdel, hpre⟩ := (opener?_eq_some_iff _ _ _ found.1 found.2).1 ho
        rw [← List.cons_append] at hpre
        obtain ⟨inner, hinner⟩ := hdel.isPrefix_of_append hpre
        have htext : c :: (cs ++ equalsMark) = (c :: found.1) ++ (inner ++ equalsMark) := by
          rw [← List.append_assoc, hinner]
          rfl
        rw [htext, cut_span hdel] at hcount hrender
        rw [← hinner] at hrender ⊢
        rcases exists_firstAt_or_none found.2 (inner ++ equalsMark) with
          ⟨body, rest, hbody, hfirst⟩ | hnone
        · obtain ⟨tail, rfl, rfl⟩ := hdel.exists_rest hbody
          rw [hbody, upTo_of_firstAt hdel.closer_ne_nil hfirst] at hcount hrender
          have hshort : tail.length < n := by
            have hlength := congrArg List.length hinner
            simp only [List.length_append, List.length_cons] at hlength
            omega
          refine .span hdel (hfirst.before _) (ih _ hshort hcount ?_ rfl)
          have hrender : _ ++ renderPieces _ 1 (cut _ (tail ++ equalsMark)) = _ := hrender
          simpa using hrender
        · -- the span swallows the mark
          rw [upTo_eq_self hnone, cut] at hrender
          exact absurd hrender (by simp [renderPieces, equalsMark])
      | none =>
        by_cases hc : c = '?'
        · subst hc
          by_cases hhead : (cs ++ equalsMark).head? = some '?'
          · obtain ⟨tail, htail⟩ := List.head?_eq_some_iff.1 hhead
            rw [htail, cut_escaped] at hcount hrender
            have hone : markCount (cut .sqlServer tail) = 1 := by simpa [markCount] using hcount
            have hlength := length_renderPieces_of_one hone
            rw [(cuts_cut _ _).join_eq] at hlength
            have hrender := congrArg List.length hrender
            have htail := congrArg List.length htail
            simp only [renderPieces, List.length_append, List.length_cons, equalsMark,
              List.length_nil] at hrender htail
            omega
          · rw [cut_mark hhead] at hrender
            have hfirst := congrArg List.head? hrender
            exact absurd hfirst (by simp [renderPieces, Dialect.placeholder])
        · rw [cut_char hc ho] at hcount hrender
          refine .char hc (fun opener closer hdel hpre => ?_) (ih cs.length (by omega) ?_ ?_ rfl)
          · exact (opener?_eq_none_iff ..).1 ho opener closer hdel
              (hpre.trans (List.prefix_append _ _))
          · simpa [markCount] using hcount
          · exact (List.cons.inj hrender).2

theorem withPlaceholders_eq_ok_iff {sql text : String} {offset n : Nat} :
    withPlaceholders sql d offset n = .ok text ↔
      markCount (cut d sql.toList) = n ∧
        renderPieces d (offset + 1) (cut d sql.toList) = text.toList := by
  unfold withPlaceholders
  dsimp only
  split
  · next hcount => simp [hcount, ← String.toList_inj]
  · next hcount => simp [hcount]

/-- An inert text may stand in front of a comparison with an argument. -/
theorem withPlaceholders_of_inert (h : Inert d cs) :
    withPlaceholders (String.ofList (cs ++ equalsMark)) d 0 1 =
      .ok (String.ofList (cs ++ ([' ', '=', ' '] ++ d.placeholder 1))) := by
  obtain ⟨hrender, hcount⟩ := renderPieces_of_inert h 1 ['=', ' ', '?']
  have hmark : cut d [' ', '=', ' ', '?'] = [.char ' ', .char '=', .char ' ', .mark] :=
    cut_equalsMark d
  rw [hmark] at hrender hcount
  rw [withPlaceholders_eq_ok_iff, String.toList_ofList, String.toList_ofList]
  refine ⟨hcount, hrender.trans ?_⟩
  simp [renderPieces]

/-- **A quoted identifier in a text of a caller** is left alone, so that a column may be compared
with an argument, whatever its name holds; but on SQL Server only if what stands behind its first
closing bracket is inert. -/
theorem withPlaceholders_quoteIdent_iff (d : Dialect) (ident : String) :
    withPlaceholders (String.ofList (d.quoteIdent ident.toList) ++ " = ?") d 0 1 =
        .ok (String.ofList (d.quoteIdent ident.toList) ++ " = " ++
          String.ofList (d.placeholder 1)) ↔
      (d = .sqlServer → ∀ before after, ident.toList = before ++ ']' :: after → ']' ∉ before →
        Inert .sqlServer (Dialect.sqlServer.doubleQuotes after ++ [']'])) := by
  have hsql (cs : List Char) : String.ofList cs ++ " = ?" = String.ofList (cs ++ equalsMark) :=
    String.ofList_append.symm
  have htext (cs : List Char) : String.ofList cs ++ " = " ++ String.ofList (d.placeholder 1) =
      String.ofList (cs ++ ([' ', '=', ' '] ++ d.placeholder 1)) := by
    rw [← List.append_assoc, String.ofList_append, String.ofList_append]
  rw [hsql, htext]
  by_cases hd : d = .sqlServer
  · subst hd
    rw [forall_prop_of_true rfl, ← inert_bracketed_iff]
    refine ⟨fun h => ?_, withPlaceholders_of_inert⟩
    rw [withPlaceholders_eq_ok_iff, String.toList_ofList, String.toList_ofList] at h
    exact inert_of_renderPieces h.1 h.2
  · have hquote : d.openQuote = d.closeQuote := by
      cases d with
      | sqlServer => exact absurd rfl hd
      | postgres | mysql | sqlite => rfl
    exact ⟨fun _ h => absurd h hd,
      fun _ => withPlaceholders_of_inert (inert_quoteIdent hquote ident.toList)⟩

/-- A mark behind a closing bracket counts, although it stands in the name of a column. -/
theorem not_withPlaceholders_quoteIdent :
    ¬ ∀ (d : Dialect) (ident : String),
      withPlaceholders (String.ofList (d.quoteIdent ident.toList) ++ " = ?") d 0 1 =
        .ok (String.ofList (d.quoteIdent ident.toList) ++ " = " ++
          String.ofList (d.placeholder 1)) := by
  intro h
  exact absurd (h .sqlServer "a]?") (by decide +kernel)

end TableRecords.Sql
