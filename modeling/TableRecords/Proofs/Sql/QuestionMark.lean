import TableRecords.Proofs.Sql.Identifier

/-!
# Question marks outside of spans

No opener of a span holds a question mark, and a span runs up to its closer whatever follows.  So
the marks outside of the spans of a text can be written in any number, and the spans stay where
they were (`Rewrites.cut_written`).  A text is therefore given back if they are doubled:

    withPlaceholders (doubled text) d offset 0 = .ok text                 (withPlaceholders_doubled)

Where a placeholder is a question mark, those that a driver meets are the arguments and one more for
each doubled mark:

    openMarks d text = n + (cut d sql).count .escaped               (openMarks_of_withPlaceholders)
-/

namespace TableRecords.Sql

variable {d : Dialect} {opener closer body cs rest : List Char} {ps : List Piece}

/-! ## Writing question marks anew -/

/-- Writes the pieces of a text as they are, but for question marks outside of spans: of these at
least one stays. -/
structure Rewrites (write : Piece → List Char) : Prop where
  span : ∀ cs, write (.span cs) = cs
  char : ∀ c, c ≠ '?' → write (.char c) = [c]
  escaped : (write .escaped).head? = some '?'
  mark : (write .mark).head? = some '?'

theorem Delimiters.mark_not_mem (h : Delimiters d opener closer) : '?' ∉ opener := by
  cases h with
  | body _ tag htag =>
    have hmark : '?' ∉ tag := by
      intro hm
      rcases htag.1 '?' hm with h | h
      · exact absurd h (by decide)
      · exact absurd h (by decide)
    simp [hmark]
  | _ => decide

/-- Whether a span opens is told by the text up to the first question mark. -/
theorem Delimiters.isPrefix_takeWhile (h : Delimiters d opener closer) (hpre : opener <+: cs) :
    opener <+: cs.takeWhile (· != '?') := by
  obtain ⟨behind, rfl⟩ := hpre
  have hall : ∀ c ∈ opener, (c != '?') = true := by
    intro c hc
    simp only [bne_iff_ne]
    rintro rfl
    exact h.mark_not_mem hc
  rw [List.takeWhile_append_of_pos hall]
  exact List.prefix_append _ _

theorem takeWhile_of_head {cs : List Char} (h : cs.head? = some '?') (rest : List Char) :
    (cs ++ rest).takeWhile (· != '?') = [] := by
  obtain ⟨tail, rfl⟩ := List.head?_eq_some_iff.1 h
  simp

namespace Rewrites

variable {write : Piece → List Char}

/-- Up to the first question mark outside of a span nothing changes. -/
theorem takeWhile_eq (hw : Rewrites write) (h : Cuts d cs ps) :
    (ps.flatMap write).takeWhile (· != '?') = cs.takeWhile (· != '?') := by
  induction h with
  | nil => rfl
  | closed _ _ _ ih =>
    rw [List.flatMap_cons, hw.span, ← List.append_assoc, List.takeWhile_append, ih,
      ← List.takeWhile_append]
    simp
  | unclosed _ _ => rw [List.flatMap_singleton, hw.span]
  | escaped _ _ =>
    rw [List.flatMap_cons, takeWhile_of_head hw.escaped]
    simp
  | mark _ _ _ =>
    rw [List.flatMap_cons, takeWhile_of_head hw.mark]
    simp
  | char hc _ _ ih =>
    rw [List.flatMap_cons, hw.char _ hc, List.singleton_append, List.takeWhile_cons,
      List.takeWhile_cons, ih]

/-- **Spans stay where they are.**  Let `split` take some question marks of a cut apart.  If the
written marks are read as `again` tells, whatever follows them, so is the whole text. -/
theorem cut_written (hw : Rewrites write) (split again : Piece → List Piece)
    (hspan : ∀ cs, split (.span cs) = [.span cs] ∧ again (.span cs) = [.span cs])
    (hchar : ∀ c, split (.char c) = [.char c] ∧ again (.char c) = [.char c])
    (hescaped : ∀ rest, (cut d (write .escaped ++ rest)).flatMap split =
      again .escaped ++ (cut d rest).flatMap split)
    (hmark : ∀ rest, (cut d (write .mark ++ rest)).flatMap split =
      again .mark ++ (cut d rest).flatMap split) (h : Cuts d cs ps) :
    (cut d (ps.flatMap write)).flatMap split = ps.flatMap again := by
  induction h with
  | nil => rw [List.flatMap_nil, cut, List.flatMap_nil, List.flatMap_nil]
  | @closed opener closer body _ ps hdel hfirst _ ih =>
    have htext : opener ++ (body ++ closer) ++ ps.flatMap write =
        opener ++ (body ++ closer ++ ps.flatMap write) := by simp
    rw [List.flatMap_cons, hw.span, htext, cut_span hdel,
      upTo_of_firstAt hdel.closer_ne_nil (hfirst.before _), List.flatMap_cons, ih,
      List.flatMap_cons, (hspan _).1, (hspan _).2]
  | unclosed hdel hno =>
    rw [List.flatMap_singleton, hw.span, cut_span hdel, upTo_eq_self hno, cut,
      List.flatMap_singleton, List.flatMap_singleton, (hspan _).1, (hspan _).2]
  | escaped _ ih => rw [List.flatMap_cons, hescaped, ih, List.flatMap_cons]
  | mark _ _ ih => rw [List.flatMap_cons, hmark, ih, List.flatMap_cons]
  | @char c rest ps hc hno h ih =>
    have hsame : (c :: ps.flatMap write).takeWhile (· != '?') =
        (c :: rest).takeWhile (· != '?') := by
      rw [List.takeWhile_cons, List.takeWhile_cons, hw.takeWhile_eq h]
    have hopen : opener? d c (ps.flatMap write) = none := by
      refine (opener?_eq_none_iff ..).2 fun opener closer hdel hpre => hno opener closer hdel ?_
      exact (hsame ▸ hdel.isPrefix_takeWhile hpre).trans (List.takeWhile_prefix _)
    rw [List.flatMap_cons, hw.char c hc, List.singleton_append, cut_char hc hopen,
      List.flatMap_cons, ih, List.flatMap_cons, (hchar c).1, (hchar c).2]

end Rewrites

/-! ## Doubling -/

/-- A piece with its question marks doubled, if it is no span. -/
def Piece.doubled : Piece → List Char
  | span cs => cs
  | p => p.chars.flatMap fun c => if c = '?' then ['?', '?'] else [c]

/-- A text with every question mark outside of its spans doubled. -/
def doubled (d : Dialect) (cs : List Char) : List Char := (cut d cs).flatMap Piece.doubled

/-- The pieces that a doubled piece falls into. -/
def Piece.escapes : Piece → List Piece
  | escaped => [escaped, escaped]
  | mark => [escaped]
  | p => [p]

theorem rewrites_doubled : Rewrites Piece.doubled where
  span _ := rfl
  char c hc := by simp [Piece.doubled, Piece.chars, hc]
  escaped := rfl
  mark := rfl

/-- Doubling opens, closes and moves no span. -/
theorem cut_doubled (d : Dialect) (cs : List Char) :
    cut d (doubled d cs) = (cut d cs).flatMap Piece.escapes := by
  have hpure (ps : List Piece) : ps.flatMap (fun p => [p]) = ps := List.flatMap_singleton' ps
  have hcut := rewrites_doubled.cut_written (fun p => [p]) Piece.escapes
    (fun _ => ⟨rfl, rfl⟩) (fun _ => ⟨rfl, rfl⟩) ?_ ?_ (cuts_cut d cs)
  · rwa [hpure] at hcut
  · intro rest
    rw [hpure, hpure]
    show cut d ('?' :: '?' :: '?' :: '?' :: rest) = _
    rw [cut_escaped, cut_escaped]
    rfl
  · intro rest
    rw [hpure, hpure]
    exact cut_escaped d rest

/-- Doubled question marks are no marks, and are written as they were before. -/
theorem renderPieces_escapes (d : Dialect) (next : Nat) (ps : List Piece) :
    renderPieces d next (ps.flatMap Piece.escapes) = join ps ∧
      markCount (ps.flatMap Piece.escapes) = 0 := by
  induction ps with
  | nil => exact ⟨rfl, rfl⟩
  | cons p ps ih =>
    obtain ⟨hrender, hcount⟩ := ih
    unfold join at hrender ⊢
    unfold markCount at hcount ⊢
    cases p <;> simp [Piece.escapes, renderPieces, Piece.chars, hrender, hcount]

/-- **Every text can be written.**  If its question marks outside of spans are doubled it is given
back, with no arguments and behind any others, and its spans stand where they stood. -/
theorem withPlaceholders_doubled (d : Dialect) (text : String) (offset : Nat) :
    withPlaceholders (String.ofList (doubled d text.toList)) d offset 0 = .ok text ∧
      cut d (doubled d text.toList) = (cut d text.toList).flatMap Piece.escapes := by
  have hcut := cut_doubled d text.toList
  obtain ⟨hrender, hcount⟩ := renderPieces_escapes d (offset + 1) (cut d text.toList)
  refine ⟨?_, hcut⟩
  rw [withPlaceholders_eq_ok_iff, String.toList_ofList, hcut]
  exact ⟨hcount, hrender.trans (cuts_cut d text.toList).join_eq⟩

/-! ## What a driver binds -/

/-- The text of a piece, if it is a span. -/
def Piece.spans : Piece → List (List Char)
  | span cs => [cs]
  | _ => []

/-- The protected spans of a text. -/
def spans (d : Dialect) (cs : List Char) : List (List Char) := (cut d cs).flatMap Piece.spans

/-- The characters of a piece outside of a span. -/
def Piece.openChars : Piece → List Char
  | span _ => []
  | p => p.chars

/-- How many question marks of a text stand outside of its protected spans. -/
def openMarks (d : Dialect) (cs : List Char) : Nat :=
  ((cut d cs).flatMap Piece.openChars).count '?'

/-- A doubled mark as two single ones. -/
def Piece.apart : Piece → List Piece
  | escaped => [mark, mark]
  | p => [p]

/-- A doubled mark as a single one. -/
def Piece.bare : Piece → Piece
  | escaped => mark
  | p => p

theorem count_openChars (h : Cuts d cs ps) :
    (ps.flatMap Piece.openChars).count '?' = (ps.flatMap Piece.apart).count .mark := by
  induction h with
  | nil => rfl
  | closed _ _ _ ih => simpa [Piece.openChars, Piece.apart] using ih
  | unclosed _ _ => rfl
  | escaped _ ih => simpa [Piece.openChars, Piece.chars, Piece.apart] using ih
  | mark _ _ ih => simpa [Piece.openChars, Piece.chars, Piece.apart] using ih
  | char hc _ _ ih => simpa [Piece.openChars, Piece.chars, Piece.apart, hc] using ih

theorem spans_apart (ps : List Piece) :
    (ps.flatMap Piece.apart).flatMap Piece.spans = ps.flatMap Piece.spans := by
  induction ps with
  | nil => rfl
  | cons p ps ih => cases p <;> simp [Piece.apart, Piece.spans, ih]

/-- Single marks for doubled ones leave the spans as they are. -/
theorem bare_pieces (ps : List Piece) :
    (ps.map Piece.bare).flatMap Piece.spans = ps.flatMap Piece.spans ∧
      (ps.map Piece.bare).count .mark = ps.count .mark + ps.count .escaped := by
  induction ps with
  | nil => exact ⟨rfl, rfl⟩
  | cons p ps ih =>
    obtain ⟨hspans, hcount⟩ := ih
    rw [List.map_cons, List.flatMap_cons, List.flatMap_cons, hspans, List.count_cons,
      List.count_cons, List.count_cons, hcount]
    refine ⟨by cases p <;> rfl, ?_⟩
    cases p <;> simp [Piece.bare] <;> omega

/-- A question mark in front is one more, however it is paired with those behind it. -/
theorem apart_cons (d : Dialect) (cs : List Char) :
    (cut d ('?' :: cs)).flatMap Piece.apart = .mark :: (cut d cs).flatMap Piece.apart := by
  induction cs with
  | nil =>
    rw [cut_mark (by simp), cut]
    rfl
  | cons c cs ih =>
    by_cases hc : c = '?'
    · subst hc
      rw [cut_escaped, List.flatMap_cons, ih]
      rfl
    · rw [cut_mark (by simpa using hc)]
      rfl

/-- Where every placeholder is a question mark, numbers do not show. -/
theorem renderPieces_eq_flatMap (hd : ∀ n, d.placeholder n = ['?']) (next : Nat)
    (ps : List Piece) : renderPieces d next ps = ps.flatMap (Piece.written d 0) := by
  induction ps generalizing next with
  | nil => rfl
  | cons p ps ih =>
    have hwritten : p.written d next = p.written d 0 := by
      cases p with
      | mark => exact (hd next).trans (hd 0).symm
      | span cs | escaped | char c => rfl
    rw [renderPieces_cons, hwritten, ih, List.flatMap_cons]

/-- A text in such a dialect falls into the pieces it was made from, each doubled mark as a single
one. -/
theorem apart_renderPieces (hd : ∀ n, d.placeholder n = ['?']) (next : Nat) (cs : List Char) :
    (cut d (renderPieces d next (cut d cs))).flatMap Piece.apart =
      (cut d cs).map Piece.bare := by
  have hw : Rewrites (Piece.written d 0) :=
    ⟨fun _ => rfl, fun _ _ => rfl, rfl, by simp [Piece.written, hd]⟩
  rw [renderPieces_eq_flatMap hd, ← List.flatMap_pure_eq_map]
  refine hw.cut_written _ _ (fun _ => ⟨rfl, rfl⟩) (fun _ => ⟨rfl, rfl⟩) (fun rest => ?_)
    (fun rest => ?_) (cuts_cut d cs)
  · exact apart_cons d rest
  · show (cut d (d.placeholder 0 ++ rest)).flatMap Piece.apart = _
    rw [hd]
    exact apart_cons d rest

/-- **The question marks of a driver are the arguments, and the doubled marks.**  On MySQL and
SQLite a text keeps its spans, and has outside of them a question mark for each argument and for
each doubled mark; so there are as many as arguments only if no mark is doubled. -/
theorem openMarks_of_withPlaceholders {sql text : String} {offset n : Nat}
    (hd : d = .mysql ∨ d = .sqlite) (h : withPlaceholders sql d offset n = .ok text) :
    spans d text.toList = spans d sql.toList ∧
      openMarks d text.toList = n + (cut d sql.toList).count .escaped ∧
      (openMarks d text.toList = n ↔ .escaped ∉ cut d sql.toList) := by
  have hplaceholder : ∀ n, d.placeholder n = ['?'] := by
    rcases hd with rfl | rfl <;> exact fun _ => rfl
  obtain ⟨hcount, htext⟩ := withPlaceholders_eq_ok_iff.1 h
  have hapart := apart_renderPieces hplaceholder (offset + 1) sql.toList
  obtain ⟨hspans, hbare⟩ := bare_pieces (cut d sql.toList)
  rw [htext] at hapart
  have hmarks : openMarks d text.toList = n + (cut d sql.toList).count .escaped := by
    rw [openMarks, count_openChars (cuts_cut d text.toList), hapart, hbare, ← hcount]
    rfl
  refine ⟨?_, hmarks, ?_⟩
  · rw [spans, ← spans_apart, hapart, hspans, spans]
  · rw [hmarks, ← List.count_eq_zero]
    omega

theorem openMarks_of_withPlaceholders_escaped :
    withPlaceholders "a ?? ? -- '?" .sqlite 0 1 = .ok "a ? ? -- '?" ∧
      openMarks .sqlite "a ? ? -- '?".toList = 1 + 1 := by
  have h : withPlaceholders "a ?? ? -- '?" .sqlite 0 1 = .ok "a ? ? -- '?" := by decide +kernel
  have hescaped : (cut .sqlite "a ?? ? -- '?".toList).count .escaped = 1 := by decide +kernel
  refine ⟨h, ?_⟩
  rw [(openMarks_of_withPlaceholders (.inr rfl) h).2.1, hescaped]

/-- A doubled mark is met by the driver as the placeholder of one more argument. -/
theorem not_openMarks_eq_argCount :
    ¬ ∀ (d : Dialect) (sql text : String) (offset n : Nat), d = .mysql ∨ d = .sqlite →
      withPlaceholders sql d offset n = .ok text → openMarks d text.toList = n := by
  intro h
  have hmarks := h .sqlite "a ?? b" "a ? b" 0 0 (.inr rfl) (by decide +kernel)
  exact absurd hmarks (by decide +kernel)

end TableRecords.Sql
