import TableRecords.Proofs.Embedded.Token
import TableRecords.Proofs.Record.Fields
import TableRecords.Proofs.Sql.Cutting
import TableRecords.Proofs.Sql.Reading
import TableRecords.Proofs.Text.Words
import TableRecords.Statement.Select

/-!
# Statements of callers that begin with FROM

A statement that begins with `FROM` gets the columns of the record type in front.  The rest is the
text of the caller in the dialect, with the placeholders and arguments that it has by itself:

    selectSql_prefixed_iff

What is looked for is the letters of `FROM` and a blank.  This is the keyword where a blank stands
behind the letters or more of a name does, but a parenthesis, a quote, a comment or the end of the
text may follow the keyword too.
-/

namespace TableRecords

open Text (BeginsWith FirstWord isBlank)

namespace Sql

/-! ## Blanks in front of a text -/

variable {d : Dialect} {blanks : List Char}

/-- No span opens with a blank. -/
theorem opener?_of_isBlank {c : Char} (hc : isBlank c = true) (rest : List Char) :
    opener? d c rest = none := by
  have hne {a : Char} (ha : isBlank a = false) : c ≠ a := Text.ne_of_class hc ha
  simp [opener?, hne (a := '\x27') (by decide), hne (a := '\x22') (by decide),
    hne (a := '-') (by decide), hne (a := '/') (by decide), hne (a := '\x60') (by decide),
    hne (a := '[') (by decide), hne (a := '$') (by decide)]

theorem cut_blanks (hblanks : ∀ c ∈ blanks, isBlank c) (cs : List Char) :
    cut d (blanks ++ cs) = blanks.map .char ++ cut d cs := by
  induction blanks with
  | nil => rfl
  | cons c blanks ih =>
    rw [List.forall_mem_cons] at hblanks
    rw [List.cons_append, cut_char (Text.ne_of_class hblanks.1 (by decide))
      (opener?_of_isBlank hblanks.1 _), ih hblanks.2]
    rfl

theorem renderPieces_chars (d : Dialect) (next : Nat) (cs : List Char) (ps : List Piece) :
    renderPieces d next (cs.map .char ++ ps) = cs ++ renderPieces d next ps := by
  induction cs with
  | nil => rfl
  | cons c cs ih =>
    show c :: renderPieces d next (cs.map .char ++ ps) = _
    rw [ih, List.cons_append]

theorem markCount_chars (cs : List Char) (ps : List Piece) :
    markCount (cs.map .char ++ ps) = markCount ps := by
  rw [markCount, List.countP_append, List.countP_eq_zero.2, Nat.zero_add, markCount]
  intro p hp
  obtain ⟨c, -, rfl⟩ := List.mem_map.1 hp
  simp

/-- A text is put in a dialect with its blanks in front or without. -/
theorem withPlaceholders_trimStart (sql : String) (d : Dialect) (offset n : Nat) :
    withPlaceholders sql d offset n =
      (withPlaceholders (Text.trimStart sql) d offset n).map
        (String.ofList (sql.toList.takeWhile isBlank) ++ ·) := by
  have hcut : cut d sql.toList =
      (sql.toList.takeWhile isBlank).map .char ++ cut d (Text.trimStart sql).toList := by
    rw [Text.trimStart, String.toList_ofList, ← cut_blanks (List.all_eq_true.1 List.all_takeWhile),
      Text.trimFront, List.takeWhile_append_dropWhile]
  simp only [withPlaceholders, hcut, markCount_chars, renderPieces_chars]
  split
  · simp [Except.map, String.ofList_append]
  · rfl

end Sql

namespace Statement

/-! ## The columns in front -/

variable {m : Mapping} {d : Dialect} {sql : String} {args : List Value} {st : Statement}

/-- What is put in front of a statement that begins with `FROM`: the columns of the mapping in
quotes. -/
def selection (m : Mapping) (d : Dialect) : List Char :=
  "SELECT ".toList ++ ", ".toList.intercalate (m.columns.map fun c => d.quoteIdent c.toList) ++
    " ".toList

theorem selection_ne_nil (m : Mapping) (d : Dialect) : selection m d ≠ [] :=
  List.append_ne_nil_of_right_ne_nil _ (by decide)

theorem flatMap_selection (m : Mapping) (d : Dialect) :
    (Sql.Fragment.text "SELECT " :: Sql.columnList m.columns ++ [Sql.Fragment.text " "]).flatMap
      (Sql.Fragment.chars d) = selection m d := by
  have hcolumns : (Sql.columnList m.columns).flatMap (Sql.Fragment.chars d) =
      ", ".toList.intercalate (m.columns.map fun c => d.quoteIdent c.toList) := by
    refine (Sql.flatMap_separated d ", " _).trans (congrArg _ ?_)
    rw [List.map_map]
    exact List.map_congr_left fun c _ => List.append_nil _
  rw [List.cons_append, List.flatMap_cons, List.flatMap_append, hcolumns, List.flatMap_singleton]
  exact (List.append_assoc ..).symm

theorem beginsWithFrom_iff (cs : List Char) :
    beginsWithFrom (Text.trimFront cs) = true ↔
      ∃ behind, BeginsWith "from" behind cs ∧ behind.head?.any isBlank = true := by
  have hdrop {letters : List Char} (behind : List Char)
      (hletters : letters.map Char.toLower = "from".toList) :
      (letters ++ behind).drop 4 = behind := by
    have hlength : letters.length = 4 := by rw [← List.length_map Char.toLower, hletters]; rfl
    rw [← hlength, List.drop_left]
  have hbegins (behind : List Char) : BeginsWith "from" behind cs ↔ _ :=
    Text.beginsWith_iff (by decide)
  simp only [beginsWithFrom, Bool.and_eq_true, Text.opensWith_eq_true_iff, hbegins]
  constructor
  · rintro ⟨⟨letters, behind, hcs, hletters⟩, hblank⟩
    rw [hcs, hdrop behind hletters] at hblank
    exact ⟨behind, ⟨letters, hcs, hletters⟩, hblank⟩
  · rintro ⟨behind, ⟨letters, hcs, hletters⟩, hblank⟩
    refine ⟨⟨letters, behind, hcs, hletters⟩, ?_⟩
    rwa [hcs, hdrop behind hletters]

/-- What a statement of a caller comes to. -/
theorem selectSql_eq_ok (h : selectSql m d sql args = .ok st) :
    ∃ written : List Char,
      Sql.withPlaceholders (Text.trimStart sql) d 0 args.length = .ok (String.ofList written) ∧
      st.args = args ∧ st.columns = m.columns ∧
      st.sql.toList =
        (if beginsWithFrom (Text.trimFront sql.toList) then selection m d else []) ++ written := by
  cases hwritten : Sql.withPlaceholders (Text.trimStart sql) d 0 args.length with
  | error e =>
    simp only [selectSql, hwritten] at h
    cases h
  | ok written =>
    simp only [selectSql, hwritten] at h
    obtain rfl := Except.ok.inj h
    refine ⟨written.toList, by rw [String.ofList_toList], rfl, rfl, ?_⟩
    rw [Text.trimStart, String.toList_ofList]
    simp only [Sql.render, String.toList_ofList, List.flatMap_append]
    split
    · rw [flatMap_selection]
      simp [Sql.Fragment.chars]
    · simp [Sql.Fragment.chars]

/-- Behind the letters of `FROM` stands neither a blank nor more of a name, or else a blank that
continues a name. -/
def MisreadsFrom (isName : Char → Bool) (cs : List Char) : Prop :=
  ∃ behind, BeginsWith "from" behind cs ∧ behind.head?.any isBlank = behind.head?.any isName

/-- A blank behind the letters of `FROM` is as good as the end of a name, unless these are misread. -/
theorem blank_iff_firstWord_iff (isName : Char → Bool) (cs : List Char) :
    ((∃ behind, BeginsWith "from" behind cs ∧ behind.head?.any isBlank = true) ↔
      FirstWord isName "from" cs) ↔ ¬ MisreadsFrom isName cs := by
  have hunique {behind behind' : List Char} (h : BeginsWith "from" behind cs)
      (h' : BeginsWith "from" behind' cs) : behind = behind' := h.unique (by decide) h'
  constructor
  · rintro hiff ⟨behind, hbehind, hsame⟩
    cases hblank : behind.head?.any isBlank with
    | true =>
      obtain ⟨behind', hbehind', hname⟩ := hiff.1 ⟨behind, hbehind, hblank⟩
      obtain rfl := hunique hbehind hbehind'
      exact absurd (hblank.symm.trans (hsame.trans hname)) (by decide)
    | false =>
      obtain ⟨behind', hbehind', hblank'⟩ := hiff.2 ⟨behind, hbehind, hsame.symm.trans hblank⟩
      obtain rfl := hunique hbehind hbehind'
      exact absurd (hblank.symm.trans hblank') (by decide)
  · intro hread
    constructor
    · rintro ⟨behind, hbehind, hblank⟩
      refine ⟨behind, hbehind, Bool.eq_false_iff.2 fun hname => hread ⟨behind, hbehind, ?_⟩⟩
      rw [hblank, hname]
    · rintro ⟨behind, hbehind, hname⟩
      refine ⟨behind, hbehind, ?_⟩
      by_contra hblank
      exact hread ⟨behind, hbehind, (Bool.eq_false_iff.2 hblank).trans hname.symm⟩

/-- **The columns stand in front of a statement exactly if it begins with `FROM` and a blank**, and
the rest is the text of the caller in the dialect, less the blanks in front, with the numbers and
arguments that it has by itself.  That is to say exactly if the first word is `FROM`, whatever
characters continue a name, unless what stands behind its letters is neither a blank nor more of a
name, or both. -/
theorem selectSql_prefixed_iff (h : selectSql m d sql args = .ok st) (isName : Char → Bool) :
    ∃ written : List Char,
      Sql.withPlaceholders sql d 0 args.length =
        .ok (String.ofList (sql.toList.takeWhile isBlank ++ written)) ∧
      st.args = args ∧ st.columns = m.columns ∧
      (st.sql.toList = selection m d ++ written ∨ st.sql.toList = written) ∧
      (st.sql.toList = selection m d ++ written ↔
        ∃ behind, BeginsWith "from" behind sql.toList ∧ behind.head?.any isBlank = true) ∧
      ((st.sql.toList = selection m d ++ written ↔ FirstWord isName "from" sql.toList) ↔
        ¬ MisreadsFrom isName sql.toList) := by
  obtain ⟨written, hwritten, hargs, hcolumns, hsql⟩ := selectSql_eq_ok h
  have htext : Sql.withPlaceholders sql d 0 args.length =
      .ok (String.ofList (sql.toList.takeWhile isBlank ++ written)) := by
    rw [Sql.withPlaceholders_trimStart, hwritten, String.ofList_append]
    rfl
  have hprefixed : st.sql.toList = selection m d ++ written ↔
      beginsWithFrom (Text.trimFront sql.toList) = true := by
    rw [hsql]
    split
    · next hfrom => simp only [hfrom]
    · next hfrom =>
      rw [List.nil_append, List.self_eq_append_left]
      exact iff_of_false (selection_ne_nil m d) hfrom
  refine ⟨written, htext, hargs, hcolumns, ?_, ?_, ?_⟩
  · rw [hsql]
    split
    · exact .inl rfl
    · exact .inr rfl
  · rw [hprefixed, beginsWithFrom_iff]
  · rw [hprefixed, beginsWithFrom_iff, blank_iff_firstWord_iff]

/-- A read of notes from `FROM` on, with a mark in a comment. -/
def noteSource : String := "\n from\tnotes -- ?\n WHERE code = ?"

theorem withPlaceholders_noteSource :
    Sql.withPlaceholders (Text.trimStart noteSource) .postgres 0 1 =
      .ok "from\tnotes -- ?\n WHERE code = $1" := by
  decide +kernel

theorem selectSql_prefixed_iff_note : ∃ st written,
    selectSql noteMapping .postgres noteSource [.text "a"] = .ok st ∧
      st.sql.toList = selection noteMapping .postgres ++ written ∧
      FirstWord Embedded.Token.isNameChar "from" noteSource.toList ∧ st.args = [.text "a"] := by
  have hst : ∃ st, selectSql noteMapping .postgres noteSource [.text "a"] = .ok st := by
    simp only [selectSql, List.length_singleton, withPlaceholders_noteSource]
    exact ⟨_, rfl⟩
  obtain ⟨st, hst⟩ := hst
  have hbegins : BeginsWith "from" "\tnotes -- ?\n WHERE code = ?".toList noteSource.toList :=
    ⟨['\n', ' '], "from".toList, by decide +kernel, by simp [isBlank], by decide +kernel⟩
  have hname : FirstWord Embedded.Token.isNameChar "from" noteSource.toList :=
    ⟨_, hbegins, by decide +kernel⟩
  obtain ⟨written, -, hargs, -, -, hprefixed, -⟩ :=
    selectSql_prefixed_iff hst Embedded.Token.isNameChar
  exact ⟨st, written, hst, hprefixed.2 ⟨_, hbegins, by decide +kernel⟩, hname, hargs⟩

/-- A read from a table expression, with nothing between the keyword and the parenthesis. -/
def groupSource : String := "FROM(SELECT 1)"

theorem withPlaceholders_groupSource :
    Sql.withPlaceholders (Text.trimStart groupSource) .sqlite 0 0 = .ok groupSource := by
  decide +kernel

/-- The first token of a statement may be `FROM` without columns in front. -/
theorem not_selectSql_prefixed_iff_scan :
    ¬ ∀ (m : Mapping) (sql : String) (args : List Value) (st : Statement) (written : String),
      selectSql m .sqlite sql args = .ok st →
      Sql.withPlaceholders (Text.trimStart sql) .sqlite 0 args.length = .ok written →
      (st.sql.toList = selection m .sqlite ++ written.toList ↔
        ∃ t ts, Embedded.Token.scan (Text.trimStart sql) = t :: ts ∧ t.start = 0 ∧
          t.lexeme.Says "from") := by
  intro h
  have hst : ∃ st, selectSql noteMapping .sqlite groupSource [] = .ok st ∧
      st.sql = groupSource := by
    simp only [selectSql, List.length_nil, withPlaceholders_groupSource]
    exact ⟨_, rfl, rfl⟩
  obtain ⟨st, hst, hsql⟩ := hst
  have hword : FirstWord Embedded.Token.isNameChar "from" groupSource.toList :=
    ⟨"(SELECT 1)".toList, ⟨[], "FROM".toList, by decide +kernel, nofun, by decide +kernel⟩,
      by decide +kernel⟩
  have htoken := (Embedded.Token.firstWord_iff_scan (a := 'f') (by decide) (by decide)
    (by decide) groupSource).1 hword
  have hprefixed := (h noteMapping groupSource [] st _ hst withPlaceholders_groupSource).2 htoken
  rw [hsql] at hprefixed
  exact absurd (congrArg List.length hprefixed) (by decide +kernel)

end Statement
end TableRecords
