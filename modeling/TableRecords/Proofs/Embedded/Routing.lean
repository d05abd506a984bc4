import TableRecords.Embedded.Engine
import TableRecords.Proofs.Embedded.Store
import TableRecords.Proofs.Embedded.Token

/-!
# Where a pool runs a statement

A pool hands a query to a connection that only reads by the look of its text. Here a statement
that writes is described by its tokens: one of four keywords, perhaps behind a clause of table
expressions. The main result says which of these statements a query runs on the writer: all but
those that begin with the clause and nowhere mention `RETURNING`.
-/

namespace TableRecords.Embedded

/-! ## Statements by their tokens -/

namespace Lexeme

/-- Whether a token may be a name. -/
def IsName : Lexeme → Prop
  | .word _ | .name _ | .quoted _ | .string _ => True
  | _ => False

end Lexeme

/-- Tokens whose parentheses come in pairs. -/
inductive Paired : List Lexeme → Prop
  | nil : Paired []
  | token {l : Lexeme} {ls : List Lexeme} :
      l ≠ .symbol "(" → l ≠ .symbol ")" → Paired ls → Paired (l :: ls)
  | group {inner ls : List Lexeme} :
      Paired inner → Paired ls → Paired (.symbol "(" :: inner ++ .symbol ")" :: ls)

/-- Tokens between two parentheses that belong together. -/
def Grouped (ls : List Lexeme) : Prop :=
  ∃ inner, Paired inner ∧ ls = .symbol "(" :: inner ++ [.symbol ")"]

/-- Whether tokens say some keywords one after the other. -/
def Say (keywords : List String) (ls : List Lexeme) : Prop :=
  List.Forall₂ Lexeme.Says keywords ls

/-- A table expression: a name and perhaps columns for the query between parentheses, and perhaps
a word on how to keep its rows. -/
inductive TableExpression : List Lexeme → Prop
  | mk {name : Lexeme} {columns as hint query : List Lexeme} :
      name.IsName → (columns = [] ∨ Grouped columns) → Say ["as"] as →
      (hint = [] ∨ Say ["materialized"] hint ∨ Say ["not", "materialized"] hint) →
      Grouped query → TableExpression (name :: columns ++ as ++ hint ++ query)

/-- Table expressions with commas between them. -/
inductive TableExpressions : List Lexeme → Prop
  | one {ls : List Lexeme} : TableExpression ls → TableExpressions ls
  | more {ls others : List Lexeme} :
      TableExpression ls → TableExpressions others →
      TableExpressions (ls ++ .symbol "," :: others)

/-- The clause in front of a statement that gives names to queries. -/
inductive WithClause : List Lexeme → Prop
  | mk {opening : Lexeme} {recursive expressions : List Lexeme} :
      opening.Says "with" → (recursive = [] ∨ Say ["recursive"] recursive) →
      TableExpressions expressions → WithClause (opening :: recursive ++ expressions)

/-- A text is, behind blanks, a statement: perhaps a clause of table expressions, then a keyword
and the rest. -/
structure IsStatement (sql : String) (clause : List Lexeme) (keyword : String)
    (rest : List Lexeme) : Prop where
  opening : clause = [] ∨ WithClause clause
  tokens : ∃ blanks body main, sql.toList = blanks ++ body ∧ (∀ c ∈ blanks, Text.isBlank c) ∧
    main.Says keyword ∧
    (Token.scan (String.ofList body)).map Token.lexeme = clause ++ main :: rest

/-- The keywords of statements that write rows. -/
def writing : List String := ["insert", "update", "delete", "replace"]

/-! ## What a text tells -/

variable {sql keyword : String} {clause rest : List Lexeme}

theorem isReadOnly_eq_true_iff (sql : String) :
    isReadOnly sql = true ↔
      (Text.Begins "select" sql.toList ∨ Text.Begins "with" sql.toList) ∧
        ¬ Text.Mentions "returning" sql.toList := by
  rw [isReadOnly, Bool.and_eq_true, Bool.or_eq_true,
    Text.opensWith_trimFront_eq_true_iff (by decide),
    Text.opensWith_trimFront_eq_true_iff (by decide), Bool.not_eq_true', ← Bool.not_eq_true,
    Text.contains_eq_true_iff]
  rfl

/-- A text begins with no other letter than its first token does, if that is a keyword. -/
theorem head?_eq_of_begins {blanks body : List Char} {l : Lexeme} {ls : List Lexeme} {word : String}
    (hblanks : ∀ c ∈ blanks, Text.isBlank c)
    (hbody : (Token.scan (String.ofList body)).map Token.lexeme = l :: ls)
    (hsaid : l.Says keyword) (hkeyword : keyword.toList.head?.any Char.isAlpha = true)
    (hword : word.toList.head?.any Char.isAlpha = true)
    (h : Text.Begins word (blanks ++ body)) : word.toList.head? = keyword.toList.head? := by
  obtain ⟨t, ts, hscan, rfl, -⟩ := List.map_eq_cons_iff.1 hbody
  obtain ⟨a, ha, hletter⟩ := (Option.any_eq_true ..).1 hkeyword
  rw [Token.scan, String.toList_ofList] at hscan
  obtain ⟨c, behind, htrim, hc⟩ := Token.exists_trimFront_of_scanFrom hscan hsaid ha hletter
  rw [← Text.trimFront_append_of_blank hblanks] at htrim
  have hhead := h.head?_eq hword htrim
  rcases hc with hc | rfl
  · -- What begins a comment is no letter, and neither is a byte order mark.
    rw [hhead] at hword
    have hother : c.toLower.isAlpha = false := by
      simp only [List.mem_cons, List.not_mem_nil, or_false] at hc
      rcases hc with rfl | rfl | rfl <;> decide
    exact absurd hword (by simp [hother])
  · rw [hhead, ha]

/-- Keywords among the tokens of a text are mentioned in it. -/
theorem mentions_of_says {blanks body : List Char} {l : Lexeme}
    (hl : l ∈ (Token.scan (String.ofList body)).map Token.lexeme) (hsaid : l.Says keyword) :
    Text.Mentions keyword (blanks ++ body) := by
  obtain ⟨t, ht, rfl⟩ := List.mem_map.1 hl
  obtain ⟨s, hs, rfl⟩ := hsaid
  rw [Token.scan, String.toList_ofList] at ht
  rw [Text.Mentions, Text.asciiLower, String.toList_ofList]
  have hbody : s.toList <:+: blanks ++ body :=
    (Token.infix_of_mem_scanFrom ht hs).trans (List.suffix_append ..).isInfix
  exact hbody.map Char.toLower

namespace IsStatement

/-- A statement begins with the letter of its keyword, or of the clause in front of it. -/
theorem head?_of_begins (h : IsStatement sql clause keyword rest) (hkeyword : keyword ∈ writing)
    {word : String} (hword : word.toList.head?.any Char.isAlpha = true)
    (hbegins : Text.Begins word sql.toList) :
    clause = [] ∧ word.toList.head? = keyword.toList.head? ∨
      clause ≠ [] ∧ word.toList.head? = some 'w' := by
  obtain ⟨blanks, body, main, hsql, hblanks, hmain, htokens⟩ := h.tokens
  rw [hsql] at hbegins
  rcases h.opening with rfl | ⟨hopening, -, -⟩
  · have hletter : keyword.toList.head?.any Char.isAlpha = true := by
      simp only [writing, List.mem_cons, List.not_mem_nil, or_false] at hkeyword
      rcases hkeyword with rfl | rfl | rfl | rfl <;> decide
    exact .inl ⟨rfl, head?_eq_of_begins hblanks htokens hmain hletter hword hbegins⟩
  · refine .inr ⟨List.cons_ne_nil _ _, ?_⟩
    exact head?_eq_of_begins hblanks htokens hopening (by decide) hword hbegins

/-- No statement that writes begins with the keyword of a query. -/
theorem not_begins_select (h : IsStatement sql clause keyword rest) (hkeyword : keyword ∈ writing) :
    ¬ Text.Begins "select" sql.toList := by
  intro hbegins
  rcases h.head?_of_begins hkeyword (by decide) hbegins with ⟨-, hhead⟩ | ⟨-, hhead⟩
  · simp only [writing, List.mem_cons, List.not_mem_nil, or_false] at hkeyword
    rcases hkeyword with rfl | rfl | rfl | rfl <;> exact absurd hhead (by decide)
  · exact absurd hhead (by decide)

/-- A statement that begins with the keyword of a clause has one. -/
theorem clause_ne_nil (h : IsStatement sql clause keyword rest) (hkeyword : keyword ∈ writing)
    (hbegins : Text.Begins "with" sql.toList) : clause ≠ [] := by
  rcases h.head?_of_begins hkeyword (by decide) hbegins with ⟨-, hhead⟩ | ⟨hclause, -⟩
  · simp only [writing, List.mem_cons, List.not_mem_nil, or_false] at hkeyword
    rcases hkeyword with rfl | rfl | rfl | rfl <;> exact absurd hhead (by decide)
  · exact hclause

theorem mentions (h : IsStatement sql clause keyword rest) {word : String}
    (hword : ∃ l ∈ rest, l.Says word) : Text.Mentions word sql.toList := by
  obtain ⟨blanks, body, main, hsql, -, -, htokens⟩ := h.tokens
  obtain ⟨l, hl, hsaid⟩ := hword
  have hmem : l ∈ (Token.scan (String.ofList body)).map Token.lexeme :=
    htokens ▸ List.mem_append_right _ (List.mem_cons_of_mem _ hl)
  exact hsql ▸ mentions_of_says hmem hsaid

/-- Of the statements that write, those count as ones that only read that begin with a clause of
table expressions and nowhere mention `RETURNING`. -/
theorem isReadOnly_eq_true_iff (h : IsStatement sql clause keyword rest)
    (hkeyword : keyword ∈ writing) :
    isReadOnly sql = true ↔
      Text.Begins "with" sql.toList ∧ ¬ Text.Mentions "returning" sql.toList := by
  rw [Embedded.isReadOnly_eq_true_iff, or_iff_right (h.not_begins_select hkeyword)]

end IsStatement

/-! ## Where a query goes -/

namespace Store

variable {D : Driver}

/-- A query is one on the connection in a slot, or refused where that is empty.  Until then at most
the turn of a reader is noted. -/
def RunsOn (s : Store D) (h : Handle D) (sql : String) (slot : Slot D) : Prop :=
  ∃ s' : Store D, s'.world = s.world ∧ ∀ (τ : Type) (args : List Value) (o : τ),
    (∀ visitor : Action ((τ × Reader D) × Store D) Unit,
      (Store.visit h sql args visitor).exec (o, s) =
        (liftM (slot.open sql args.length) >>= fun c => visitOn c sql args visitor :
          Action (τ × Store D) Unit).exec (o, s')) ∧
    ∀ visitor : Action (τ × Cursor) Unit,
      (adapter.query h sql args visitor).exec (o, s) =
        (liftM (slot.open sql args.length) >>= fun c => visitOn c sql args (reading visitor) :
          Action (τ × Store D) Unit).exec (o, s')

variable {s s' : Store D} {h : Handle D} {sql : String} {slot : Slot D}

theorem runsOn_of_route (hroute : (route h sql).exec s = (.ok slot, s'))
    (hworld : s'.world = s.world) : s.RunsOn h sql slot := by
  have hvisit {τ : Type} (args : List Value) (visitor : Action ((τ × Reader D) × Store D) Unit)
      (o : τ) : (Store.visit h sql args visitor).exec (o, s) =
        (liftM (slot.open sql args.length) >>= fun c => visitOn c sql args visitor :
          Action (τ × Store D) Unit).exec (o, s') := by
    have hroute : (route h sql).onSecond.exec (o, s) = (.ok slot, (o, s')) := by
      rw [Action.exec_onSecond, hroute]
    unfold Store.visit
    rw [Action.exec_bind_ok hroute]
  exact ⟨s', hworld, fun τ args o =>
    ⟨fun visitor => hvisit args visitor o, fun visitor => hvisit args (reading visitor) o⟩⟩

/-- An adapter chooses the connection. -/
theorem runsOn_owner {i : Nat} {owner : Owner D} (howner : s.owners[i]? = some owner)
    (sql : String) : s.RunsOn (.owner i) sql (owner.route sql).1 := by
  have hroute : (route (.owner i) sql).exec s =
      (.ok (owner.route sql).1, { s with owners := s.owners.set i (owner.route sql).2 }) := by
    unfold route
    rw [Action.exec_of]
    dsimp only
    rw [howner]
  exact runsOn_of_route hroute rfl

/-- Within a transaction every query runs on its connection. -/
theorem runsOn_connection (s : Store D) (c : D.Connection) (sql : String) :
    s.RunsOn (.connection c) sql (some c) :=
  runsOn_of_route rfl rfl

variable {i turns : Nat} {writer : Slot D} {readers : List (Slot D)}

/-- What does not count as reading only, a pool runs on its writer. -/
theorem runsOn_writer (howner : s.owners[i]? = some (.pool writer readers turns))
    (hsql : isReadOnly sql = false) : s.RunsOn (.owner i) sql writer := by
  have hruns := runsOn_owner howner sql
  rwa [Owner.route_writer writer turns (.inl hsql)] at hruns

/-- A transaction of a pool is one on the connection of its writer. -/
theorem exec_transaction_pool (howner : s.owners[i]? = some (.pool writer readers turns)) {τ : Type}
    (body : Handle D → Action (τ × Store D) Unit) (o : τ) :
    (adapter.transaction (.owner i) body).exec (o, s) =
      (liftM (writer.open "BEGIN" 0) >>= fun c => transactionOn c body :
        Action (τ × Store D) Unit).exec (o, s) := by
  have hwriter : s.writerOf (.owner i) = writer := by
    rw [writerOf, howner]
    rfl
  rw [exec_transaction, hwriter, Action.exec_bind, Action.exec_liftM]
  cases writer <;> rfl

/-- What counts as reading only, a pool with readers runs on one of them. -/
theorem runsOn_reader (howner : s.owners[i]? = some (.pool writer readers turns))
    (hsql : isReadOnly sql = true) (hreaders : readers ≠ []) :
    ∃ reader ∈ readers, s.RunsOn (.owner i) sql reader :=
  ⟨_, (Owner.route_reader writer turns hsql hreaders).1, runsOn_owner howner sql⟩

end Store

/-- A pool runs the query of a statement that writes on its writer exactly if the statement does
not begin with a clause of table expressions or mentions `RETURNING`; so it does without a clause,
and with a `RETURNING` of its own.  A transaction is one on the connection of the writer, and within
it every query runs there. -/
theorem query_of_writing_on_writer_iff (hkeyword : keyword ∈ writing)
    (h : IsStatement sql clause keyword rest) :
    (isReadOnly sql = false ↔
      ¬ Text.Begins "with" sql.toList ∨ Text.Mentions "returning" sql.toList) ∧
    (clause = [] ∨ (∃ l ∈ rest, l.Says "returning") → isReadOnly sql = false) ∧
    ∀ (D : Driver) (s : Store D),
      (∀ (i : Nat) (writer : Slot D) (readers : List (Slot D)) (turns : Nat),
        s.owners[i]? = some (.pool writer readers turns) →
        (isReadOnly sql = false → s.RunsOn (.owner i) sql writer) ∧
        (isReadOnly sql = true → readers ≠ [] →
          ∃ reader ∈ readers, s.RunsOn (.owner i) sql reader) ∧
        ∀ (τ : Type) (body : Handle D → Action (τ × Store D) Unit) (o : τ),
          (Store.adapter.transaction (.owner i) body).exec (o, s) =
            (liftM (writer.open "BEGIN" 0) >>= fun c => Store.transactionOn c body :
              Action (τ × Store D) Unit).exec (o, s)) ∧
      ∀ c : D.Connection, s.RunsOn (.connection c) sql (some c) := by
  have hreads : isReadOnly sql = false ↔
      ¬ Text.Begins "with" sql.toList ∨ Text.Mentions "returning" sql.toList := by
    rw [← Bool.not_eq_true, h.isReadOnly_eq_true_iff hkeyword, not_and_or, not_not]
  refine ⟨hreads, fun hplain => hreads.2 ?_, fun D s => ⟨?_, fun c => s.runsOn_connection c sql⟩⟩
  · rcases hplain with hclause | hreturning
    · exact .inl fun hbegins => h.clause_ne_nil hkeyword hbegins hclause
    · exact .inr (h.mentions hreturning)
  · exact fun i writer readers turns howner => ⟨Store.runsOn_writer howner,
      Store.runsOn_reader howner, fun τ body o => Store.exec_transaction_pool howner body o⟩

/-! ## Statements behind a clause -/

theorem paired_of_noParentheses {ls : List Lexeme}
    (h : ∀ l ∈ ls, l ≠ .symbol "(" ∧ l ≠ .symbol ")") : Paired ls := by
  induction ls with
  | nil => exact .nil
  | cons l ls ih =>
    obtain ⟨hopens, hcloses⟩ := h l List.mem_cons_self
    exact .token hopens hcloses (ih fun l' hl' => h l' (List.mem_cons_of_mem _ hl'))

theorem grouped_of_noParentheses {ls : List Lexeme}
    (h : ∀ l ∈ ls, l ≠ .symbol "(" ∧ l ≠ .symbol ")") :
    Grouped (.symbol "(" :: ls ++ [.symbol ")"]) :=
  ⟨ls, paired_of_noParentheses h, rfl⟩

/-- A pool with one reader, just opened. -/
theorem exists_pool :
    ∃ s : Store engine, Store.empty.openFile none (some 1) 5000 = .ok s ∧
      s.owners[0]? = some (.pool (some (0 : Nat)) [some (1 : Nat)] 0) ∧
      (World.connections s.world).map Connection.queryOnly = [false, true] := by
  refine ⟨_, rfl, ?_, ?_⟩ <;> rfl

/-- A table expression. -/
def ones : List Lexeme :=
  [.word "t", .word "AS", .symbol "(", .word "SELECT", .integer 1, .symbol ")"]

theorem tableExpression_ones : TableExpression ones := by
  have hquery : Grouped [.symbol "(", .word "SELECT", .integer 1, .symbol ")"] :=
    @grouped_of_noParentheses [.word "SELECT", .integer 1] (by simp)
  exact @TableExpression.mk (.word "t") [] [.word "AS"] [] _ trivial (.inl rfl)
    (.cons ⟨"AS", rfl, by decide⟩ .nil) (.inl rfl) hquery

/-- A table expression with a column, a hint and parentheses in its query. -/
def twos : List Lexeme :=
  [.word "u", .symbol "(", .word "a", .symbol ")", .word "AS", .word "NOT", .word "MATERIALIZED",
    .symbol "(", .word "SELECT", .symbol "(", .integer 2, .symbol ")", .symbol ")"]

theorem tableExpression_twos : TableExpression twos := by
  have hcolumns : Grouped [.symbol "(", .word "a", .symbol ")"] :=
    @grouped_of_noParentheses [.word "a"] (by simp)
  have hinner : Paired [.symbol "(", .integer 2, .symbol ")"] :=
    @Paired.group [.integer 2] [] (paired_of_noParentheses (by simp)) .nil
  have hquery : Grouped
      [.symbol "(", .word "SELECT", .symbol "(", .integer 2, .symbol ")", .symbol ")"] :=
    ⟨_, .token (by simp) (by simp) hinner, rfl⟩
  have hhint : Say ["not", "materialized"] [.word "NOT", .word "MATERIALIZED"] :=
    .cons ⟨"NOT", rfl, by decide⟩ (.cons ⟨"MATERIALIZED", rfl, by decide⟩ .nil)
  exact @TableExpression.mk (.word "u") _ [.word "AS"] _ _ trivial (.inr hcolumns)
    (.cons ⟨"AS", rfl, by decide⟩ .nil) (.inr (.inr hhint)) hquery

/-- A deletion behind two table expressions that gives back what it removes. -/
def deletion : String :=
  "\n with t AS (SELECT 1), u (a) AS NOT MATERIALIZED (SELECT (2)) Delete FROM x Returning a"

theorem isStatement_deletion :
    IsStatement deletion (.word "with" :: (ones ++ .symbol "," :: twos)) "delete"
      [.word "FROM", .word "x", .word "Returning", .word "a"] where
  opening := .inr <| @WithClause.mk (.word "with") [] _ ⟨"with", rfl, by decide⟩ (.inl rfl)
    (.more tableExpression_ones (.one tableExpression_twos))
  tokens := by
    refine ⟨['\n', ' '], deletion.toList.drop 2, .word "Delete", ?_, ?_,
      ⟨"Delete", rfl, by decide⟩, ?_⟩
    · decide +kernel
    · simp [Text.isBlank]
    · decide +kernel

theorem query_of_writing_on_writer_iff_deletion :
    "delete" ∈ writing ∧ isReadOnly deletion = false ∧
      ∃ s : Store engine, Store.empty.openFile none (some 1) 5000 = .ok s ∧
        s.RunsOn (.owner 0) deletion (some (0 : Nat)) := by
  have hkeyword : "delete" ∈ writing := by simp [writing]
  obtain ⟨-, hplain, hstore⟩ := query_of_writing_on_writer_iff hkeyword isStatement_deletion
  have hsql : isReadOnly deletion = false :=
    hplain (.inr ⟨.word "Returning", by simp, "Returning", rfl, by decide⟩)
  obtain ⟨s, hs, howner, -⟩ := exists_pool
  obtain ⟨hpool, -⟩ := hstore engine s
  exact ⟨hkeyword, hsql, s, hs, (hpool 0 _ _ _ howner).1 hsql⟩

/-- An insertion of the rows of a table expression. -/
def insertion : String := "WITH t AS (SELECT 1) INSERT INTO x SELECT * FROM t"

theorem isStatement_insertion :
    IsStatement insertion (.word "WITH" :: ones) "insert"
      [.word "INTO", .word "x", .word "SELECT", .symbol "*", .word "FROM", .word "t"] where
  opening := .inr <| @WithClause.mk (.word "WITH") [] _ ⟨"WITH", rfl, by decide⟩ (.inl rfl)
    (.one tableExpression_ones)
  tokens := ⟨[], insertion.toList, .word "INSERT", rfl, nofun, ⟨"INSERT", rfl, by decide⟩,
    by decide +kernel⟩

/-- Behind a table expression an insertion counts as a statement that only reads, and a pool runs
it on a connection that refuses to write. -/
theorem insertion_on_reader :
    "insert" ∈ writing ∧ (∃ clause rest, IsStatement insertion clause "insert" rest) ∧
      isReadOnly insertion = true ∧
      ∃ (s : Store engine) (reader : Nat), Store.empty.openFile none (some 1) 5000 = .ok s ∧
        s.RunsOn (.owner 0) insertion (some reader) ∧
        ((World.connections s.world)[reader]?).map Connection.queryOnly = some true := by
  have hreads : isReadOnly insertion = true := by decide +kernel
  obtain ⟨s, hs, howner, hqueryOnly⟩ := exists_pool
  obtain ⟨reader, hreader, hruns⟩ := Store.runsOn_reader howner hreads (List.cons_ne_nil _ _)
  obtain rfl := List.mem_singleton.1 hreader
  refine ⟨by simp [writing], ⟨_, _, isStatement_insertion⟩, hreads, s, 1, hs, hruns, ?_⟩
  rw [← List.getElem?_map, hqueryOnly]
  rfl

end TableRecords.Embedded
