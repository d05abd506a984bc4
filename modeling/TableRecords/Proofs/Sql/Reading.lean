import TableRecords.Proofs.Sql.Token
import TableRecords.Statement.Insert
import TableRecords.Statement.Keyed

/-!
# Reading statements

`readStatement` is a reader of generated statements: it takes a text apart by `lex` and follows the
keywords from one name to the next.  It knows nothing of the columns or of how many rows and
arguments there are.  Each part of a reader gives back what the words of a generated list say:

    readColumns_columnWords, readEqualities_equalityWords, readValues_rowsWords
-/

namespace TableRecords.Sql

/-! ## Algorithm -/

/-- A placeholder in a statement, and what it stands for: a column, and which row's. -/
structure Slot where
  row : Nat
  column : String
  number : Option Nat
  deriving DecidableEq

/-- What a statement says. -/
structure Reading where
  kind : StatementKind
  table : String
  /-- The columns that are written, set or selected. -/
  columns : List String
  /-- The columns that find the row. -/
  keyColumns : List String
  /-- The columns that an insert returns. -/
  returned : List String
  /-- The placeholders in the order of the text. -/
  slots : List Slot
  deriving DecidableEq

/-- The column of a word with this lead. -/
def identAfter (lead : String) (w : Word) : Option String :=
  match w.atom with
  | .ident column => if w.lead = lead.toList then some column else none
  | .param _ => none

/-- The placeholder of a word with this lead. -/
def paramAfter (lead : String) (w : Word) : Option (Option Nat) :=
  match w.atom with
  | .ident _ => none
  | .param n => if w.lead = lead.toList then some n else none

/-- Reads words as long as `f` takes them. -/
def readWhile {α : Type} (f : Word → Option α) : List Word → List α × List Word
  | [] => ([], [])
  | w :: ws =>
    match f w with
    | some a => (a :: (readWhile f ws).1, (readWhile f ws).2)
    | none => ([], w :: ws)

/-- Reads a list of columns; there is none if the first word does not have the lead. -/
def readColumns (lead separator : String) : List Word → List String × List Word
  | [] => ([], [])
  | w :: ws =>
    match identAfter lead w with
    | some c =>
      (c :: (readWhile (identAfter separator) ws).1, (readWhile (identAfter separator) ws).2)
    | none => ([], w :: ws)

/-- Reads `column = placeholder` again and again. -/
def readEqualities (lead separator : String) : List Word → List (String × Option Nat) × List Word
  | v :: w :: ws =>
    match identAfter lead v, paramAfter " = " w with
    | some c, some n =>
      ((c, n) :: (readEqualities separator separator ws).1,
        (readEqualities separator separator ws).2)
    | _, _ => ([], v :: w :: ws)
  | ws => ([], ws)

/-- Reads the placeholders that are left of a row, and the rows behind it; `left` are the columns
that still have none in this row. -/
def readRows (columns : List String) :
    (row : Nat) → (left : List String) → List Word → Option (List Slot × List Word)
  | _, [], [] => some ([], [])
  | _, _ :: _, [] => none
  | row, c :: left, w :: ws => do
    let n ← paramAfter ", " w
    let (slots, rest) ← readRows columns row left ws
    return (⟨row, c, n⟩ :: slots, rest)
  | row, [], w :: ws =>
    match columns, paramAfter "), (" w with
    | c :: left, some n => do
      let (slots, rest) ← readRows columns (row + 1) left ws
      return (⟨row + 1, c, n⟩ :: slots, rest)
    | _, _ => some ([], w :: ws)

/-- Reads rows of placeholders, one for each column. -/
def readValues (lead : String) (columns : List String) :
    List Word → Option (List Slot × List Word)
  | [] => none
  | w :: ws =>
    match columns, paramAfter lead w with
    | c :: left, some n => do
      let (slots, rest) ← readRows columns 0 left ws
      return (⟨0, c, n⟩ :: slots, rest)
    | _, _ => none

/-- The middle of a text that begins with `front` and ends with `back`. -/
def between (front back : String) (text : List Char) : Option String :=
  let rest := text.drop front.toList.length
  if front.toList.isPrefixOf text ∧ back.toList.isSuffixOf rest then
    some (String.ofList (rest.take (rest.length - back.toList.length)))
  else none

/-- Reads an insert from its first column on. -/
def readInsert (table : String) (ws : List Word) (tail : List Char) : Option Reading := do
  let (columns, ws) := readColumns "" ", " ws
  let (output, ws) := readColumns ") OUTPUT INSERTED." ", INSERTED." ws
  let (slots, ws) ← readValues (if output = [] then ") VALUES (" else " VALUES (") columns ws
  let (returning, ws) := readColumns ") RETURNING " ", " ws
  if ws = [] ∧ tail = (if returning = [] then [')'] else []) then
    some ⟨.insert, table, columns, [], output ++ returning, slots⟩
  else none

/-- The placeholders of compared or assigned columns. -/
def slotsOf (equalities : List (String × Option Nat)) : List Slot :=
  equalities.map fun e => ⟨0, e.1, e.2⟩

/-- Reads an update from its first column on. -/
def readUpdate (table : String) (ws : List Word) (tail : List Char) : Option Reading :=
  let (sets, ws) := readEqualities "" ", " ws
  let (keys, ws) := readEqualities " WHERE " " AND " ws
  if ws = [] ∧ tail = [] then
    some ⟨.update, table, sets.map (·.1), keys.map (·.1), [], slotsOf (sets ++ keys)⟩
  else none

/-- Reads a condition on the key up to the end. -/
def readKey (kind : StatementKind) (columns : List String) (table : String) (ws : List Word)
    (tail : List Char) : Option Reading :=
  let (keys, ws) := readEqualities "" " AND " ws
  if ws = [] ∧ tail = [] then
    some ⟨kind, table, columns, keys.map (·.1), [], slotsOf keys⟩
  else none

/-- Words whose first one has no lead. -/
def dropLead : List Word → List Word
  | [] => []
  | w :: ws => ⟨[], w.atom⟩ :: ws

/-- Reads the words of a statement. -/
def readWords (ws : List Word) (tail : List Char) : Option Reading := do
  let w ← ws.head?
  (do readInsert (← between "INSERT INTO " " (" w.lead) (dropLead ws) tail) <|>
  (do readUpdate (← between "UPDATE " " SET " w.lead) (dropLead ws) tail) <|>
  (do readKey .delete [] (← between "DELETE FROM " " WHERE " w.lead) (dropLead ws) tail) <|>
  (do readKey .select [] (← between "SELECT  FROM " " WHERE " w.lead) (dropLead ws) tail) <|>
  (do
    let (columns, ws) := readColumns "SELECT " ", " ws
    let w ← ws.head?
    readKey .select columns (← between " FROM " " WHERE " w.lead) (dropLead ws) tail)

/-- Reads a statement in a dialect. -/
def readStatement (d : Dialect) (sql : String) : Option Reading := do
  let l ← lex d sql.toList
  readWords l.words l.tail

/-! ## Words of generated fragments -/

/-- Puts words in front. -/
def Lexed.addWords (ws : List Word) (l : Lexed) : Lexed := ⟨ws ++ l.words, l.tail⟩

@[simp] theorem Lexed.addText_addWords_cons (s : List Char) (w : Word) (ws : List Word)
    (l : Lexed) :
    (l.addWords (w :: ws)).addText s = l.addWords (⟨s ++ w.lead, w.atom⟩ :: ws) := rfl

@[simp] theorem Lexed.addAtom_addWords (a : Atom) (ws : List Word) (l : Lexed) :
    (l.addWords ws).addAtom a = l.addWords (⟨[], a⟩ :: ws) := rfl

@[simp] theorem Lexed.addWords_addWords (vs ws : List Word) (l : Lexed) :
    (l.addWords ws).addWords vs = l.addWords (vs ++ ws) := by
  simp [Lexed.addWords]

@[simp] theorem Lexed.addWords_nil (l : Lexed) : l.addWords [] = l := rfl

variable (d : Dialect)

theorem lexed_text (s : String) (fs : List Fragment) :
    lexed d (.text s :: fs) = (lexed d fs).addText s.toList := rfl

theorem lexed_ident (column : String) (fs : List Fragment) :
    lexed d (.ident column :: fs) = (lexed d fs).addAtom (.ident column) := rfl

theorem lexed_param (n : Nat) (fs : List Fragment) :
    lexed d (.param n :: fs) = (lexed d fs).addAtom (.param (d.number? n)) := rfl

theorem separated_cons (separator : String) (item : List Fragment)
    (items : List (List Fragment)) :
    separated separator (item :: items) =
      item ++ items.flatMap fun item => .text separator :: item := by
  induction items generalizing item with
  | nil => simp [separated]
  | cons next items ih =>
    rw [separated, ih, List.flatMap_cons, List.cons_append]
    exact List.cons_ne_nil _ _

/-- A separated list is written with the separator between its items. -/
theorem flatMap_separated (d : Dialect) (separator : String) (items : List (List Fragment)) :
    (separated separator items).flatMap (Fragment.chars d) =
      separator.toList.intercalate (items.map fun item => item.flatMap (Fragment.chars d)) := by
  induction items with
  | nil => rfl
  | cons item items ih =>
    cases items with
    | nil => simp [separated]
    | cons next items =>
      rw [separated, List.flatMap_append, List.flatMap_cons, ih, List.map_cons, List.map_cons,
        List.map_cons, List.intercalate_cons_cons, List.append_assoc]
      · rfl
      · exact fun h => absurd h (by simp)

/-- Words that list columns. -/
def columnWords (lead separator : String) : List String → List Word
  | [] => []
  | c :: cs => ⟨lead.toList, .ident c⟩ :: columnWords separator separator cs

theorem lexed_columns (separator : String) (cs : List String) (fs : List Fragment) :
    lexed d ((cs.flatMap fun c => [.text separator, .ident c]) ++ fs) =
      (lexed d fs).addWords (columnWords separator separator cs) := by
  induction cs with
  | nil => rfl
  | cons c cs ih =>
    rw [List.flatMap_cons, List.append_assoc, List.cons_append, List.singleton_append,
      lexed_text, lexed_ident, ih]
    simp [columnWords]

theorem lexed_columnList (cs : List String) (fs : List Fragment) :
    lexed d (columnList cs ++ fs) = (lexed d fs).addWords (columnWords "" ", " cs) := by
  unfold columnList
  cases cs with
  | nil => rfl
  | cons c cs =>
    rw [List.map_cons, separated_cons, List.flatMap_map, List.append_assoc,
      List.singleton_append, lexed_ident, lexed_columns]
    rfl

/-- Words that equate columns with placeholders. -/
def equalityWords (lead separator : String) : List (String × Nat) → List Word
  | [] => []
  | (c, n) :: ps =>
    ⟨lead.toList, .ident c⟩ :: ⟨" = ".toList, .param (d.number? n)⟩ ::
      equalityWords separator separator ps

theorem lexed_equalityPairs (separator : String) (ps : List (String × Nat))
    (fs : List Fragment) :
    lexed d ((ps.flatMap fun p =>
        [.text separator, .ident p.1, .text " = ", .param p.2]) ++ fs) =
      (lexed d fs).addWords (equalityWords d separator separator ps) := by
  induction ps with
  | nil => rfl
  | cons p ps ih =>
    rw [List.flatMap_cons, List.append_assoc]
    simp only [List.cons_append, List.nil_append]
    rw [lexed_text, lexed_ident, lexed_text, lexed_param, ih]
    simp [equalityWords]

/-- The columns of an equality list with the numbers of their placeholders. -/
def numbered (first : Nat) (columns : List String) : List (String × Nat) :=
  columns.zip (List.range' first columns.length)

theorem lexed_equalities (separator : String) (first : Nat) (columns : List String)
    (fs : List Fragment) :
    lexed d (equalities separator first columns ++ fs) =
      (lexed d fs).addWords (equalityWords d "" separator (numbered first columns)) := by
  unfold equalities numbered
  cases columns.zip (List.range' first columns.length) with
  | nil => rfl
  | cons p ps =>
    rw [List.map_cons, separated_cons, List.flatMap_map, List.append_assoc]
    simp only [List.cons_append, List.nil_append]
    rw [lexed_ident, lexed_text, lexed_param, lexed_equalityPairs]
    simp [equalityWords]

/-- Words of the placeholders of a row. -/
def rowWords (lead : String) : List Nat → List Word
  | [] => []
  | n :: ns => ⟨lead.toList, .param (d.number? n)⟩ :: rowWords ", " ns

theorem lexed_params (ns : List Nat) (fs : List Fragment) :
    lexed d ((ns.flatMap fun n => [.text ", ", .param n]) ++ fs) =
      (lexed d fs).addWords (rowWords d ", " ns) := by
  induction ns with
  | nil => rfl
  | cons n ns ih =>
    rw [List.flatMap_cons, List.append_assoc, List.cons_append, List.singleton_append,
      lexed_text, lexed_param, ih]
    simp [rowWords]

theorem lexed_rowOf (lead : String) (first : Nat) {count : Nat} (hcount : count ≠ 0)
    (fs : List Fragment) :
    lexed d (.text lead :: (rowOf first count ++ fs)) =
      (lexed d (.text ")" :: fs)).addWords
        (rowWords d (lead ++ "(") (List.range' first count)) := by
  obtain ⟨more, rfl⟩ := Nat.exists_eq_succ_of_ne_zero hcount
  unfold rowOf
  rw [List.range'_succ, List.map_cons, separated_cons, List.flatMap_map]
  simp only [List.cons_append, List.nil_append, List.append_assoc]
  rw [lexed_text, lexed_text, lexed_param, lexed_params]
  simp [rowWords]

/-- Words of `count` rows from row `row` on, each with a placeholder for every column. -/
def rowsWords (lead : String) (width : Nat) : (row count : Nat) → List Word
  | _, 0 => []
  | row, count + 1 =>
    rowWords d lead (List.range' (1 + row * width) width) ++ rowsWords "), (" width (row + 1) count

theorem lexed_laterRows {width : Nat} (hwidth : width ≠ 0) (row count : Nat)
    (fs : List Fragment) :
    lexed d (.text ")" :: (((List.range' row count).flatMap fun r =>
        .text ", " :: rowOf (1 + r * width) width) ++ fs)) =
      (lexed d (.text ")" :: fs)).addWords (rowsWords d "), (" width row count) := by
  induction count generalizing row with
  | zero => rfl
  | succ count ih =>
    have htext : ∀ gs, lexed d (.text ")" :: .text ", " :: gs) = lexed d (.text "), " :: gs) := by
      intro gs
      rw [lexed_text, lexed_text, lexed_text, Lexed.addText_addText]
      rfl
    rw [List.range'_succ, List.flatMap_cons, List.append_assoc, List.cons_append, htext,
      lexed_rowOf d "), " _ hwidth, ih]
    simp [rowsWords]

theorem lexed_rows (lead : String) {width count : Nat} (hwidth : width ≠ 0) (hcount : count ≠ 0)
    (fs : List Fragment) :
    lexed d (.text lead :: (separated ", " ((List.range count).map fun r =>
        rowOf (1 + r * width) width) ++ fs)) =
      (lexed d (.text ")" :: fs)).addWords (rowsWords d (lead ++ "(") width 0 count) := by
  obtain ⟨more, rfl⟩ := Nat.exists_eq_succ_of_ne_zero hcount
  rw [List.range_eq_range', List.range'_succ, List.map_cons, separated_cons, List.flatMap_map,
    List.append_assoc, lexed_rowOf d lead _ hwidth, lexed_laterRows d hwidth]
  simp [rowsWords]

/-! ## Reading the words back -/

/-- The first of some words, if there is one, is not taken by `f`. -/
def Stops {α : Type} (f : Word → Option α) (ws : List Word) : Prop :=
  ∀ w, ws.head? = some w → f w = none

theorem stops_nil {α : Type} (f : Word → Option α) : Stops f [] := by
  intro w hw
  exact absurd hw (by simp)

theorem readWhile_of_stops {α : Type} {f : Word → Option α} {ws : List Word}
    (h : Stops f ws) : readWhile f ws = ([], ws) := by
  cases ws with
  | nil => rfl
  | cons w ws => simp [readWhile, h w rfl]

theorem identAfter_ident (lead : String) (c : String) :
    identAfter lead ⟨lead.toList, .ident c⟩ = some c := by
  simp [identAfter]

theorem paramAfter_param (lead : String) (n : Option Nat) :
    paramAfter lead ⟨lead.toList, .param n⟩ = some n := by
  simp [paramAfter]

theorem readWhile_columnWords {separator : String} (cs : List String) {ws : List Word}
    (h : Stops (identAfter separator) ws) :
    readWhile (identAfter separator) (columnWords separator separator cs ++ ws) = (cs, ws) := by
  induction cs with
  | nil => exact readWhile_of_stops h
  | cons c cs ih =>
    rw [columnWords, List.cons_append, readWhile, identAfter_ident, ih]

theorem readColumns_columnWords {lead separator : String} (cs : List String) {ws : List Word}
    (hlead : Stops (identAfter lead) ws) (h : Stops (identAfter separator) ws) :
    readColumns lead separator (columnWords lead separator cs ++ ws) = (cs, ws) := by
  cases cs with
  | nil =>
    cases ws with
    | nil => rfl
    | cons w ws => simp [columnWords, readColumns, hlead w rfl]
  | cons c cs =>
    rw [columnWords, List.cons_append, readColumns, identAfter_ident, readWhile_columnWords cs h]

theorem readEqualities_equalityWords {lead separator : String} (ps : List (String × Nat))
    {ws : List Word} (hlead : Stops (identAfter lead) ws)
    (h : Stops (identAfter separator) ws) :
    readEqualities lead separator (equalityWords d lead separator ps ++ ws) =
      (ps.map fun p => (p.1, d.number? p.2), ws) := by
  induction ps generalizing lead with
  | nil =>
    match ws with
    | [] => rfl
    | [w] => rfl
    | v :: w :: ws => simp [equalityWords, readEqualities, hlead v rfl]
  | cons p ps ih =>
    rw [equalityWords, List.cons_append, List.cons_append, readEqualities, identAfter_ident,
      paramAfter_param, ih h]
    rfl

/-- The placeholders of the columns of a row. -/
def rowSlots (row : Nat) (left : List String) (ns : List Nat) : List Slot :=
  (left.zip ns).map fun p => ⟨row, p.1, d.number? p.2⟩

/-- The placeholders of `count` rows from row `row` on. -/
def rowsSlots (columns : List String) (row count : Nat) : List Slot :=
  (List.range' row count).flatMap fun r =>
    rowSlots d r columns (List.range' (1 + r * columns.length) columns.length)

theorem readRows_rowWords {columns : List String} (row : Nat) (left : List String)
    (ns : List Nat) (hlen : left.length = ns.length) {ws rest : List Word} {slots : List Slot}
    (h : readRows columns row [] ws = some (slots, rest)) :
    readRows columns row left (rowWords d ", " ns ++ ws) =
      some (rowSlots d row left ns ++ slots, rest) := by
  induction left generalizing ns with
  | nil =>
    obtain rfl : ns = [] := List.length_eq_zero_iff.1 hlen.symm
    exact h
  | cons c left ih =>
    cases ns with
    | nil => exact absurd hlen (by simp)
    | cons n ns =>
      have hlen' : left.length = ns.length := by simpa using hlen
      rw [rowWords, List.cons_append, readRows, paramAfter_param, ih ns hlen']
      rfl

theorem readRows_rowsWords {columns : List String} (hne : columns ≠ []) (row count : Nat)
    {ws : List Word} (h : Stops (paramAfter "), (") ws) :
    readRows columns row [] (rowsWords d "), (" columns.length (row + 1) count ++ ws) =
      some (rowsSlots d columns (row + 1) count, ws) := by
  obtain ⟨c, left, rfl⟩ := List.exists_cons_of_ne_nil hne
  induction count generalizing row with
  | zero =>
    cases ws with
    | nil => rfl
    | cons w ws => simp [rowsWords, rowsSlots, readRows, h w rfl]
  | succ count ih =>
    have hrow := readRows_rowWords d (row + 1) left
      (List.range' (1 + (row + 1) * (left.length + 1) + 1) left.length) (by simp) (ih (row + 1))
    simp only [List.length_cons] at hrow
    rw [rowsWords, List.length_cons, List.range'_succ, rowWords, List.append_assoc,
      List.cons_append]
    simp only [readRows, paramAfter_param, hrow]
    simp [rowsSlots, rowSlots, List.range'_succ]

theorem readValues_rowsWords {lead : String} {columns : List String} (hne : columns ≠ [])
    {count : Nat} (hcount : count ≠ 0) {ws : List Word} (h : Stops (paramAfter "), (") ws) :
    readValues lead columns (rowsWords d lead columns.length 0 count ++ ws) =
      some (rowsSlots d columns 0 count, ws) := by
  obtain ⟨more, rfl⟩ := Nat.exists_eq_succ_of_ne_zero hcount
  have hrows := readRows_rowsWords d hne 0 more h
  obtain ⟨c, left, rfl⟩ := List.exists_cons_of_ne_nil hne
  have hrow := readRows_rowWords d 0 left
    (List.range' (1 + 0 * (left.length + 1) + 1) left.length) (by simp) hrows
  simp only [List.length_cons] at hrow
  rw [rowsWords, List.length_cons, List.range'_succ, rowWords, List.append_assoc,
    List.cons_append]
  simp only [readValues, paramAfter_param, hrow]
  simp [rowsSlots, rowSlots, List.range'_succ]

end TableRecords.Sql
