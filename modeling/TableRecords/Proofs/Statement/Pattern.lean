import TableRecords.Proofs.Statement.Plan
import TableRecords.Statement.Keyed

/-!
# What the text of a statement tells of a record

Values are bound and never written into the text of a statement.  All that a text can tell of a
record is a pattern: which key columns hold zero, for an insert, and which columns outside of the
key are NULL, for an update that leaves those out.  Two records with one pattern have statements
that differ in their arguments alone:

    statements_of_pattern : inserts of one and of several records, updates, deletes, reads by key
-/

namespace TableRecords

variable {ρ : Type}

/-! ## Patterns -/

/-- The field at a place holds a value of a kind. -/
def Mapping.Holds (m : Mapping) (type : RecordType ρ) (kind : Value → Bool) (record : ρ)
    (i : m.Index) : Prop :=
  ∃ v, m.valueOf type record i = .ok v ∧ kind v = true

/-- Two records hold values of a kind at the same ones of some places. -/
def Mapping.Agree (m : Mapping) (type : RecordType ρ) (kind : Value → Bool)
    (places : m.Index → Prop) (record record' : ρ) : Prop :=
  ∀ i, places i → (m.Holds type kind record i ↔ m.Holds type kind record' i)

/-- The places of a key, but for those that the database generates. -/
def Mapping.InKey (m : Mapping) (key : List m.Index) (i : m.Index) : Prop :=
  i ∈ key ∧ (m.field i).generated = false

/-- The places outside of a key, but for those that the database generates. -/
def Mapping.OutsideKey (m : Mapping) (key : List m.Index) (i : m.Index) : Prop :=
  i ∉ key ∧ (m.field i).generated = false

variable {m : Mapping} {type : RecordType ρ} {key : List m.Index} {record record' : ρ}

theorem Mapping.holds_iff {kind : Value → Bool} {i : m.Index} {v : Value}
    (hv : m.valueOf type record i = .ok v) : m.Holds type kind record i ↔ kind v = true := by
  constructor
  · rintro ⟨w, hw, hkind⟩
    rwa [Except.ok.inj (hv.symm.trans hw)]
  · exact fun hkind => ⟨v, hv, hkind⟩

/-- Values of records that agree are of a kind both or neither. -/
theorem Mapping.Agree.kind_iff {kind : Value → Bool} {places : m.Index → Prop}
    (h : m.Agree type kind places record record') {i : m.Index} (hi : places i) {v v' : Value}
    (hv : m.valueOf type record i = .ok v) (hv' : m.valueOf type record' i = .ok v') :
    kind v = true ↔ kind v' = true := by
  rw [← Mapping.holds_iff hv, ← Mapping.holds_iff hv']
  exact h i hi

/-! ## Plans -/

/-- Records that hold zero in the same key columns are planned alike. -/
theorem InsertPlan.alike_of_agree
    (hagree : m.Agree type Value.isZero (m.InKey key) record record') {is : List m.Index}
    {plan plan' : InsertPlan m} (h : InsertPlan.ofIndexes m type key record is = .ok plan)
    (h' : InsertPlan.ofIndexes m type key record' is = .ok plan') :
    plan.columns = plan'.columns ∧ plan.readBack = plan'.readBack := by
  refine alike_of_pending_iff (fun i _ => ?_) h h'
  unfold Mapping.Pending
  simp only [← Value.isZero_iff]
  by_cases hgenerated : (m.field i).generated = true
  · exact iff_of_true (.inl hgenerated) (.inl hgenerated)
  · refine or_congr_right (and_congr_right fun hi => ?_)
    exact hagree i ⟨hi, by simpa using hgenerated⟩

/-- An update assigns the same columns of all records, or if it leaves NULLs out, of those that have
them in the same columns. -/
theorem Statement.assignments_of_agree {skipNulls : Bool}
    (hagree : skipNulls = true → m.Agree type Value.isNull (m.OutsideKey key) record record')
    {is : List m.Index} {written written' : List (m.Index × Value)}
    (h : assignments m type key skipNulls record is = .ok written)
    (h' : assignments m type key skipNulls record' is = .ok written') :
    written.map (·.1) = written'.map (·.1) := by
  induction is generalizing written written' with
  | nil =>
    obtain rfl := Except.ok.inj h
    obtain rfl := Except.ok.inj h'
    rfl
  | cons i is ih =>
    rw [assignments] at h h'
    by_cases hleft : (m.field i).generated = true ∨ i ∈ key
    · rw [if_pos hleft] at h h'
      exact ih h h'
    · rw [if_neg hleft] at h h'
      obtain ⟨v, hv, h⟩ := bind_eq_ok_iff.1 h
      obtain ⟨more, hmore, h⟩ := bind_eq_ok_iff.1 h
      obtain ⟨v', hv', h'⟩ := bind_eq_ok_iff.1 h'
      obtain ⟨more', hmore', h'⟩ := bind_eq_ok_iff.1 h'
      obtain ⟨hgenerated, hkey⟩ := not_or.1 hleft
      have hmap := ih hmore hmore'
      have hnull : skipNulls = true ∧ v.isNull = true ↔ skipNulls = true ∧ v'.isNull = true :=
        and_congr_right fun hskip =>
          (hagree hskip).kind_iff ⟨hkey, by simpa using hgenerated⟩ hv hv'
      obtain rfl := Except.ok.inj h
      obtain rfl := Except.ok.inj h'
      by_cases hskipped : skipNulls = true ∧ v.isNull = true
      · rw [if_pos hskipped, if_pos (hnull.1 hskipped)]
        exact hmap
      · rw [if_neg hskipped, if_neg fun hskipped' => hskipped (hnull.2 hskipped')]
        exact congrArg (i :: ·) hmap

/-! ## Statements -/

variable {d : Dialect} {table : Table}

/-- The text of an insert is given by the columns and the number of its rows. -/
theorem InsertStatement.ofPlans_alike {first first' : InsertPlan m}
    {plans plans' : List (InsertPlan m)} (hcolumns : first.columns = first'.columns)
    (hreadBack : first.readBack = first'.readBack) (hlength : plans.length = plans'.length) :
    ofPlans d table first' plans' =
      { ofPlans d table first plans with args := (ofPlans d table first' plans').args } := by
  unfold ofPlans
  rw [hcolumns, hreadBack, hlength]

theorem InsertStatement.alike_ofRecord
    (hagree : m.Agree type Value.isZero (m.InKey key) record record') {st st' : InsertStatement m}
    (h : ofRecord m type d table key record = .ok st)
    (h' : ofRecord m type d table key record' = .ok st') :
    st' = { st with args := st'.args } := by
  obtain ⟨plan, hplan, -, rfl⟩ := ofRecord_eq_ok_iff.1 h
  obtain ⟨plan', hplan', -, rfl⟩ := ofRecord_eq_ok_iff.1 h'
  obtain ⟨hcolumns, hreadBack⟩ := InsertPlan.alike_of_agree hagree hplan hplan'
  exact ofPlans_alike hcolumns hreadBack rfl

/-- The first of several records gives the text. -/
theorem InsertStatement.exists_of_ofRecords {records : List ρ} {st : InsertStatement m}
    (h : ofRecords m type d table key records = .ok st) :
    ∃ first rest plan plans, records = first :: rest ∧
      InsertPlan.ofRecord m type key first = .ok plan ∧ plans.length = records.length ∧
      st = ofPlans d table plan plans := by
  obtain ⟨plan, plans, hplans, -, -, rfl⟩ := ofRecords_eq_ok_iff.1 h
  cases records with
  | nil => exact absurd hplans (by simp)
  | cons first rest =>
    have hlength := congrArg List.length hplans
    rw [List.map_cons, List.map_cons, List.cons.injEq] at hplans
    exact ⟨first, rest, plan, plan :: plans, rfl, hplans.1, by simpa using hlength.symm, rfl⟩

theorem InsertStatement.alike_ofRecords {records records' : List ρ}
    (hagree : List.Forall₂ (m.Agree type Value.isZero (m.InKey key)) records records')
    {st st' : InsertStatement m} (h : ofRecords m type d table key records = .ok st)
    (h' : ofRecords m type d table key records' = .ok st') :
    st' = { st with args := st'.args } := by
  obtain ⟨first, rest, plan, plans, rfl, hplan, hlength, rfl⟩ := exists_of_ofRecords h
  obtain ⟨first', rest', plan', plans', rfl, hplan', hlength', rfl⟩ := exists_of_ofRecords h'
  obtain ⟨hcolumns, hreadBack⟩ :=
    InsertPlan.alike_of_agree (List.forall₂_cons.1 hagree).1 hplan hplan'
  refine ofPlans_alike hcolumns hreadBack ?_
  rw [hlength, hlength', hagree.length_eq]

theorem Statement.alike_update {skipNulls : Bool}
    (hagree : skipNulls = true → m.Agree type Value.isNull (m.OutsideKey key) record record')
    {st st' : Statement} (h : update m type d table key skipNulls record = .ok st)
    (h' : update m type d table key skipNulls record' = .ok st') :
    st' = { st with args := st'.args } := by
  obtain ⟨keyArgs, -, h⟩ := bind_eq_ok_iff.1 h
  obtain ⟨written, hwritten, h⟩ := bind_eq_ok_iff.1 h
  obtain ⟨keyArgs', -, h'⟩ := bind_eq_ok_iff.1 h'
  obtain ⟨written', hwritten', h'⟩ := bind_eq_ok_iff.1 h'
  have hcolumns := assignments_of_agree hagree hwritten hwritten'
  dsimp only at h h'
  split at h
  · exact absurd h (by simp [throw, throwThe, MonadExceptOf.throw, bind, Except.bind])
  · split at h'
    · exact absurd h' (by simp [throw, throwThe, MonadExceptOf.throw, bind, Except.bind])
    · obtain rfl := Except.ok.inj h
      obtain rfl := Except.ok.inj h'
      rw [hcolumns]

theorem Statement.alike_deleteByColumns {columns : List String} {values values' : List Value}
    {st st' : Statement} (h : deleteByColumns d table columns values = .ok st)
    (h' : deleteByColumns d table columns values' = .ok st') :
    st' = { st with args := st'.args } := by
  unfold deleteByColumns at h h'
  split at h
  · exact absurd h (by simp)
  · split at h
    · exact absurd h (by simp)
    · split at h'
      · exact absurd h' (by simp)
      · split at h'
        · exact absurd h' (by simp)
        · obtain rfl := Except.ok.inj h
          obtain rfl := Except.ok.inj h'
          rfl

theorem Statement.alike_delete {st st' : Statement} (h : delete m type d table key record = .ok st)
    (h' : delete m type d table key record' = .ok st') : st' = { st with args := st'.args } := by
  obtain ⟨values, -, h⟩ := bind_eq_ok_iff.1 h
  obtain ⟨values', -, h'⟩ := bind_eq_ok_iff.1 h'
  exact alike_deleteByColumns h h'

theorem Statement.alike_fetch {indexes : List m.Index} {st st' : Statement}
    (h : fetch m type d table key indexes record = .ok st)
    (h' : fetch m type d table key indexes record' = .ok st') :
    st' = { st with args := st'.args } := by
  obtain ⟨values, -, h⟩ := bind_eq_ok_iff.1 h
  obtain ⟨values', -, h'⟩ := bind_eq_ok_iff.1 h'
  obtain rfl := Except.ok.inj h
  obtain rfl := Except.ok.inj h'
  rfl

/-! ## Main result -/

/-- **A text tells of a record only a pattern.**  For any dialect, table and key, the statements of
two records are the same but for their arguments: an insert, if the same columns of the key hold
zero; an insert of several, if this is so row by row; a patch, if the same columns outside of the
key are NULL; an update, a delete and a read by key always. -/
theorem statements_of_pattern (m : Mapping) (type : RecordType ρ) (d : Dialect) (table : Table)
    (key : List m.Index) :
    (∀ record record' st st', m.Agree type Value.isZero (m.InKey key) record record' →
      InsertStatement.ofRecord m type d table key record = .ok st →
      InsertStatement.ofRecord m type d table key record' = .ok st' →
      st' = { st with args := st'.args }) ∧
    (∀ records records' st st',
      List.Forall₂ (m.Agree type Value.isZero (m.InKey key)) records records' →
      InsertStatement.ofRecords m type d table key records = .ok st →
      InsertStatement.ofRecords m type d table key records' = .ok st' →
      st' = { st with args := st'.args }) ∧
    (∀ record record' st st', m.Agree type Value.isNull (m.OutsideKey key) record record' →
      Statement.update m type d table key true record = .ok st →
      Statement.update m type d table key true record' = .ok st' →
      st' = { st with args := st'.args }) ∧
    (∀ record record' st st', Statement.update m type d table key false record = .ok st →
      Statement.update m type d table key false record' = .ok st' →
      st' = { st with args := st'.args }) ∧
    (∀ record record' st st', Statement.delete m type d table key record = .ok st →
      Statement.delete m type d table key record' = .ok st' →
      st' = { st with args := st'.args }) ∧
    (∀ indexes record record' st st',
      Statement.fetch m type d table key indexes record = .ok st →
      Statement.fetch m type d table key indexes record' = .ok st' →
      st' = { st with args := st'.args }) :=
  ⟨fun _ _ _ _ hagree => InsertStatement.alike_ofRecord hagree,
    fun _ _ _ _ hagree => InsertStatement.alike_ofRecords hagree,
    fun _ _ _ _ hagree => Statement.alike_update fun _ => hagree,
    fun _ _ _ _ => Statement.alike_update fun h => absurd h (by simp),
    fun _ _ _ _ => Statement.alike_delete, fun _ _ _ _ _ => Statement.alike_fetch⟩

/-- A note that holds what looks like a part of a statement is inserted, and patched, by the text of
a plain one. -/
theorem statements_of_pattern_notes :
    (∃ st st', InsertStatement.ofRecords noteMapping noteType .sqlite ⟨"notes", []⟩ [noteKey]
        [noteOf 0 "a" "" "", noteOf 0 "b" "" ""] = .ok st ∧
      InsertStatement.ofRecords noteMapping noteType .sqlite ⟨"notes", []⟩ [noteKey]
        [noteOf 0 "?" "" "", noteOf 0 "'); DROP TABLE notes" "" ""] = .ok st' ∧
      st' = { st with args := [.text "?", .text "'); DROP TABLE notes"] }) ∧
    ∃ st st', Statement.update noteMapping noteType .sqlite ⟨"notes", []⟩ [noteKey] true
        (noteOf 1 "a" "" "") = .ok st ∧
      Statement.update noteMapping noteType .sqlite ⟨"notes", []⟩ [noteKey] true
        (noteOf 2 "' WHERE 1" "" "") = .ok st' ∧
      st' = { st with args := [.text "' WHERE 1", .integer 2] } := by
  have hzero : ∀ code code', noteMapping.Agree noteType Value.isZero (noteMapping.InKey [noteKey])
      (noteOf 0 code "" "") (noteOf 0 code' "" "") := by
    rintro code code' i ⟨hi, -⟩
    obtain rfl := List.mem_singleton.1 hi
    rfl
  have hnull : noteMapping.Agree noteType Value.isNull (noteMapping.OutsideKey [noteKey])
      (noteOf 1 "a" "" "") (noteOf 2 "' WHERE 1" "" "") := by
    rintro i ⟨hi, hgenerated⟩
    obtain rfl : i = ⟨1, by decide⟩ := by
      revert i
      decide
    rw [Mapping.holds_iff (v := .text "a") rfl, Mapping.holds_iff (v := .text "' WHERE 1") rfl]
    rfl
  obtain ⟨hinsert, hinserts, hpatch, -⟩ :=
    statements_of_pattern noteMapping noteType .sqlite ⟨"notes", []⟩ [noteKey]
  constructor
  · obtain ⟨st, hst⟩ : ∃ st, InsertStatement.ofRecords noteMapping noteType .sqlite ⟨"notes", []⟩
        [noteKey] [noteOf 0 "a" "" "", noteOf 0 "b" "" ""] = .ok st := ⟨_, rfl⟩
    obtain ⟨st', hst', hargs⟩ : ∃ st', InsertStatement.ofRecords noteMapping noteType .sqlite
        ⟨"notes", []⟩ [noteKey] [noteOf 0 "?" "" "", noteOf 0 "'); DROP TABLE notes" "" ""] =
          .ok st' ∧
        st'.args = [.text "?", .text "'); DROP TABLE notes"] := ⟨_, rfl, rfl⟩
    refine ⟨st, st', hst, hst', ?_⟩
    rw [← hargs]
    exact hinserts _ _ st st' (.cons (hzero _ _) (.cons (hzero _ _) .nil)) hst hst'
  · obtain ⟨st, hst⟩ : ∃ st, Statement.update noteMapping noteType .sqlite ⟨"notes", []⟩ [noteKey]
        true (noteOf 1 "a" "" "") = .ok st := ⟨_, rfl⟩
    obtain ⟨st', hst', hargs⟩ : ∃ st', Statement.update noteMapping noteType .sqlite ⟨"notes", []⟩
        [noteKey] true (noteOf 2 "' WHERE 1" "" "") = .ok st' ∧
        st'.args = [.text "' WHERE 1", .integer 2] := ⟨_, rfl, rfl⟩
    refine ⟨st, st', hst, hst', ?_⟩
    rw [← hargs]
    exact hpatch _ _ st st' hnull hst hst'

end TableRecords
