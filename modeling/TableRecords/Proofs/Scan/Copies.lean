import TableRecords.Proofs.Scan.RoundTrip

/-!
# What a row does to a record

A row may have its columns in any order and letter case, some of them more than once, and others
that belong to no field.  It is copied from left to right up to the first value that does not fit,
so that a field holds the value of the last column that belongs to it (`Copies`), and a record is
left as the columns in front of the misfit made it:

    row_copies : all fit → `.ok ()`, and else the first misfit is told of

One column after the other, this is `copying_columns`, and with the remainder field `rowRun_row`.
-/

namespace TableRecords

variable {ρ : Type} {type : RecordType ρ}

namespace RecordType.Fields

section

variable (F : type.Fields)

/-- The field at a path takes a value. -/
def Takes (path : Path) (v : Value) : Prop :=
  ∃ p x, F.path p = path ∧ (F.codec p).decode v = .ok x

/-- The field at a path refuses a value. -/
def Refuses (path : Path) (v : Value) (e : CoerceError) : Prop :=
  ∃ p, F.path p = path ∧ (F.codec p).decode v = .error e

end

variable {F : type.Fields} {path : Path} {v : Value} {e : CoerceError}

theorem takes_or_refuses (h : FieldTag.Addresses type.tags path) (v : Value) :
    F.Takes path v ∨ ∃ e, F.Refuses path v e := by
  obtain ⟨p, hp⟩ := F.exists_place path h
  cases hx : (F.codec p).decode v with
  | error e => exact .inr ⟨e, p, hp, hx⟩
  | ok x => exact .inl ⟨p, x, hp, hx⟩

theorem set_of_takes (h : F.Takes path v) (d : ρ) : ∃ d', type.set d path v = .ok d' := by
  obtain ⟨p, x, rfl, hx⟩ := h
  exact ⟨_, F.set_of_decode hx d⟩

theorem not_takes_of_refuses (h : F.Refuses path v e) : ¬ F.Takes path v := by
  obtain ⟨p, hp, hx⟩ := h
  rintro ⟨q, y, hq, hy⟩
  obtain rfl : q = p := F.path_injective (hq.trans hp.symm)
  exact absurd (hx.symm.trans hy) (by simp)

theorem set_of_refuses (h : F.Refuses path v e) (d : ρ) : type.set d path v = .error e := by
  obtain ⟨p, rfl, hx⟩ := h
  rw [F.set_path, hx]
  rfl

end RecordType.Fields

namespace Scan

/-- The value of the last column whose name meets a condition. -/
def lastWhere (p : String → Bool) (cells : List (String × Value)) : Option Value :=
  (cells.reverse.find? fun c => p c.1).map (·.2)

theorem lastWhere_eq_none_iff {p : String → Bool} {cells : List (String × Value)} :
    lastWhere p cells = none ↔ ∀ c ∈ cells, p c.1 = false := by
  rw [lastWhere, Option.map_eq_none_iff, List.find?_eq_none]
  simp only [List.mem_reverse, Bool.not_eq_true]

/-- What stands behind comes first. -/
theorem lastWhere_append (p : String → Bool) (cells cells' : List (String × Value)) :
    lastWhere p (cells ++ cells') = (lastWhere p cells').or (lastWhere p cells) := by
  rw [lastWhere, lastWhere, lastWhere, List.reverse_append, List.find?_append, Option.map_or]

theorem lastWhere_singleton (p : String → Bool) (name : String) (v : Value) :
    lastWhere p [(name, v)] = if p name then some v else none := by
  cases h : p name <;> simp [lastWhere, h]

section

variable (F : type.Fields) (m : Mapping)

/-- A column belongs to no field, or to one that takes its value. -/
def Fits (c : String × Value) : Prop := ∀ i, m.indexOf? c.1 = some i → F.Takes (m.field i).path c.2

/-- Every mapped field holds what the last column that belongs to it decodes to, or else what it
held. -/
structure Copies (cells : List (String × Value)) (d d' : ρ) : Prop where
  decodes : ∀ i v, lastWhere (fun name => m.indexOf? name = some i) cells = some v →
    F.Decodes (m.field i).path v d'
  keeps : ∀ i, (∀ c ∈ cells, m.indexOf? c.1 ≠ some i) → F.Keeps (m.field i).path d d'

/-- The remainder field, if there is one, holds what it held. -/
def KeepsRemainder (d d' : ρ) : Prop := ∀ f ∈ m.remainder, F.Keeps f.path d d'

/-- The columns `before` fit, and the one behind them, which belongs to the field at a place, does
not. -/
structure FirstMisfit (cells before : List (String × Value)) (name : String) (i : m.Index)
    (e : CoerceError) : Prop where
  fits : ∀ c ∈ before, Fits F m c
  belongs : m.indexOf? name = some i
  refuses : ∃ v after, cells = before ++ (name, v) :: after ∧ F.Refuses (m.field i).path v e

end

variable {F : type.Fields} {m : Mapping} {cells cells' : List (String × Value)} {name : String}
  {v : Value} {d d₁ d₂ : ρ}

/-! ## Copies -/

theorem Copies.append (h : Copies F m cells d d₁) (h' : Copies F m cells' d₁ d₂) :
    Copies F m (cells ++ cells') d d₂ := by
  constructor
  · intro i v hv
    rw [lastWhere_append] at hv
    cases hlast : lastWhere (fun name => m.indexOf? name = some i) cells' with
    | some w =>
      rw [hlast, Option.some_or] at hv
      obtain rfl := Option.some.inj hv
      exact h'.decodes i w hlast
    | none =>
      rw [hlast, Option.none_or] at hv
      refine (h.decodes i v hv).keep (h'.keeps i fun c hc => ?_)
      simpa using lastWhere_eq_none_iff.1 hlast c hc
  · intro i hi
    have hbefore := h.keeps i fun c hc => hi c (List.mem_append_left cells' hc)
    exact hbefore.trans (h'.keeps i fun c hc => hi c (List.mem_append_right cells hc))

theorem KeepsRemainder.trans (h : KeepsRemainder F m d d₁) (h' : KeepsRemainder F m d₁ d₂) :
    KeepsRemainder F m d d₂ :=
  fun f hf => (h f hf).trans (h' f hf)

/-- A column that belongs to no field changes nothing. -/
theorem copies_of_unmatched (F : type.Fields) (hm : type.mapping = .ok m)
    (cells : List (String × Value)) (hunmatched : ∀ c ∈ cells, m.indexOf? c.1 = none) (d : ρ) :
    Copies F m cells d d ∧ KeepsRemainder F m d d := by
  refine ⟨⟨fun i v hv => ?_, fun i _ => F.keeps_refl (addresses_path hm i) d⟩,
    fun f hf => F.keeps_refl (addresses_remainder hm hf) d⟩
  have hnone : lastWhere (fun name => m.indexOf? name = some i) cells = none :=
    lastWhere_eq_none_iff.2 fun c hc => by simp [hunmatched c hc]
  exact absurd (hnone.symm.trans hv) (by simp)

theorem copies_of_set (hm : type.mapping = .ok m) {i : m.Index} (hi : m.indexOf? name = some i)
    (hset : type.set d (m.field i).path v = .ok d₁) :
    Copies F m [(name, v)] d d₁ ∧ KeepsRemainder F m d d₁ := by
  obtain ⟨hdecodes, hothers⟩ := F.of_set_eq_ok (addresses_path hm i) hset
  refine ⟨⟨fun j w hw => ?_, fun j hj => ?_⟩, fun f hf => ?_⟩
  · rw [lastWhere_singleton] at hw
    split at hw
    · next hj =>
      obtain rfl : i = j := Option.some.inj (hi.symm.trans (of_decide_eq_true hj))
      obtain rfl := Option.some.inj hw
      exact hdecodes
    · exact absurd hw (by simp)
  · refine hothers _ (addresses_path hm j) fun hpath => ?_
    obtain rfl := path_inj hm hpath
    exact hj _ List.mem_cons_self hi
  · exact hothers _ (addresses_remainder hm hf) (path_ne_remainder hm hf i).symm

/-- The remainder field is none of the mapped ones. -/
theorem Copies.set_remainder (h : Copies F m cells d d₁) (hm : type.mapping = .ok m)
    {f : RemainderField} (hf : f ∈ m.remainder) (hset : type.set d₁ f.path v = .ok d₂) :
    Copies F m cells d d₂ := by
  obtain ⟨-, hothers⟩ := F.of_set_eq_ok (addresses_remainder hm hf) hset
  have hkeeps : ∀ i, F.Keeps (m.field i).path d₁ d₂ := fun i =>
    hothers _ (addresses_path hm i) (path_ne_remainder hm hf i)
  exact ⟨fun i w hw => (h.decodes i w hw).keep (hkeeps i),
    fun i hi => (h.keeps i hi).trans (hkeeps i)⟩

theorem FirstMisfit.not_fits {before : List (String × Value)} {i : m.Index} {e : CoerceError}
    (h : FirstMisfit F m cells before name i e) : ¬ ∀ c ∈ cells, Fits F m c := by
  obtain ⟨-, hbelongs, v, after, rfl, hrefuses⟩ := h
  intro hall
  have hmem : (name, v) ∈ before ++ (name, v) :: after :=
    List.mem_append_right before List.mem_cons_self
  exact F.not_takes_of_refuses hrefuses (hall _ hmem i hbelongs)

theorem not_exists_misfit (hall : ∀ c ∈ cells, Fits F m c) : ¬ ∃ c ∈ cells, ¬ Fits F m c := by
  rintro ⟨c, hc, hfits⟩
  exact hfits (hall c hc)

/-! ## Columns -/

section

variable [JsonLibrary]

/-- The columns without a field as members of a JSON object, behind others. -/
def captured (m : Mapping) (members : List (String × Json)) (cells : List (String × Value)) :
    List (String × Json) :=
  cells.foldl (fun members c =>
    if m.indexOf? c.1 = none then Json.insertMember c.1 c.2.toJson members else members) members

theorem column_of_unmatched (h : m.indexOf? name = none) (s : Copied ρ) :
    (column m type name v).exec s =
      (.ok (), { s with unmatched := Json.insertMember name v.toJson s.unmatched }) := by
  rw [column, Action.exec_of, h]

theorem column_of_set {i : m.Index} (hi : m.indexOf? name = some i) {s : Copied ρ}
    (hset : type.set s.record (m.field i).path v = .ok d₁) :
    (column m type name v).exec s = (.ok (), { s with record := d₁ }) := by
  rw [column, Action.exec_of, hi]
  simp only [hset]

theorem column_of_refuses {i : m.Index} (hi : m.indexOf? name = some i) {e : CoerceError}
    (hrefuses : F.Refuses (m.field i).path v e) (s : Copied ρ) :
    (column m type name v).exec s = (.error (.scanTypeMismatch name (m.field i).field e), s) := by
  rw [column, Action.exec_of, hi]
  simp only [F.set_of_refuses hrefuses]

theorem exec_columns_cons_ok {s s₁ : Copied ρ}
    (h : (column m type name v).exec s = (.ok (), s₁)) :
    (columns m type ((name, v) :: cells)).exec s = (columns m type cells).exec s₁ :=
  Action.exec_bind_ok h

theorem exec_columns_cons_error {s s₁ : Copied ρ} {e : Error}
    (h : (column m type name v).exec s = (.error e, s₁)) :
    (columns m type ((name, v) :: cells)).exec s = (.error e, s₁) :=
  Action.exec_bind_error h

/-- What copying columns comes to: all of them fit, or it stops at the first that does not. -/
inductive Copying (F : type.Fields) (m : Mapping) (cells : List (String × Value)) (s : Copied ρ) :
    Except Error Unit × Copied ρ → Prop where
  | all {d' : ρ} (hfits : ∀ c ∈ cells, Fits F m c) (hcopies : Copies F m cells s.record d')
    (hkeeps : KeepsRemainder F m s.record d') :
    Copying F m cells s (.ok (), ⟨d', captured m s.unmatched cells⟩)
  | misfit {before : List (String × Value)} {name : String} {i : m.Index} {e : CoerceError} {d' : ρ}
    (hmisfit : FirstMisfit F m cells before name i e) (hcopies : Copies F m before s.record d')
    (hkeeps : KeepsRemainder F m s.record d') :
    Copying F m cells s (.error (.scanTypeMismatch name (m.field i).field e),
      ⟨d', captured m s.unmatched before⟩)

/-- A column that fits leads to the columns behind it. -/
theorem Copying.cons {s : Copied ρ} (s₁ : Copied ρ) {run : Except Error Unit × Copied ρ}
    (hfits : Fits F m (name, v)) (hcopies : Copies F m [(name, v)] s.record s₁.record)
    (hkeeps : KeepsRemainder F m s.record s₁.record)
    (hunmatched : captured m s.unmatched [(name, v)] = s₁.unmatched)
    (h : Copying F m cells s₁ run) : Copying F m ((name, v) :: cells) s run := by
  have hcaptured (cells : List (String × Value)) :
      captured m s₁.unmatched cells = captured m s.unmatched ((name, v) :: cells) := by
    rw [← hunmatched]
    rfl
  cases h with
  | all hall hcopies' hkeeps' =>
    rw [hcaptured]
    exact .all (List.forall_mem_cons.2 ⟨hfits, hall⟩) (hcopies.append hcopies')
      (hkeeps.trans hkeeps')
  | misfit hmisfit hcopies' hkeeps' =>
    obtain ⟨hbefore, hbelongs, w, after, hsplit, hrefuses⟩ := hmisfit
    rw [hcaptured]
    refine .misfit ⟨List.forall_mem_cons.2 ⟨hfits, hbefore⟩, hbelongs, w, after, ?_, hrefuses⟩
      (hcopies.append hcopies') (hkeeps.trans hkeeps')
    rw [hsplit, List.cons_append]

theorem copying_columns (F : type.Fields) (hm : type.mapping = .ok m)
    (cells : List (String × Value)) (s : Copied ρ) :
    Copying F m cells s ((columns m type cells).exec s) := by
  induction cells generalizing s with
  | nil =>
    obtain ⟨hcopies, hkeeps⟩ := copies_of_unmatched F hm [] (List.forall_mem_nil _) s.record
    exact .all (List.forall_mem_nil _) hcopies hkeeps
  | cons c cells ih =>
    obtain ⟨name, v⟩ := c
    cases hi : m.indexOf? name with
    | none =>
      have hrun : (column m type name v).exec s = _ := column_of_unmatched hi s
      obtain ⟨hcopies, hkeeps⟩ := copies_of_unmatched F hm [(name, v)]
        (List.forall_mem_singleton.2 hi) s.record
      have hfits : Fits F m (name, v) := fun i hi' => absurd (hi.symm.trans hi') (by simp)
      have hmembers : captured m s.unmatched [(name, v)] =
          Json.insertMember name v.toJson s.unmatched := if_pos hi
      rw [exec_columns_cons_ok hrun]
      exact .cons ⟨s.record, Json.insertMember name v.toJson s.unmatched⟩ hfits hcopies hkeeps
        hmembers (ih _)
    | some i =>
      -- A field takes its value or refuses it, and a refusal leaves the columns behind it alone.
      rcases F.takes_or_refuses (addresses_path hm i) v with htakes | ⟨e, hrefuses⟩
      · obtain ⟨d₁, hset⟩ := F.set_of_takes htakes s.record
        obtain ⟨hcopies, hkeeps⟩ := copies_of_set (F := F) hm hi hset
        have hfits : Fits F m (name, v) := by
          intro j hj
          obtain rfl := Option.some.inj (hi.symm.trans hj)
          exact htakes
        have hmembers : captured m s.unmatched [(name, v)] = s.unmatched := if_neg (by simp [hi])
        rw [exec_columns_cons_ok (column_of_set hi hset)]
        exact .cons ⟨d₁, s.unmatched⟩ hfits hcopies hkeeps hmembers (ih _)
      · obtain ⟨hcopies, hkeeps⟩ := copies_of_unmatched F hm [] (List.forall_mem_nil _) s.record
        have hmisfit : FirstMisfit F m ((name, v) :: cells) [] name i e :=
          ⟨List.forall_mem_nil _, hi, v, cells, rfl, hrefuses⟩
        rw [exec_columns_cons_error (column_of_refuses hi hrefuses s)]
        exact .misfit hmisfit hcopies hkeeps

/-! ## Rows -/

/-- The text for the remainder field, if there is something to put into it. -/
def remainderText? (m : Mapping) (cells : List (String × Value)) : Option String :=
  if captured m [] cells = [] then none else some (JsonLibrary.print (.object (captured m [] cells)))

/-- The remainder field, if there is one, takes the columns without a field. -/
def RemainderFits (F : type.Fields) (m : Mapping) (cells : List (String × Value)) : Prop :=
  ∀ f ∈ m.remainder, ∀ text ∈ remainderText? m cells, F.Takes f.path (.text text)

/-- What copying a row into a record `d` does, told by the result and the record then. -/
structure RowCopied (F : type.Fields) (m : Mapping) (names : List String) (values : List Value)
    (d : ρ) (r : Except Error Unit) (d' : ρ) : Prop where
  width : values.length ≠ names.length → d' = d ∧
    r = .error (.invalidArgument s!"row has {values.length} values for {names.length} columns")
  fits : values.length = names.length → (∀ c ∈ names.zip values, Fits F m c) →
    RemainderFits F m (names.zip values) → r = .ok () ∧ Copies F m (names.zip values) d d'
  /-- The columns in front of the misfit are copied, and nothing else is. -/
  misfit : values.length = names.length → (∃ c ∈ names.zip values, ¬ Fits F m c) →
    ∃ before name i e, FirstMisfit F m (names.zip values) before name i e ∧
      r = .error (.scanTypeMismatch name (m.field i).field e) ∧
      Copies F m before d d' ∧ KeepsRemainder F m d d'
  remainder : values.length = names.length → (∀ c ∈ names.zip values, Fits F m c) →
    ∀ f ∈ m.remainder, ∀ text ∈ remainderText? m (names.zip values), ∀ e,
      F.Refuses f.path (.text text) e → r = .error (.scanTypeMismatch "<remainder>" f.field e) ∧
        Copies F m (names.zip values) d d' ∧ KeepsRemainder F m d d'

/-- What copying a row comes to: it is refused, its columns or the text for the remainder field stop
it, or it is copied, the remainder field last if there is something for it. -/
inductive RowRun (F : type.Fields) (m : Mapping) (names : List String) (values : List Value)
    (d : ρ) : Except Error Unit × ρ → Prop where
  | refused (hlength : values.length ≠ names.length) : RowRun F m names values d
      (.error (.invalidArgument s!"row has {values.length} values for {names.length} columns"), d)
  | misfit {before : List (String × Value)} {name : String} {i : m.Index} {e : CoerceError} {d' : ρ}
    (hlength : values.length = names.length)
    (hmisfit : FirstMisfit F m (names.zip values) before name i e)
    (hcopies : Copies F m before d d') (hkeeps : KeepsRemainder F m d d') :
    RowRun F m names values d (.error (.scanTypeMismatch name (m.field i).field e), d')
  | copied {d' : ρ} (hlength : values.length = names.length)
    (hall : ∀ c ∈ names.zip values, Fits F m c) (hcopies : Copies F m (names.zip values) d d')
    (hkeeps : KeepsRemainder F m d d')
    (hnothing : m.remainder = none ∨ remainderText? m (names.zip values) = none) :
    RowRun F m names values d (.ok (), d')
  | filled {d₁ d' : ρ} {f : RemainderField} {text : String} (hlength : values.length = names.length)
    (hall : ∀ c ∈ names.zip values, Fits F m c) (hcopies : Copies F m (names.zip values) d d₁)
    (hkeeps : KeepsRemainder F m d d₁) (hf : m.remainder = some f)
    (htext : remainderText? m (names.zip values) = some text)
    (hset : type.set d₁ f.path (.text text) = .ok d') : RowRun F m names values d (.ok (), d')
  | unfilled {d' : ρ} {f : RemainderField} {text : String} {e : CoerceError}
    (hlength : values.length = names.length) (hall : ∀ c ∈ names.zip values, Fits F m c)
    (hcopies : Copies F m (names.zip values) d d') (hkeeps : KeepsRemainder F m d d')
    (hf : m.remainder = some f) (htext : remainderText? m (names.zip values) = some text)
    (hset : type.set d' f.path (.text text) = .error e) :
    RowRun F m names values d (.error (.scanTypeMismatch "<remainder>" f.field e), d')

theorem exec_remainder_of_none (hnone : m.remainder = none) (s : Copied ρ) :
    (remainder m type).exec s = (.ok (), s) := by
  rw [remainder, Action.exec_of, hnone]

theorem exec_remainder_of_set {f : RemainderField} (hf : m.remainder = some f) {s : Copied ρ}
    (hne : s.unmatched ≠ [])
    (hset : type.set s.record f.path (.text (JsonLibrary.print (.object s.unmatched))) = .ok d₁) :
    (remainder m type).exec s = (.ok (), { s with record := d₁ }) := by
  have hempty : ¬ s.unmatched.isEmpty = true := by simpa using hne
  rw [remainder, Action.exec_of, hf]
  simp only [if_neg hempty, hset]

theorem exec_remainder_of_error {f : RemainderField} (hf : m.remainder = some f) {s : Copied ρ}
    (hne : s.unmatched ≠ []) {e : CoerceError}
    (hset : type.set s.record f.path (.text (JsonLibrary.print (.object s.unmatched))) = .error e) :
    (remainder m type).exec s = (.error (.scanTypeMismatch "<remainder>" f.field e), s) := by
  have hempty : ¬ s.unmatched.isEmpty = true := by simpa using hne
  rw [remainder, Action.exec_of, hf]
  simp only [if_neg hempty, hset]

theorem rowRun_row (F : type.Fields) (hm : type.mapping = .ok m) (names : List String)
    (values : List Value) (d : ρ) :
    RowRun F m names values d ((row m type names values).exec d) := by
  by_cases hlength : values.length = names.length
  · have hcopying := copying_columns F hm (names.zip values) ⟨d, []⟩
    rcases hrun : (columns m type (names.zip values)).exec ⟨d, []⟩ with ⟨r, s⟩
    rw [row, Action.exec_of, if_neg (not_not.2 hlength)]
    rw [hrun] at hcopying
    cases hcopying with
    | misfit hmisfit hcopies hkeeps =>
      rw [Action.exec_bind_error hrun]
      exact .misfit hlength hmisfit hcopies hkeeps
    | @all d₁ hall hcopies hkeeps =>
      rw [Action.exec_bind_ok hrun]
      cases hf : m.remainder with
      | none =>
        rw [exec_remainder_of_none hf]
        exact .copied hlength hall hcopies hkeeps (.inl hf)
      | some f =>
        by_cases hnil : captured m [] (names.zip values) = []
        · rw [exec_remainder hnil]
          exact .copied hlength hall hcopies hkeeps (.inr (if_pos hnil))
        · cases hset : type.set d₁ f.path
            (.text (JsonLibrary.print (.object (captured m [] (names.zip values))))) with
          | ok d' =>
            rw [exec_remainder_of_set hf hnil hset]
            exact .filled hlength hall hcopies hkeeps hf (if_neg hnil) hset
          | error e =>
            rw [exec_remainder_of_error hf hnil hset]
            exact .unfilled hlength hall hcopies hkeeps hf (if_neg hnil) hset
  · rw [row, Action.exec_of, if_pos hlength]
    exact .refused hlength

/-- **What copying a row does.**  A row of another width is refused.  One whose columns all fit is
copied, the last value of a field counting; and one with a misfit up to the first of them, which is
told of as it is spelled in the row. -/
theorem row_copies (F : type.Fields) (hm : type.mapping = .ok m) (names : List String)
    (values : List Value) (d : ρ) {r : Except Error Unit} {d' : ρ}
    (h : (row m type names values).exec d = (r, d')) : RowCopied F m names values d r d' := by
  have hrun := rowRun_row F hm names values d
  rw [h] at hrun
  cases hrun with
  | refused hlength =>
    exact ⟨fun _ => ⟨rfl, rfl⟩, fun heq => absurd heq hlength, fun heq => absurd heq hlength,
      fun heq => absurd heq hlength⟩
  | @misfit before name i e d' hlength hmisfit hcopies hkeeps =>
    exact ⟨absurd hlength, fun _ hall => absurd hall hmisfit.not_fits,
      fun _ _ => ⟨before, name, i, e, hmisfit, rfl, hcopies, hkeeps⟩,
      fun _ hall => absurd hall hmisfit.not_fits⟩
  | copied hlength hall hcopies hkeeps hnothing =>
    refine ⟨absurd hlength, fun _ _ _ => ⟨rfl, hcopies⟩,
      fun _ hmisfit => absurd hmisfit (not_exists_misfit hall), ?_⟩
    intro _ _ f hf text htext
    rcases hnothing with hnone | hnone
    · exact absurd (hnone.symm.trans hf) (by simp)
    · exact absurd (hnone.symm.trans htext) (by simp)
  | @filled d₁ d' f text hlength hall hcopies hkeeps hf htext hset =>
    refine ⟨absurd hlength, fun _ _ _ => ⟨rfl, hcopies.set_remainder hm hf hset⟩,
      fun _ hmisfit => absurd hmisfit (not_exists_misfit hall), ?_⟩
    intro _ _ g hg text' htext' e hrefuses
    obtain rfl : f = g := Option.some.inj (hf.symm.trans hg)
    obtain rfl : text = text' := Option.some.inj (htext.symm.trans htext')
    exact absurd (hset.symm.trans (F.set_of_refuses hrefuses d₁)) (by simp)
  | @unfilled d' f text e hlength hall hcopies hkeeps hf htext hset =>
    refine ⟨absurd hlength, fun _ _ hremainder => ?_,
      fun _ hmisfit => absurd hmisfit (not_exists_misfit hall), ?_⟩
    · obtain ⟨d₂, hset'⟩ := F.set_of_takes (hremainder f hf text htext) d'
      exact absurd (hset.symm.trans hset') (by simp)
    · intro _ _ g hg text' htext' e' hrefuses
      obtain rfl : f = g := Option.some.inj (hf.symm.trans hg)
      obtain rfl : text = text' := Option.some.inj (htext.symm.trans htext')
      obtain rfl : e = e' := Except.error.inj (hset.symm.trans (F.set_of_refuses hrefuses d'))
      exact ⟨rfl, hcopies, hkeeps⟩

end

/-! ## A sensor that is moved -/

/-- The type of sensors. -/
def sensorType : RecordType sensorShape.Data := sensorShape.recordType "Sensor"

/-- The fields of sensors. -/
def sensorFields : sensorType.Fields := sensorShape.fields "Sensor"

/-- The sensor with another id and room. -/
def movedSensor (id : Int64) (room : Value) : sensorShape.Data :=
  (⟨id.toInt, IntKind.int64_holds id⟩, sensor.2.1, sensor.2.2.1, (some room, ()), sensor.2.2.2.2)

/-- Of two values for the room the second counts, and only the first is copied if the id between
them does not fit. -/
theorem row_copies_sensor :
    (row sensorMapping sensorType ["Room", "ID", "ROOM"] [.text "a", .integer 9, .text "b"]).exec
      sensor = (.ok (), movedSensor 9 (.text "b")) ∧
    RowCopied sensorFields sensorMapping ["Room", "ID", "ROOM"]
      [.text "a", .integer 9, .text "b"] sensor (.ok ()) (movedSensor 9 (.text "b")) ∧
    (row sensorMapping sensorType ["Room", "ID", "ROOM"] [.text "a", .text "x", .text "b"]).exec
      sensor = (.error (.scanTypeMismatch "ID" "id" (.ofKind "i64" (.text "x"))),
        movedSensor 7 (.text "a")) ∧
    RowCopied sensorFields sensorMapping ["Room", "ID", "ROOM"]
      [.text "a", .text "x", .text "b"] sensor
      (.error (.scanTypeMismatch "ID" "id" (.ofKind "i64" (.text "x"))))
      (movedSensor 7 (.text "a")) := by
  have hall : (row sensorMapping sensorType ["Room", "ID", "ROOM"]
      [.text "a", .integer 9, .text "b"]).exec sensor = (.ok (), movedSensor 9 (.text "b")) := by
    rfl
  have hmisfit : (row sensorMapping sensorType ["Room", "ID", "ROOM"]
      [.text "a", .text "x", .text "b"]).exec sensor =
        (.error (.scanTypeMismatch "ID" "id" (.ofKind "i64" (.text "x"))),
          movedSensor 7 (.text "a")) := by
    rfl
  exact ⟨hall, row_copies sensorFields mapping_sensorShape _ _ _ hall, hmisfit,
    row_copies sensorFields mapping_sensorShape _ _ _ hmisfit⟩

end Scan
end TableRecords
