import TableRecords.Proofs.Session.Serving
import TableRecords.Proofs.Statement.Key

/-!
# Rows that are written but not read back

Behind the checks of an insert, one thing can still go wrong without an answer of the adapter
telling of it: the row is written, but the columns that the database assigned cannot be asked for.

    error_of_send : an error of an insert that was sent is reported, or the row is `Unread`
    unread_iff    : `Unread` means that the id of the row was to be its key
-/

namespace TableRecords

variable {σ η ρ : Type} {m : Mapping} {type : RecordType ρ} {table : Table} {key : List m.Index}

/-! ## Errors of what is sent -/

namespace Session

variable {s : Session σ η} {P : Cursor → Prop}

/-- The row of an insert is written, but the columns that the database assigned cannot be asked
for. -/
def Unread (s : Session σ η) (m : Mapping) (type : RecordType ρ) (table : Table)
    (key : List m.Index) (st : InsertStatement m) (d : ρ) (db : σ) (e : Error) : Prop :=
  st.readBack ≠ [] ∧ s.dialect.insertMethod = .lastInsertId ∧
    ∃ result db₁ d₁ pending, (s.execute st.toStatement).exec db = (.ok result, db₁) ∧
      takeId m type key st.readBack result.lastInsertId d = .ok (d₁, pending) ∧ pending ≠ [] ∧
      Statement.fetch m type s.dialect table key pending d₁ = .error e

theorem mismatch_of_takeId {pending : List m.Index} {id : Option Int64} {d : ρ} {e : Error}
    (h : takeId m type key pending id d = .error e) : Scan.Mismatch e := by
  unfold takeId at h
  split at h
  · split at h
    · dsimp only at h
      split at h
      · exact absurd h (by simp)
      · cases h
        exact ⟨_, _, _, rfl⟩
    · exact absurd h (by simp)
  · exact absurd h (by simp)

variable [JsonLibrary]

theorem error_of_send (ha : s.adapter.Serves P) {st : InsertStatement m} {d : ρ} {db : σ}
    {e : Error} {after : ρ × σ}
    (h : (s.send m type table key st).exec (d, db) = (.error e, after)) :
    e.Reported P ∨ s.Unread m type table key st d db e := by
  rw [exec_send] at h
  rcases hexec : (s.execute st.toStatement).exec db with ⟨r, db₁⟩
  rw [hexec] at h
  by_cases hread : st.readBack = []
  · rw [if_pos hread] at h
    cases r with
    | error f =>
      cases h
      exact .inl (reported_of_execute ha hexec)
    | ok result => exact absurd h (by simp [Except.map])
  · rw [if_neg hread] at h
    by_cases hmethod : s.dialect.insertMethod = .lastInsertId
    · rw [if_pos hmethod] at h
      cases r with
      | error f =>
        cases h
        exact .inl (reported_of_execute ha hexec)
      | ok result =>
        dsimp only at h
        rw [exec_readAssigned] at h
        split at h
        · next htake =>
          cases h
          obtain ⟨column, field, source, rfl⟩ := mismatch_of_takeId htake
          exact .inl (.mismatch column field source)
        · next d₁ pending htake =>
          by_cases hpending : pending = []
          · rw [if_pos hpending] at h
            exact absurd h (by simp)
          · rw [if_neg hpending] at h
            split at h
            · next hfetch =>
              cases h
              exact .inr ⟨hread, hmethod, result, db₁, d₁, pending, hexec, htake, hpending, hfetch⟩
            · split at h
              · exact absurd h (by simp)
              · cases h
                exact .inl (.notFound _)
              · next hscan =>
                cases h
                exact .inl (reported_of_scanFirst ha hscan)
    · rw [if_neg hmethod] at h
      exact .inl (reported_of_insertReturning ha h)

theorem send_of_unread {st : InsertStatement m} {d : ρ} {db : σ} {e : Error}
    (h : s.Unread m type table key st d db e) :
    ((s.send m type table key st).exec (d, db)).1 = .error e := by
  obtain ⟨hread, hmethod, result, db₁, d₁, pending, hexec, htake, hpending, hfetch⟩ := h
  rw [exec_send, if_neg hread, if_pos hmethod, hexec]
  dsimp only
  rw [exec_readAssigned, htake]
  dsimp only
  rw [if_neg hpending, hfetch]

end Session

/-! ## What the checks leave open -/

/-- A key column that an insert writes is assigned. -/
theorem InsertPlan.assigned_of_not_mem {d : ρ} {is : List m.Index} {plan : InsertPlan m}
    (h : ofIndexes m type key d is = .ok plan) {i : m.Index} (hi : i ∈ is) (hkey : i ∈ key)
    (hread : i ∉ plan.readBack) : ∃ v, m.valueOf type d i = .ok v ∧ v.isZero = false := by
  obtain ⟨hwritten, hreadBack⟩ := mem_iff h i
  have hpending : ¬ m.Pending type key d i := fun hpending => hread (hreadBack.2 ⟨hi, hpending⟩)
  obtain ⟨p, hp, rfl⟩ := List.mem_map.1 (hwritten.2 ⟨hi, hpending⟩)
  have hv := valueOf_of_mem_written h hp
  refine ⟨p.2, hv, ?_⟩
  rw [← Bool.not_eq_true, p.2.isZero_iff]
  exact fun hzero => hpending (.inr ⟨hkey, p.2, hv, hzero⟩)

namespace Session

variable {s : Session σ η}

theorem checked_eq_ok {d : ρ} {st : InsertStatement m}
    (h : s.checked m type table key d = .ok st) :
    (∃ plan, InsertPlan.ofRecord m type key d = .ok plan ∧ st.readBack = plan.readBack) ∧
      (s.dialect.insertMethod = .lastInsertId →
        s.checkReadBack m type table key st.readBack = .ok ()) := by
  have hst := s.ofRecord_of_checked m type table key h
  constructor
  · obtain ⟨plan, hplan, -, rfl⟩ := InsertStatement.ofRecord_eq_ok_iff.1 hst
    exact ⟨plan, hplan, rfl⟩
  · intro hlast
    rw [checked_of_ok s m type table key hst, if_pos hlast] at h
    cases hcheck : s.checkReadBack m type table key st.readBack with
    | error e =>
      rw [hcheck] at h
      exact absurd h (by simp [Except.map])
    | ok u => rfl

/-- The checks of all records. -/
theorem forM_checkInsert_eq_ok_iff (hmethod : s.dialect.insertMethod = .lastInsertId)
    {ds : List ρ} : ds.forM (s.checkInsert m type table key) = .ok () ↔
      ∀ d ∈ ds, ∃ st, s.checked m type table key d = .ok st := by
  induction ds with
  | nil => exact iff_of_true rfl fun d hd => absurd hd List.not_mem_nil
  | cons d ds ih =>
    show (s.checkInsert m type table key d >>= fun _ =>
      ds.forM (s.checkInsert m type table key)) = .ok () ↔ _
    rw [bind_eq_ok_iff, s.checkInsert_eq m type table key d hmethod, List.forall_mem_cons]
    cases s.checked m type table key d with
    | error e => simp [Except.map]
    | ok st => simpa [Except.map] using ih

/-- What a read-back by the id of a row is checked for. -/
theorem checkReadBack_eq_ok {pending : List m.Index}
    (h : s.checkReadBack m type table key pending = .ok ()) (hpending : pending ≠ []) :
    key ≠ [] ∧ ((∀ i ∈ key, i ∉ pending) ∨
      ∃ i, key = [i] ∧ i ∈ pending ∧
        ∃ d, type.set type.zero (m.field i).path (.integer 1) = .ok d) := by
  have hempty : ¬ pending.isEmpty = true := by simpa using hpending
  rw [checkReadBack, if_neg hempty] at h
  split at h
  · exact absurd h (by simp)
  · next hkey =>
    refine ⟨by simpa using hkey, ?_⟩
    split at h
    · next hfilter =>
      left
      intro i hi hread
      have hmem : i ∈ key.filter (· ∈ pending) := List.mem_filter.2 ⟨hi, by simpa using hread⟩
      rw [hfilter] at hmem
      exact absurd hmem List.not_mem_nil
    · next i more hfilter =>
      have hmem : i ∈ key.filter (· ∈ pending) := by
        rw [hfilter]
        exact List.mem_cons_self
      obtain ⟨hi, hread⟩ := List.mem_filter.1 hmem
      dsimp only at h
      split at h
      · next hlength =>
        obtain ⟨j, rfl⟩ := List.length_eq_one_iff.1 hlength
        obtain rfl := List.mem_singleton.1 hi
        right
        refine ⟨i, rfl, by simpa using hread, ?_⟩
        split at h
        · next d hset => exact ⟨d, hset⟩
        · exact absurd h (by simp)
      · exact absurd h (by simp)

/-- A record whose key is written can be asked for. -/
theorem keyValues_of_written {d : ρ} {plan : InsertPlan m}
    (hplan : InsertPlan.ofRecord m type key d = .ok plan) (hkey : key ≠ [])
    (hwritten : ∀ i ∈ key, i ∉ plan.readBack) :
    ∃ vs, m.keyValues type table key d = .ok vs := by
  refine Mapping.exists_keyValues_iff.2 ⟨hkey, fun i hi => ?_⟩
  obtain ⟨v, hv, hzero⟩ :=
    InsertPlan.assigned_of_not_mem hplan (List.mem_finRange i) hi (hwritten i hi)
  exact ⟨v, hv, by rw [← v.isZero_iff, hzero]; exact Bool.false_ne_true⟩

theorem keyValues_singleton_eq_error_iff {d : ρ} {i : m.Index} {e : Error} :
    m.keyValues type table [i] d = .error e ↔ m.keyValue type table d i = .error e := by
  show [i].mapM (m.keyValue type table d) = _ ↔ _
  rw [List.mapM_cons, List.mapM_nil]
  cases m.keyValue type table d i <;> simp [bind, Except.bind, pure, Except.pure]

theorem fetch_eq_error_iff {pending : List m.Index} {d : ρ} {e : Error} :
    Statement.fetch m type s.dialect table key pending d = .error e ↔
      m.keyValues type table key d = .error e := by
  unfold Statement.fetch
  cases m.keyValues type table key d <;> simp [bind, Except.bind, pure, Except.pure]

theorem takeId_of_written {pending : List m.Index} (h : ∀ i ∈ key, i ∉ pending)
    (id : Option Int64) (d : ρ) : takeId m type key pending id d = .ok (d, pending) := by
  unfold takeId
  split
  · next i id => rw [if_neg (h i List.mem_cons_self)]
  · rfl

theorem takeId_none (pending : List m.Index) (d : ρ) :
    takeId m type key pending none d = .ok (d, pending) := by
  unfold takeId
  split
  · next h => exact absurd h (by simp)
  · rfl

theorem takeId_some {pending : List m.Index} {i : m.Index} (hi : i ∈ pending) (id : Int64)
    (d : ρ) : takeId m type [i] pending (some id) d =
      match type.set d (m.field i).path (.integer id) with
      | .ok d => .ok (d, pending.erase i)
      | .error e => .error (.scanTypeMismatch (m.field i).column (m.field i).field e) := by
  rw [takeId]
  exact if_pos hi

theorem erase_eq_nil_iff {α : Type} [DecidableEq α] {xs : List α} {x : α} (hx : x ∈ xs) :
    xs.erase x = [] ↔ xs = [x] := by
  constructor
  · intro h
    have hlength := List.length_erase_of_mem hx
    rw [h, List.length_nil] at hlength
    have hpos := List.length_pos_of_mem hx
    obtain ⟨y, rfl⟩ := List.length_eq_one_iff.1 (by omega : xs.length = 1)
    rw [List.mem_singleton.1 hx]
  · rintro rfl
    simp

/-- Where nothing can be asked for, the id of the row was to be the key. -/
theorem unread_iff {st : InsertStatement m} {d : ρ} {db : σ} {e : Error}
    (hchecked : s.checked m type table key d = .ok st) :
    s.Unread m type table key st d db e ↔
      s.dialect.insertMethod = .lastInsertId ∧
        ∃ result db₁ i d₁, (s.execute st.toStatement).exec db = (.ok result, db₁) ∧ key = [i] ∧
          i ∈ st.readBack ∧ m.keyValue type table d₁ i = .error e ∧
          match result.lastInsertId with
          | none => d₁ = d
          | some id => st.readBack ≠ [i] ∧ type.set d (m.field i).path (.integer id) = .ok d₁ := by
  constructor
  · rintro ⟨hread, hmethod, result, db₁, d₁, pending, hexec, htake, hpending, hfetch⟩
    obtain ⟨⟨plan, hplan, hplanRead⟩, hcheck⟩ := checked_eq_ok hchecked
    rw [fetch_eq_error_iff] at hfetch
    refine ⟨hmethod, result, db₁, ?_⟩
    obtain ⟨hkey, hwritten | ⟨i, rfl, hi, -⟩⟩ := checkReadBack_eq_ok (hcheck hmethod) hread
    · -- Every key column was written, so the key is known.
      rw [takeId_of_written hwritten] at htake
      obtain ⟨rfl, -⟩ := Prod.mk.inj (Except.ok.inj htake)
      rw [hplanRead] at hwritten
      obtain ⟨vs, hvs⟩ := keyValues_of_written hplan hkey hwritten
      rw [hvs] at hfetch
      exact absurd hfetch (by simp)
    · rw [keyValues_singleton_eq_error_iff] at hfetch
      refine ⟨i, d₁, hexec, rfl, hi, hfetch, ?_⟩
      cases hid : result.lastInsertId with
      | none =>
        rw [hid, takeId_none] at htake
        exact (Prod.mk.inj (Except.ok.inj htake)).1.symm
      | some id =>
        rw [hid, takeId_some hi] at htake
        split at htake
        · next hset =>
          obtain ⟨rfl, rfl⟩ := Prod.mk.inj (Except.ok.inj htake)
          exact ⟨fun hone => hpending ((erase_eq_nil_iff hi).2 hone), hset⟩
        · exact absurd htake (by simp)
  · rintro ⟨hmethod, result, db₁, i, d₁, hexec, rfl, hi, hvalue, hid⟩
    have hread : st.readBack ≠ [] := List.ne_nil_of_mem hi
    have hfetch : ∀ pending, Statement.fetch m type s.dialect table [i] pending d₁ = .error e := by
      intro pending
      rw [fetch_eq_error_iff, keyValues_singleton_eq_error_iff]
      exact hvalue
    refine ⟨hread, hmethod, result, db₁, d₁, ?_⟩
    cases hlast : result.lastInsertId with
    | none =>
      rw [hlast] at hid
      obtain rfl := hid
      exact ⟨st.readBack, hexec, takeId_none _ _, hread, hfetch _⟩
    | some id =>
      rw [hlast] at hid
      obtain ⟨hne, hset⟩ := hid
      refine ⟨st.readBack.erase i, hexec, ?_, ?_, hfetch _⟩
      · rw [takeId_some hi, hset]
      · rwa [ne_eq, erase_eq_nil_iff hi]

end Session
end TableRecords
