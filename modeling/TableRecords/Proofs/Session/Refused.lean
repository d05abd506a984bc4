import TableRecords.Proofs.Record.Fields
import TableRecords.Proofs.Session.Unread

/-!
# Refused inserts

On an adapter that reports an id for every row it writes, an insert is refused before it is sent or
not at all: the id becomes a key that is assigned, so what was written can be asked for.

    not_unread                              : no row is written and not read back
    insert_of_refused, insertAll_of_refused : a refused insert changes nothing
-/

namespace TableRecords

variable {σ η ρ : Type}

/-- Every statement that succeeds has the id of a row. -/
def Adapter.ReportsIds (a : Adapter σ η) : Prop :=
  ∀ handle sql args db result db', (a.execute handle sql args).exec db = (.ok result, db') →
    ∃ id, result.lastInsertId = some id ∧ id ≠ 0

/-! ## Adapters with a log -/

theorem Adapter.Serves.traced {a : Adapter σ η} {P : Cursor → Prop} (h : a.Serves P) :
    a.traced.Serves P where
  execute handle sql args db e db' hrun := by
    have hfirst : ((a.execute handle sql args).exec db.1).1 = .error e := congrArg Prod.fst hrun
    exact h.execute handle sql args db.1 e _ (Prod.ext hfirst rfl)
  query handle sql args visit b db e after hrun := by
    have hfirst : ((a.query handle sql args visit).exec (b, db.1)).1 = .error e :=
      congrArg Prod.fst hrun
    exact h.query handle sql args visit b db.1 e _ (Prod.ext hfirst rfl)

theorem Adapter.ReportsIds.traced {a : Adapter σ η} (h : a.ReportsIds) : a.traced.ReportsIds := by
  intro handle sql args db result db' hrun
  have hfirst : ((a.execute handle sql args).exec db.1).1 = .ok result := congrArg Prod.fst hrun
  exact h handle sql args db.1 result _ (Prod.ext hfirst rfl)

/-! ## One record -/

namespace Session

variable {s : Session σ η} {type : RecordType ρ} {m : Mapping} {table : Table}
  {key : List m.Index} {F : type.Fields} (hcodec : ∀ p, (F.codec p).KeepsAssigned)
include hcodec

/-- The field of the key took an id that is not zero, so the key is assigned. -/
theorem not_unread (hm : type.mapping = .ok m) (hids : s.adapter.ReportsIds) {d : ρ}
    {st : InsertStatement m} (hchecked : s.checked m type table key d = .ok st) (db : σ) (e : Error) :
    ¬ s.Unread m type table key st d db e := by
  rw [unread_iff hchecked]
  rintro ⟨-, result, db₁, i, d₁, hexec, -, -, hvalue, hid⟩
  obtain ⟨id, hlast, hne⟩ := hids _ _ _ _ _ _ hexec
  rw [hlast] at hid
  obtain ⟨v, hget, hzero⟩ := F.isZero_of_set_integer hcodec (addresses_path hm i) hid.2
  have hassigned : ¬ v.isZero = true := fun h => hne (hzero h)
  rw [Mapping.keyValue, Mapping.valueOf, hget] at hvalue
  have hvalue : (if v.isZero = true then _ else Except.ok v) = Except.error e := hvalue
  rw [if_neg hassigned] at hvalue
  exact absurd hvalue (by simp)

variable [JsonLibrary]

theorem isRefusal_of_insertOne (hm : type.mapping = .ok m)
    (ha : s.adapter.Serves Cursor.Rectangular) (hids : s.adapter.ReportsIds) {d : ρ}
    {st : InsertStatement m} (hchecked : s.checked m type table key d = .ok st) {db : σ} {e : Error}
    {after : ρ × σ}
    (h : (s.insertOne m type table key).exec (d, db) = (.error e, after)) :
    e.isRefusal = false := by
  rw [s.exec_insertOne_of_checked m _ table key hchecked] at h
  rcases error_of_send ha h with hreported | hunread
  · exact hreported.isRefusal_eq_false
  · exact absurd hunread (not_unread hcodec hm hids hchecked db e)

theorem insert_of_refused (ha : s.adapter.Serves Cursor.Rectangular)
    (hids : s.adapter.ReportsIds) {d : ρ} {db : σ} {e : Error} {after : ρ × σ}
    (h : (s.insert type table).exec (d, db) = (.error e, after))
    (he : e.isRefusal = true) : after = (d, db) := by
  rw [exec_insert] at h
  split at h
  · cases h
    rfl
  · next m hm =>
    split at h
    · cases h
      rfl
    · next key hkey =>
      cases hchecked : s.checked m type table key d with
      | error f =>
        rw [s.exec_insertOne_of_refused m _ table key hchecked] at h
        cases h
        rfl
      | ok st =>
        rw [isRefusal_of_insertOne hcodec hm ha hids hchecked h] at he
        exact absurd he Bool.false_ne_true

/-! ## Several records -/

/-- No record behind the checks is refused, since none of those before it changes it. -/
theorem isRefusal_of_insertEach (hm : type.mapping = .ok m)
    (ha : s.adapter.Serves Cursor.Rectangular) (hids : s.adapter.ReportsIds) {ds : List ρ}
    (hchecked : ∀ d ∈ ds, ∃ st, s.checked m type table key d = .ok st)
    {db : σ} {e : Error} {after : List ρ × σ}
    (h : s.insertEach m type table key ds db = (.error e, after)) :
    e.isRefusal = false := by
  induction ds generalizing db after with
  | nil => exact absurd h (by simp [insertEach])
  | cons d ds ih =>
    rcases hrun : (s.insertOne m type table key).exec (d, db)
      with ⟨r, d₁, db₁⟩
    cases r with
    | error f =>
      rw [insertEach_cons_of_error _ _ _ _ _ hrun] at h
      cases h
      obtain ⟨st, hst⟩ := hchecked d List.mem_cons_self
      exact isRefusal_of_insertOne hcodec hm ha hids hst hrun
    | ok u =>
      rw [insertEach_cons_of_ok _ _ _ _ _ hrun] at h
      rcases hrest : s.insertEach m type table key ds db₁ with ⟨r, rest⟩
      rw [hrest] at h
      cases h
      exact ih (fun d hd => hchecked d (List.mem_cons_of_mem _ hd)) hrest

theorem insertAll_of_refused (ha : s.adapter.Serves Cursor.Rectangular)
    (hids : s.adapter.ReportsIds) {ds : List ρ} {db : σ} {e : Error}
    {after : List ρ × σ}
    (h : (s.insertAll type table).exec (ds, db) = (.error e, after))
    (he : e.isRefusal = true) : after = (ds, db) := by
  rw [exec_insertAll] at h
  split at h
  · exact absurd h (by simp)
  · split at h
    · cases h
      rfl
    · next m hm =>
      split at h
      · cases h
        rfl
      · next key hkey =>
        split at h
        · next hmethod =>
          split at h
          · cases h
            rfl
          · next u hforM =>
            have hchecked := (forM_checkInsert_eq_ok_iff hmethod).1 hforM
            rw [isRefusal_of_insertEach hcodec hm ha hids hchecked h] at he
            exact absurd he Bool.false_ne_true
        · split at h
          · cases h
            rfl
          · next st hst =>
            rw [(reported_of_sendMany ha h).isRefusal_eq_false] at he
            exact absurd he Bool.false_ne_true

end Session
end TableRecords
