import Mathlib

/-!
# Computations that can fail

How a composed computation ends, told by how its parts end:

    x >>= f = .ok b ↔ ∃ a, x = .ok a ∧ f a = .ok b                     (bind_eq_ok_iff)
    xs.mapM f = .ok ys ↔ xs.map f = ys.map .ok                         (mapM_eq_ok_iff)
    xs.mapM f = .error e ↔ f fails with `e` first                      (mapM_eq_error_iff)
-/

namespace TableRecords

variable {ε ε' α β : Type}

theorem bind_eq_ok_iff {x : Except ε α} {f : α → Except ε β} {b : β} :
    x >>= f = .ok b ↔ ∃ a, x = .ok a ∧ f a = .ok b := by
  cases x <;> simp [bind, Except.bind]

theorem bind_eq_error_iff {x : Except ε α} {f : α → Except ε β} {e : ε} :
    x >>= f = .error e ↔ x = .error e ∨ ∃ a, x = .ok a ∧ f a = .error e := by
  cases x <;> simp [bind, Except.bind]

theorem mapError_eq_ok_iff {x : Except ε α} {f : ε → ε'} {a : α} :
    x.mapError f = .ok a ↔ x = .ok a := by
  cases x <;> simp [Except.mapError]

theorem mapM_eq_ok_iff {f : α → Except ε β} {xs : List α} {ys : List β} :
    xs.mapM f = .ok ys ↔ xs.map f = ys.map .ok := by
  induction xs generalizing ys with
  | nil =>
    rw [List.mapM_nil, List.map_nil]
    constructor
    · intro h
      obtain rfl := Except.ok.inj h
      rfl
    · intro h
      rw [List.map_eq_nil_iff.1 h.symm]
      rfl
  | cons x xs ih =>
    rw [List.mapM_cons, List.map_cons]
    simp only [bind_eq_ok_iff, ih]
    constructor
    · rintro ⟨y, hy, ys', hys, h⟩
      obtain rfl := Except.ok.inj h
      rw [List.map_cons, hy, hys]
    · intro h
      cases ys with
      | nil => exact absurd h (by simp)
      | cons y ys =>
        rw [List.map_cons, List.cons.injEq] at h
        exact ⟨y, h.1, ys, h.2, rfl⟩

theorem map_of_mapM_eq_ok {f g : α → Except ε β} {xs : List α} {ys : List β}
    (h : xs.mapM f = .ok ys) (hfg : ∀ x y, f x = .ok y → g x = .ok y) :
    xs.map g = ys.map .ok := by
  rw [mapM_eq_ok_iff] at h
  induction xs generalizing ys with
  | nil =>
    rw [List.map_eq_nil_iff.1 h.symm]
    rfl
  | cons x xs ih =>
    cases ys with
    | nil => exact absurd h (by simp)
    | cons y ys =>
      rw [List.map_cons, List.map_cons, List.cons.injEq] at h
      rw [List.map_cons, List.map_cons, hfg x y h.1, ih h.2]

/-- What a list of computations gives, one of them gives. -/
theorem exists_of_mem_map_ok {f : α → Except ε β} {xs : List α} {ys : List β}
    (h : xs.map f = ys.map .ok) {y : β} (hy : y ∈ ys) : ∃ x ∈ xs, f x = .ok y := by
  have hy : Except.ok y ∈ xs.map f := h ▸ List.mem_map_of_mem hy
  exact List.mem_map.1 hy

theorem exists_mapM_eq_ok {f : α → Except ε β} {xs : List α} (h : ∀ x ∈ xs, ∃ y, f x = .ok y) :
    ∃ ys, xs.mapM f = .ok ys := by
  induction xs with
  | nil => exact ⟨[], rfl⟩
  | cons x xs ih =>
    obtain ⟨y, hy⟩ := h x List.mem_cons_self
    obtain ⟨ys, hys⟩ := ih fun x hx => h x (List.mem_cons_of_mem _ hx)
    refine ⟨y :: ys, ?_⟩
    rw [List.mapM_cons, hy, hys]
    rfl

theorem exists_mapM_eq_ok_iff {f : α → Except ε β} {xs : List α} :
    (∃ ys, xs.mapM f = .ok ys) ↔ ∀ x ∈ xs, ∃ y, f x = .ok y := by
  constructor
  · rintro ⟨ys, h⟩ x hx
    have hmem : f x ∈ xs.map f := List.mem_map_of_mem hx
    rw [mapM_eq_ok_iff.1 h] at hmem
    obtain ⟨y, -, hy⟩ := List.mem_map.1 hmem
    exact ⟨y, hy.symm⟩
  · exact exists_mapM_eq_ok

/-- The first error is that of the whole. -/
theorem mapM_eq_error_iff {f : α → Except ε β} {xs : List α} {e : ε} :
    xs.mapM f = .error e ↔ ∃ before x after, xs = before ++ x :: after ∧
      (∀ y ∈ before, ∃ b, f y = .ok b) ∧ f x = .error e := by
  induction xs with
  | nil =>
    rw [List.mapM_nil]
    constructor
    · intro h
      cases h
    · rintro ⟨before, x, after, h, -⟩
      exact absurd h (by simp)
  | cons y ys ih =>
    rw [List.mapM_cons, bind_eq_error_iff]
    constructor
    · rintro (hy | ⟨b, hy, hrest⟩)
      · exact ⟨[], y, ys, rfl, fun _ h => absurd h List.not_mem_nil, hy⟩
      · have hrest : ys.mapM f = .error e := by
          rcases bind_eq_error_iff.1 hrest with hrest | ⟨bs, -, h⟩
          · exact hrest
          · cases h
        obtain ⟨before, x, after, rfl, hbefore, hx⟩ := ih.1 hrest
        exact ⟨y :: before, x, after, rfl, List.forall_mem_cons.2 ⟨⟨b, hy⟩, hbefore⟩, hx⟩
    · rintro ⟨before, x, after, hsplit, hbefore, hx⟩
      cases before with
      | nil =>
        obtain ⟨rfl, -⟩ := List.cons.inj hsplit
        exact .inl hx
      | cons z before =>
        obtain ⟨rfl, hys⟩ := List.cons.inj hsplit
        obtain ⟨⟨b, hy⟩, hbefore⟩ := List.forall_mem_cons.1 hbefore
        have hrest : ys.mapM f = .error e := ih.2 ⟨before, x, after, hys, hbefore, hx⟩
        exact .inr ⟨b, hy, bind_eq_error_iff.2 (.inl hrest)⟩

theorem forM_of_ok {f : α → Except ε Unit} {xs : List α} (h : ∀ x ∈ xs, f x = .ok ()) :
    xs.forM f = .ok () := by
  induction xs with
  | nil => rfl
  | cons x xs ih =>
    show (f x >>= fun _ => xs.forM f) = _
    rw [h x List.mem_cons_self]
    exact ih fun y hy => h y (List.mem_cons_of_mem x hy)

theorem forM_cons_of_error {f : α → Except ε Unit} {x : α} {e : ε} (h : f x = .error e)
    (xs : List α) : (x :: xs).forM f = .error e := by
  show (f x >>= fun _ => xs.forM f) = _
  rw [h]
  rfl

/-- The first error is that of the whole. -/
theorem forM_of_first_error {f : α → Except ε Unit} {before : List α} {x : α} {e : ε}
    (hbefore : ∀ y ∈ before, f y = .ok ()) (hx : f x = .error e) (after : List α) :
    (before ++ x :: after).forM f = .error e := by
  induction before with
  | nil => exact forM_cons_of_error hx after
  | cons y before ih =>
    show (f y >>= fun _ => (before ++ x :: after).forM f) = _
    rw [hbefore y List.mem_cons_self]
    exact ih fun z hz => hbefore z (List.mem_cons_of_mem y hz)

/-! ## Results -/

/-- The result, if there is one, satisfies `Q`. -/
def Yields (Q : α → Prop) (x : Except ε α) : Prop := ∀ a, x = .ok a → Q a

theorem yields_ok {Q : α → Prop} {a : α} (h : Q a) : Yields Q (.ok a : Except ε α) :=
  fun _ ha => Except.ok.inj ha ▸ h

theorem yields_error {Q : α → Prop} (e : ε) : Yields Q (.error e : Except ε α) :=
  fun _ h => absurd h (by simp)

theorem yields_bind {Q : β → Prop} {x : Except ε α} {f : α → Except ε β}
    (h : ∀ a, Yields Q (f a)) : Yields Q (x >>= f) := by
  intro b hb
  obtain ⟨a, -, hb⟩ := bind_eq_ok_iff.1 hb
  exact h a b hb

theorem yields_mapM {Q : β → Prop} {f : α → Except ε β} (h : ∀ a, Yields Q (f a)) (xs : List α) :
    Yields (fun ys => ∀ y ∈ ys, Q y) (xs.mapM f) := by
  intro ys hys y hy
  obtain ⟨x, -, hx⟩ := exists_of_mem_map_ok (mapM_eq_ok_iff.1 hys) hy
  exact h x y hx

theorem exists_eq_ok_of_any {x : Except ε α} {Q : α → Bool} (h : x.toOption.any Q = true) :
    ∃ a, x = .ok a ∧ Q a = true := by
  cases x with
  | error e => exact absurd h (by simp [Except.toOption])
  | ok a => exact ⟨a, rfl, h⟩

/-! ## Computations on a state -/

section

variable {σ : Type}

theorem run_bind_state (x : ExceptT ε (StateM σ) α) (f : α → ExceptT ε (StateM σ) β) (s : σ) :
    (x >>= f).run s =
      match x.run s with
      | (.ok a, s') => (f a).run s'
      | (.error e, s') => (.error e, s') := by
  show (match x s with
    | (r, s') => ExceptT.bindCont f r s') = _
  rcases h : x s with ⟨r, s'⟩
  have h : x.run s = (r, s') := h
  rw [h]
  cases r <;> rfl

theorem run_tryCatch_state (x : ExceptT ε (StateM σ) α) (handle : ε → ExceptT ε (StateM σ) α)
    (s : σ) :
    (tryCatch x handle : ExceptT ε (StateM σ) α).run s =
      match x.run s with
      | (.ok a, s') => (.ok a, s')
      | (.error e, s') => (handle e).run s' := by
  show (ExceptT.tryCatch x handle : ExceptT ε (StateM σ) α) s = _
  unfold ExceptT.tryCatch
  show (match x s with
    | (r, s') => (_ : StateM σ (Except ε α)) s') = _
  rcases h : x s with ⟨r, s'⟩
  have h : x.run s = (r, s') := h
  rw [h]
  cases r <;> rfl

/-- The result, if there is one, satisfies `Q`, whatever the state. -/
def Gives (Q : α → Prop) (x : ExceptT ε (StateM σ) α) : Prop := ∀ s, Yields Q (x.run s).1

theorem gives_pure {Q : α → Prop} {a : α} (h : Q a) :
    Gives Q (pure a : ExceptT ε (StateM σ) α) :=
  fun _ => yields_ok h

theorem gives_throw {Q : α → Prop} (e : ε) : Gives Q (throw e : ExceptT ε (StateM σ) α) :=
  fun _ => yields_error e

theorem gives_liftM {Q : α → Prop} {x : Except ε α} (h : Yields Q x) :
    Gives Q (liftM x : ExceptT ε (StateM σ) α) := by
  intro s
  cases x <;> exact h

theorem Gives.bind {P : α → Prop} {Q : β → Prop} {x : ExceptT ε (StateM σ) α}
    {f : α → ExceptT ε (StateM σ) β} (hx : Gives P x) (hf : ∀ a, P a → Gives Q (f a)) :
    Gives Q (x >>= f) := by
  intro s
  rw [run_bind_state]
  rcases hrun : x.run s with ⟨e | a, s'⟩
  · exact yields_error e
  · exact hf a (hx s a (by rw [hrun])) s'

theorem gives_bind {Q : β → Prop} {x : ExceptT ε (StateM σ) α} {f : α → ExceptT ε (StateM σ) β}
    (hf : ∀ a, Gives Q (f a)) : Gives Q (x >>= f) :=
  Gives.bind (P := fun _ => True) (fun _ _ _ => trivial) fun a _ => hf a

theorem Gives.tryCatch {Q : α → Prop} {x : ExceptT ε (StateM σ) α}
    {handle : ε → ExceptT ε (StateM σ) α} (hx : Gives Q x) (hhandle : ∀ e, Gives Q (handle e)) :
    Gives Q (tryCatch x handle) := by
  intro s
  rw [run_tryCatch_state]
  rcases hrun : x.run s with ⟨e | a, s'⟩
  · exact hhandle e s'
  · exact yields_ok (hx s a (by rw [hrun]))

end

end TableRecords
