import TableRecords.Proofs.Embedded.Frame

/-!
# The width of rows

A row that a plan gives has a cell for each of the plan's column names, whatever the content and the
arguments: `Run.wide_plan`.
-/

namespace TableRecords.Embedded

/-- Every row that can be read has a given number of cells. -/
def Rows.Wide (n : Nat) (rows : Rows) : Prop := ∀ cells, .ok cells ∈ rows → cells.length = n

namespace Rows

variable {n : Nat} {rows rows' : Rows}

theorem wide_nil : Wide n [] := fun _ h => absurd h (by simp)

theorem wide_fault (f : Fault) : Wide n [.error f] := fun _ h => absurd h (by simp)

theorem Wide.mono (h : Wide n rows) (hsub : ∀ row ∈ rows', row ∈ rows) : Wide n rows' :=
  fun cells hcells => h cells (hsub _ hcells)

theorem wide_cons {cells : List Cell} (hcells : cells.length = n) (h : Wide n rows) :
    Wide n (.ok cells :: rows) := by
  intro cells' hmem
  rcases List.mem_cons.1 hmem with heq | hmem
  · exact Except.ok.inj heq ▸ hcells
  · exact h cells' hmem

theorem wide_map_ok {rows : List (List Cell)} (h : ∀ cells ∈ rows, cells.length = n) :
    Wide n (rows.map .ok) := by
  intro cells hmem
  obtain ⟨cells', hmem, heq⟩ := List.mem_map.1 hmem
  exact Except.ok.inj heq ▸ h cells' hmem

theorem Wide.append (h : Wide n rows) (h' : Wide n rows') : Wide n (rows ++ rows') := by
  intro cells hmem
  rcases List.mem_append.1 hmem with hmem | hmem
  · exact h cells hmem
  · exact h' cells hmem

theorem wide_filterMap {f : List Cell → Except Fault (Option (List Cell))}
    (hf : ∀ cells, Yields (fun r => ∀ cells' ∈ r, cells'.length = n) (f cells)) (rows : Rows) :
    Wide n (rows.filterMap f) := by
  induction rows with
  | nil => exact wide_nil
  | cons row rows ih =>
    unfold filterMap
    cases row with
    | error e => exact wide_fault e
    | ok cells =>
      dsimp only
      split
      · exact wide_fault _
      · exact ih
      · next cells' hcells => exact wide_cons (hf cells _ hcells cells' rfl) ih

end Rows

/-! ## Queries -/

namespace QueryPlan

open Rows

variable {args cells : List Cell} {columns : List (String × Term)}

theorem length_project :
    Yields (·.length = columns.length) (columns.mapM fun c => c.2.eval args cells) := by
  intro cells' h
  have h := congrArg List.length (mapM_eq_ok_iff.1 h)
  simpa using h.symm

theorem wide_rowsFrom {source : Rows} {condition : Option Term} {order : List SortPlan}
    {limit offset : Option Term} :
    Wide columns.length (rowsFrom args source columns condition order limit offset) := by
  unfold rowsFrom
  extract_lets selected project cut keyed
  have hcut : ∀ rows : Rows, Wide columns.length rows → Wide columns.length (cut rows) := by
    intro rows h
    dsimp only [cut]
    split
    · exact wide_fault _
    · exact wide_fault _
    · split
      · exact h.mono fun _ hmem => List.mem_of_mem_drop hmem
      · exact h.mono fun _ hmem => List.mem_of_mem_drop (List.mem_of_mem_take hmem)
  split
  · refine hcut _ (wide_filterMap (fun cells => ?_) _)
    intro r hr cells' hcells'
    cases hproject : project cells with
    | error f => exact absurd (hproject ▸ hr) (by simp [Except.map])
    | ok values =>
      rw [hproject] at hr
      obtain rfl := Except.ok.inj hr
      exact Option.some.inj hcells' ▸ length_project values hproject
  · split
    · exact wide_nil
    · cases hkeyed : keyed with
      | error f => exact wide_fault _
      | ok keyed =>
        obtain ⟨rows, -, hkeyed⟩ := bind_eq_ok_iff.1 hkeyed
        have hwidth : ∀ r ∈ keyed, r.2.length = columns.length := by
          refine yields_mapM (fun cells => yields_bind fun keys => ?_) rows keyed hkeyed
          intro r hr
          obtain ⟨values, hvalues, hr⟩ := bind_eq_ok_iff.1 hr
          exact Except.ok.inj hr ▸ length_project values hvalues
        refine hcut _ fun cells hmem => ?_
        obtain ⟨r, hr, heq⟩ := List.mem_map.1 hmem
        exact Except.ok.inj heq ▸ hwidth r (List.mem_mergeSort.1 hr)

/-- The rows of a query are as wide as its columns are many. -/
theorem wide_rows (c : Content) (args : List Cell) (q : QueryPlan) :
    Wide q.names.length (q.rows c args) := by
  obtain ⟨source, columns, condition, order, limit, offset⟩ := q
  rw [names, List.length_map]
  cases source with
  | table name =>
    unfold rows
    split
    · exact wide_nil
    · exact wide_rowsFrom
  | single =>
    unfold rows
    exact wide_rowsFrom
  | setting cell =>
    unfold rows
    exact wide_rowsFrom
  | query q =>
    unfold rows
    exact wide_rowsFrom

end QueryPlan

/-! ## Changes -/

theorem length_returned {args : List Cell} {columns : List (String × Term)}
    {rows : List (List Cell)} :
    Yields (fun rows' => ∀ cells ∈ rows', cells.length = columns.length)
      (returned args columns rows) := by
  unfold returned
  split
  · exact yields_ok fun _ h => absurd h (by simp)
  · exact yields_mapM (fun _ => QueryPlan.length_project) rows

namespace Plan

variable {args : List Cell}

theorem length_returning (changed : Changed) (columns : List (String × Term)) :
    Gives (fun r => ∀ cells ∈ r.2, cells.length = columns.length)
      (do return (changed, ← returned args columns changed.rows) : Changing _) :=
  (gives_liftM length_returned).bind fun _ h => gives_pure h

/-- A change gives rows as wide as the columns that it returns are many. -/
theorem length_change {p : Plan} (hp : p.effect = .rows) (c : Content) :
    Gives (fun r => ∀ cells ∈ r.2, cells.length = p.names.length) (p.change c args) := by
  cases p with
  | insert table columns rows returning =>
    rw [names, List.length_map]
    refine gives_bind fun t => ?_
    cases rows with
    | values rows =>
      exact gives_bind fun _ => gives_bind fun changed => length_returning changed returning
    | query q =>
      exact gives_bind fun _ => gives_bind fun changed => length_returning changed returning
    | defaults => exact gives_bind fun changed => length_returning changed returning
  | update table changes condition returning =>
    rw [names, List.length_map]
    exact gives_bind fun t => gives_bind fun rows => gives_bind fun changed =>
      length_returning changed returning
  | delete table condition returning =>
    rw [names, List.length_map]
    exact gives_bind fun t => gives_bind fun rows => gives_bind fun changed =>
      length_returning changed returning
  | _ => cases hp

end Plan

/-! ## Runs -/

namespace Run

open Rows

variable {n : Nat}

theorem wide_change {p : Plan} (hp : p.effect = .rows) (i : Nat) (args : List Cell) :
    Gives (Wide p.names.length) (change i p args) := by
  rw [change_eq]
  refine gives_bind fun _ => gives_bind fun _ => gives_bind fun l => gives_bind fun _ => ?_
  refine (gives_liftM (Plan.length_change hp l.content none)).bind fun (changed, rows) hrows => ?_
  have hfinish : Gives (Wide p.names.length) (finish changed) :=
    gives_bind fun _ => gives_bind fun _ => gives_pure wide_nil
  exact (hfinish.tryCatch fun f => gives_pure (wide_fault f)).bind fun _ hmore =>
    gives_pure ((wide_map_ok hrows).append hmore)

/-- The rows that a plan gives have a cell for each of its names. -/
theorem wide_plan (i : Nat) (p : Plan) (args : List Cell) :
    Gives (Wide p.names.length) (plan i p args) := by
  cases p with
  | select q =>
    rw [plan_select]
    exact gives_bind fun _ => gives_bind fun l => gives_pure (q.wide_rows l.content args)
  | setting s => exact gives_pure (wide_cons rfl wide_nil)
  | define content => exact gives_bind fun _ => gives_bind fun _ => gives_pure wide_nil
  | nothing => exact gives_throw _
  | keep => exact gives_bind fun _ => gives_pure wide_nil
  | begin => exact gives_bind fun _ => gives_pure wide_nil
  | commit => exact gives_bind fun _ => gives_pure wide_nil
  | rollback => exact gives_bind fun _ => gives_pure wide_nil
  | insert table columns rows returning =>
    exact wide_change (p := .insert table columns rows returning) rfl i args
  | update table changes condition returning =>
    exact wide_change (p := .update table changes condition returning) rfl i args
  | delete table condition returning =>
    exact wide_change (p := .delete table condition returning) rfl i args

end Run
end TableRecords.Embedded
