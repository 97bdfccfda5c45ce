/-
MyDuck.Delta.BufferTheorems — the map of appenders as a map, and the flush
of a whole map as seen from one table.

The appliers reach the buffer of a table through `getDeltaAppender` and
`withAppender`, the lookup and the update of a map
(`lookup_withAppender`).
-/
import MyDuck.Delta.ControllerTheorems

namespace MyDuck.Delta

open MyDuck.KeyedBag

/-! ## Whole and empty buffers -/

/-- No appender was left in the middle of a row. -/
def Untorn (tables : DeltaTables) : Prop := ∀ e ∈ tables, e.2.torn = false

/-- The buffer after a flush: whole and empty. -/
def Drained (tables : DeltaTables) : Prop := ∀ e ∈ tables, e.2.rows = [] ∧ e.2.torn = false

variable {tables : DeltaTables} {t : TableIdentifier} {schema : Schema}

theorem Drained.untorn (h : Drained tables) : Untorn tables :=
  fun e he => (h e he).2

theorem getDeltaAppender_torn (h : Untorn tables) :
    (getDeltaAppender t schema tables).torn = false := by
  rw [getDeltaAppender]
  cases hl : tables.lookup t with
  | none => rfl
  | some a =>
    obtain ⟨pre, post, rfl, -⟩ := List.lookup_eq_some_iff.mp hl
    exact h (t, a) (by simp)

theorem withAppender_untorn {f : DeltaAppender → DeltaAppender} (h : Untorn tables)
    (hf : ∀ a, (f a).torn = false) : Untorn (withAppender t schema f tables) := by
  induction tables with
  | nil =>
    intro e he
    obtain rfl := List.mem_singleton.mp he
    exact hf _
  | cons p tables ih =>
    obtain ⟨u, a⟩ := p
    have hrest : Untorn tables := fun e he => h e (List.mem_cons_of_mem _ he)
    simp only [withAppender]
    split
    · intro e he
      rcases List.mem_cons.mp he with rfl | he
      · exact hf a
      · exact hrest e he
    · intro e he
      rcases List.mem_cons.mp he with rfl | he
      · exact h _ List.mem_cons_self
      · exact ih hrest e he

/-! ## The appender of a table -/

theorem lookup_cons_ite (u v : TableIdentifier) (x : DeltaAppender) (tables : DeltaTables) :
    ((v, x) :: tables).lookup u = if u = v then some x else tables.lookup u := by
  by_cases hu : u = v
  · simp [hu]
  · have hb : (u == v) = false := beq_false_of_ne hu
    simp [List.lookup_cons, hb, hu]

theorem lookup_withAppender (t u : TableIdentifier) (schema : Schema)
    (f : DeltaAppender → DeltaAppender) (tables : DeltaTables) :
    (withAppender t schema f tables).lookup u
      = if u = t then some (f (getDeltaAppender t schema tables)) else tables.lookup u := by
  induction tables with
  | nil => exact lookup_cons_ite u t _ []
  | cons p tables ih =>
    obtain ⟨v, x⟩ := p
    rw [getDeltaAppender, withAppender, lookup_cons_ite, lookup_cons_ite]
    by_cases hv : v = t
    · subst hv
      rw [if_pos rfl, lookup_cons_ite, if_pos rfl, Option.getD_some]
      by_cases hu : u = v
      · rw [if_pos hu, if_pos hu]
      · rw [if_neg hu, if_neg hu, if_neg hu]
    · rw [if_neg hv, if_neg (Ne.symm hv), lookup_cons_ite, ih, getDeltaAppender]
      by_cases hu : u = v
      · have hut : u ≠ t := fun h => hv (hu ▸ h)
        rw [if_pos hu, if_neg hut, if_pos hu]
      · rw [if_neg hu, if_neg hu]

/-- A flush without error keeps the schemas of the appenders it keeps. -/
theorem lookup_afterFlush {reason : FlushReason} {a : DeltaAppender}
    (h : (afterFlush reason tables).lookup t = some a) :
    ∃ a₀, tables.lookup t = some a₀ ∧ a.schema = a₀.schema := by
  by_cases hr : reason = .ddlStmt
  · simp [hr] at h
  · rw [afterFlush_of_ne hr] at h
    induction tables with
    | nil => cases h
    | cons e tables ih =>
      obtain ⟨u, b⟩ := e
      rw [List.map_cons, lookup_cons_ite] at h
      rw [lookup_cons_ite]
      split_ifs at h ⊢ with hu h0
      · exact ⟨b, rfl, by rw [← Option.some.inj h]⟩
      · exact ⟨b, rfl, by rw [← Option.some.inj h]; rfl⟩
      · exact ih h

/-- No appender holds a row or a count. -/
def EmptyBuffer (tables : DeltaTables) : Prop := ∀ x ∈ tables, x.2 = { schema := x.2.schema }

/-- Only the appender of one table has rows to flush. -/
theorem flushInto_withAppender {x : DeltaAppender} (h : EmptyBuffer tables) (withoutIndex : Bool)
    (db : Tables) :
    flushInto withoutIndex (withAppender t schema (fun _ => x) tables) db
      = flushTable withoutIndex t x db := by
  have hskip : ∀ (us : DeltaTables) (db : Tables), EmptyBuffer us →
      flushInto withoutIndex us db = .ok db := by
    intro us db hus
    induction us with
    | nil => rfl
    | cons u us ih =>
      have hu : u.2.rowCount = 0 := by rw [hus u List.mem_cons_self]; rfl
      simp only [flushInto, flushTable, hu, if_true]
      exact ih fun y hy => hus y (List.mem_cons_of_mem _ hy)
  induction tables with
  | nil =>
    simp only [withAppender, flushInto]
    exact bind_pure _
  | cons u us ih =>
    obtain ⟨v, y⟩ := u
    have hus : EmptyBuffer us := fun z hz => h z (List.mem_cons_of_mem _ hz)
    by_cases hv : v = t
    · subst hv
      simp only [withAppender, if_true, flushInto]
      cases flushTable withoutIndex v x db with
      | error err => rfl
      | ok db' => exact hskip us db' hus
    · have hy : y.rowCount = 0 := by
        rw [show y = _ from h (v, y) List.mem_cons_self]; rfl
      simp only [withAppender, hv, if_false, flushInto, flushTable, hy, if_true]
      exact ih hus

theorem getDeltaAppender_of_empty (h : EmptyBuffer tables)
    (hs : (getDeltaAppender t schema tables).schema = schema) :
    getDeltaAppender t schema tables = { schema := schema } := by
  rw [getDeltaAppender] at hs ⊢
  cases hl : tables.lookup t with
  | none => rfl
  | some a =>
    obtain ⟨pre, post, rfl, -⟩ := List.lookup_eq_some_iff.mp hl
    have ha := h (t, a) (by simp)
    rw [hl, Option.getD_some] at hs
    rw [Option.getD_some, ← hs]
    exact ha

/-! ## All rows of the buffer -/

/-- The rows of every appender, with their tables. -/
def allRows (tables : DeltaTables) : Multiset (TableIdentifier × DeltaRow) :=
  (tables.flatMap (fun e => e.2.rows.map (fun r => (e.1, r))) : List (TableIdentifier × DeltaRow))

theorem allRows_cons (e : TableIdentifier × DeltaAppender) (tables : DeltaTables) :
    allRows (e :: tables) = ((e.2.rows.map (fun r => (e.1, r)) : List _) : Multiset _)
      + allRows tables := by
  rw [allRows, allRows, List.flatMap_cons, Multiset.coe_add]

theorem allRows_of_drained (h : Drained tables) : allRows tables = 0 := by
  induction tables with
  | nil => rfl
  | cons e tables ih =>
    rw [allRows_cons, (h e List.mem_cons_self).1,
      ih fun e he => h e (List.mem_cons_of_mem _ he)]
    rfl

theorem allRows_filter (tables : DeltaTables) :
    allRows (tables.filter (fun e => e.2.rowCount ≠ 0)) = allRows tables := by
  induction tables with
  | nil => rfl
  | cons e tables ih =>
    by_cases h0 : e.2.rowCount = 0
    · have hrows : e.2.rows = [] := List.length_eq_zero_iff.mp (Nat.add_eq_zero_iff.mp h0).1
      rw [List.filter_cons_of_neg (by simp [h0]), ih, allRows_cons, hrows]
      exact (zero_add _).symm
    · rw [List.filter_cons_of_pos (by simpa using h0), allRows_cons, allRows_cons, ih]

/-- Rows appended to the appender of a table are rows added to the
buffer. -/
theorem allRows_withAppender {x : DeltaAppender} {rows : List DeltaRow}
    (hx : x.rows = (getDeltaAppender t schema tables).rows ++ rows) :
    allRows (withAppender t schema (fun _ => x) tables)
      = allRows tables + ((rows.map (fun r => (t, r)) : List _) : Multiset _) := by
  induction tables with
  | nil =>
    have hrows : x.rows = rows := by simpa [getDeltaAppender] using hx
    simp [withAppender, allRows_cons, hrows, add_comm]
  | cons p tables ih =>
    obtain ⟨u, a⟩ := p
    rw [getDeltaAppender, lookup_cons_ite] at hx
    by_cases hu : u = t
    · subst hu
      have hrows : x.rows = a.rows ++ rows := by simpa using hx
      simp only [withAppender, if_true]
      rw [allRows_cons, allRows_cons, hrows, List.map_append, ← Multiset.coe_add, add_right_comm]
    · rw [if_neg (Ne.symm hu)] at hx
      simp only [withAppender, hu, if_false]
      rw [allRows_cons, allRows_cons, ih hx, add_assoc]

/-- A flush adds no row, also when it fails. -/
theorem allRows_flush_le (hasTx : Bool) (fails : TableIdentifier → Bool) (reason : FlushReason)
    (tables : DeltaTables) : allRows (flush hasTx fails reason tables).tables ≤ allRows tables := by
  have hdrained : ∀ (t : TableIdentifier) (a : DeltaAppender) (us vs : DeltaTables),
      a.rows = [] → allRows us ≤ allRows vs →
        allRows (keepAfter reason t a ++ us) ≤ allRows vs := by
    intro t a us vs ha h
    unfold keepAfter
    split
    · exact h
    · rw [List.singleton_append, allRows_cons, ha]
      exact (zero_add (allRows us)).symm ▸ h
  have hle : ∀ (e : TableIdentifier × DeltaAppender) (us : DeltaTables),
      allRows us ≤ allRows (e :: us) := by
    intro e us
    rw [allRows_cons]
    exact Multiset.le_add_left _ _
  induction tables with
  | nil => exact le_refl _
  | cons e rest ih =>
    obtain ⟨t, a⟩ := e
    have hrest := ih.trans (hle (t, a) rest)
    simp only [flush]
    split_ifs with h0 htx htorn hfails
    · exact hdrained t a _ _ (List.length_eq_zero_iff.mp (Nat.add_eq_zero_iff.mp h0).1) hrest
    · exact le_refl _
    · exact le_refl _
    · rw [allRows_cons, DeltaAppender.drained_rows]
      exact (zero_add (allRows rest)).symm ▸ hle (t, a) rest
    · exact hdrained t a.drained _ _ rfl hrest

end MyDuck.Delta
