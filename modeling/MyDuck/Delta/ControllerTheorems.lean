/-
MyDuck.Delta.ControllerTheorems — a flush has the effect of the buffered
rows applied one after another.

The five strategies of `updateTable` read a buffer in two ways. The
condensing strategies keep one row per key, the greatest in the order of
the stamps; when the stamps of a key follow the order in which its rows
were appended this is the last row of the key (`lastOrdered_groupOf`),
and the strategy is the per-key reading of the history. The two direct
strategies skip the condensing step and are right because of what the
counters say about the buffer: only DELETE events, or only INSERT events
on keys that were absent.

`updateTable_of_holds` is the result for one table, over any appender
whose counters are true to the events it holds, which the calls of the
appender see to (`holds_buffer`); the last section lifts it to a whole
flush.
-/
import MyDuck.Delta.Controller

namespace MyDuck.Delta

open MyDuck.KeyedBag

/-! ## Rows as edits -/

/-- The edit of the base table a buffered row stands for. -/
def DeltaRow.edit (schema : Schema) (r : DeltaRow) : Edit (List Value) Row :=
  match r.action with
  | .insert => .put r.fields
  | _ => .del (primaryKey schema r.fields)

@[simp] theorem target_edit (schema : Schema) (r : DeltaRow) :
    (r.edit schema).target (primaryKey schema) = primaryKey schema r.fields := by
  cases h : r.action <;> simp [DeltaRow.edit, h]

theorem edit_eq_put {schema : Schema} {r : DeltaRow} {f : Row}
    (h : r.edit schema = .put f) : r.action = .insert ∧ r.fields = f := by
  cases ha : r.action <;> simp_all [DeltaRow.edit]

theorem edit_of_insert {schema : Schema} {r : DeltaRow} (h : r.action = .insert) :
    r.edit schema = .put r.fields := by
  simp [DeltaRow.edit, h]

/-- The order stamps of each key follow the order of the rows. -/
def OrderedPerKey (schema : Schema) (rows : List DeltaRow) : Prop :=
  rows.Pairwise (fun r s => primaryKey schema r.fields = primaryKey schema s.fields →
    r.orderKey ≤ s.orderKey)

instance (schema : Schema) (rows : List DeltaRow) : Decidable (OrderedPerKey schema rows) :=
  inferInstanceAs (Decidable (rows.Pairwise _))

theorem orderedPerKey_of_pairwise {schema : Schema} {rows : List DeltaRow}
    (h : rows.Pairwise (fun r s => r.orderKey ≤ s.orderKey)) : OrderedPerKey schema rows := by
  refine List.Pairwise.imp ?_ h
  intro r s hle _
  exact hle

/-- Key columns are NOT NULL: no row of the buffer has a NULL key. -/
def KeysNotNull (schema : Schema) (rows : List DeltaRow) : Prop :=
  ∀ r ∈ rows, primaryKey schema r.fields ≠ [Value.null]

/-! ## The condensing query -/

variable {l : List DeltaRow} {events : List RowEvent} {a : DeltaAppender} {reason : FlushReason}
  {tables : DeltaTables} {bufs : List TableBuffer}

theorem lastOrdered_eq_none : lastOrdered l = none ↔ l = [] := by
  cases l with
  | nil => simp [lastOrdered]
  | cons r rs =>
    simp only [lastOrdered, reduceCtorEq, iff_false]
    split
    · simp
    · split <;> simp

theorem lastOrdered_mem {m : DeltaRow} (h : lastOrdered l = some m) : m ∈ l := by
  induction l generalizing m with
  | nil => simp [lastOrdered] at h
  | cons r rs ih =>
    simp only [lastOrdered] at h
    split at h
    · simp_all
    · next m' hm' =>
      split at h
      · obtain rfl := Option.some.inj h
        exact List.mem_cons_of_mem _ (ih hm')
      · obtain rfl := Option.some.inj h
        exact List.mem_cons_self

/-- On rows in order, the greatest row is the last one. -/
theorem lastOrdered_of_pairwise (h : l.Pairwise (fun r s => r.orderKey ≤ s.orderKey)) :
    lastOrdered l = l.getLast? := by
  induction l with
  | nil => rfl
  | cons r rs ih =>
    obtain ⟨hr, hrs⟩ := List.pairwise_cons.mp h
    cases hl : rs.getLast? with
    | none =>
      obtain rfl := List.getLast?_eq_none_iff.mp hl
      simp [lastOrdered]
    | some m =>
      have hm : m ∈ rs := List.mem_of_getLast? hl
      have hcons : (r :: rs).getLast? = some m := by
        rw [List.getLast?_cons, hl]; rfl
      simp only [lastOrdered, ih hrs, hl]
      rw [if_pos (hr m hm), hcons]

theorem groupOf_pairwise {schema : Schema} {rows : List DeltaRow}
    (h : OrderedPerKey schema rows) (k : List Value) :
    (groupOf schema k rows).Pairwise (fun r s => r.orderKey ≤ s.orderKey) := by
  have hf : (groupOf schema k rows).Pairwise (fun r s =>
      primaryKey schema r.fields = primaryKey schema s.fields → r.orderKey ≤ s.orderKey) :=
    h.filter _
  refine hf.imp_of_mem ?_
  intro r s hr hs hrs
  simp only [groupOf, List.mem_filter, decide_eq_true_eq] at hr hs
  exact hrs (by rw [hr.2, hs.2])

/-- The condensed row of a key is the last row of the key in the buffer. -/
theorem lastOrdered_groupOf {schema : Schema} {rows : List DeltaRow}
    (h : OrderedPerKey schema rows) (k : List Value) :
    lastOrdered (groupOf schema k rows) = (groupOf schema k rows).getLast? :=
  lastOrdered_of_pairwise (groupOf_pairwise h k)

theorem lastFor_map_edit (schema : Schema) (rows : List DeltaRow) (k : List Value) :
    lastFor (primaryKey schema) k (rows.map (DeltaRow.edit schema)) =
      (groupOf schema k rows).getLast?.map (DeltaRow.edit schema) := by
  rw [lastFor, List.filter_map, List.getLast?_map, groupOf]
  congr 3
  funext r
  simp

theorem mem_condenseDelta {schema : Schema} {rows : List DeltaRow} {r : DeltaRow} :
    r ∈ condenseDelta schema rows ↔
      lastOrdered (groupOf schema (primaryKey schema r.fields) rows) = some r := by
  constructor
  · intro h
    simp only [condenseDelta, List.mem_filterMap, List.mem_dedup] at h
    obtain ⟨k, -, hk⟩ := h
    have hm := lastOrdered_mem hk
    simp only [groupOf, List.mem_filter, decide_eq_true_eq] at hm
    rw [hm.2]; exact hk
  · intro h
    have hm := lastOrdered_mem h
    simp only [groupOf, List.mem_filter, decide_eq_true_eq] at hm
    simp only [condenseDelta, List.mem_filterMap, List.mem_dedup]
    exact ⟨primaryKey schema r.fields, List.mem_map.mpr ⟨r, hm.1, rfl⟩, h⟩

/-- The condensed view has one row per key. -/
theorem condenseDelta_unique (schema : Schema) (rows : List DeltaRow) :
    ((condenseDelta schema rows).map (fun r => primaryKey schema r.fields)).Nodup := by
  have hsub : ((condenseDelta schema rows).map (fun r => primaryKey schema r.fields)).Sublist
      (rows.map (fun r => primaryKey schema r.fields)).dedup := by
    rw [condenseDelta]
    generalize (rows.map (fun r => primaryKey schema r.fields)).dedup = ks
    induction ks with
    | nil => simp
    | cons k ks ih =>
      rw [List.filterMap_cons]
      split
      · exact ih.cons _
      · next m hm =>
        have hk : primaryKey schema m.fields = k := by
          have := lastOrdered_mem hm
          simp only [groupOf, List.mem_filter, decide_eq_true_eq] at this
          exact this.2
        rw [List.map_cons, hk]
        exact ih.cons_cons _
  exact hsub.nodup (List.nodup_dedup _)

theorem mem_selectAction {action : RowEventType} {rows : List DeltaRow} {f : Row} :
    f ∈ selectAction action rows ↔ ∃ r ∈ rows, r.action = action ∧ r.fields = f := by
  simp [selectAction, and_assoc]

/-- The keys the condensing query returns are the keys of the buffer. -/
theorem mem_keys_condenseDelta {schema : Schema} {rows : List DeltaRow} {k : List Value} :
    (∃ r ∈ condenseDelta schema rows, primaryKey schema r.fields = k) ↔
      groupOf schema k rows ≠ [] := by
  constructor
  · rintro ⟨r, hr, rfl⟩ hnil
    rw [mem_condenseDelta, hnil] at hr
    simp [lastOrdered] at hr
  · intro h
    cases hl : lastOrdered (groupOf schema k rows) with
    | none => exact absurd (lastOrdered_eq_none.mp hl) h
    | some m =>
      have hk : primaryKey schema m.fields = k := by
        have := lastOrdered_mem hl
        simp only [groupOf, List.mem_filter, decide_eq_true_eq] at this
        exact this.2
      exact ⟨m, mem_condenseDelta.mpr (by rw [hk]; exact hl), hk⟩

/-! ## The strategies -/

section Strategies

variable {schema : Schema} {rows : List DeltaRow} {b : Multiset Row}

/-- The buffered rows applied one after another. -/
def applyRows (schema : Schema) (b : Multiset Row) (rows : List DeltaRow) : Multiset Row :=
  applyAll (primaryKey schema) b (rows.map (DeltaRow.edit schema))

/-- Every row of the buffer is a DELETE or an INSERT. -/
def RowActions (rows : List DeltaRow) : Prop :=
  ∀ r ∈ rows, r.action = .delete ∨ r.action = .insert

/-- The per-key reading of the buffer, in the terms of the condensed view:
a row is there when it is the condensed INSERT of its key, or when the
buffer does not name its key and the row was there before. -/
theorem mem_applyRows (hord : OrderedPerKey schema rows) {f : Row} :
    f ∈ applyRows schema b rows ↔
      f ∈ selectAction .insert (condenseDelta schema rows) ∨
        (groupOf schema (primaryKey schema f) rows = [] ∧ f ∈ b) := by
  rw [applyRows, mem_applyAll, lastFor_map_edit, ← lastOrdered_groupOf hord]
  have hleft : (lastOrdered (groupOf schema (primaryKey schema f) rows)).map
        (DeltaRow.edit schema) = some (.put f) ↔
      f ∈ selectAction .insert (condenseDelta schema rows) := by
    rw [mem_selectAction]
    constructor
    · intro h
      obtain ⟨r, hr, he⟩ := Option.map_eq_some_iff.mp h
      obtain ⟨ha, rfl⟩ := edit_eq_put he
      exact ⟨r, mem_condenseDelta.mpr hr, ha, rfl⟩
    · rintro ⟨r, hr, ha, rfl⟩
      rw [mem_condenseDelta] at hr
      rw [hr, Option.map_some, edit_of_insert ha]
  rw [hleft, Option.map_eq_none_iff, lastOrdered_eq_none]

theorem deleteWhereIn_eq {rs : List Row}
    (h : ∀ f ∈ rs, primaryKey schema f ≠ [Value.null]) :
    deleteWhereIn schema rs b = eraseKeys (primaryKey schema) (rs.map (primaryKey schema)) b := by
  rw [deleteWhereIn, List.filter_eq_self.mpr]
  intro k hk
  obtain ⟨f, hf, rfl⟩ := List.mem_map.mp hk
  simpa using h f hf

theorem condenseDelta_subset (schema : Schema) (rows : List DeltaRow) :
    ∀ r ∈ condenseDelta schema rows, r ∈ rows := by
  intro r hr
  have hm := lastOrdered_mem (mem_condenseDelta.mp hr)
  exact (List.mem_filter.mp hm).1

theorem condensed_keys_ne_null (hnn : KeysNotNull schema rows) :
    ∀ f ∈ (condenseDelta schema rows).map DeltaRow.fields,
      primaryKey schema f ≠ [Value.null] := by
  intro f hf
  obtain ⟨r, hr, rfl⟩ := List.mem_map.mp hf
  exact hnn r (condenseDelta_subset schema rows r hr)

theorem selected_keys_ne_null (hnn : KeysNotNull schema rows) (action : RowEventType) :
    ∀ f ∈ selectAction action (condenseDelta schema rows),
      primaryKey schema f ≠ [Value.null] := by
  intro f hf
  obtain ⟨r, hr, -, rfl⟩ := mem_selectAction.mp hf
  exact hnn r (condenseDelta_subset schema rows r hr)

theorem selectAction_unique (action : RowEventType) :
    ((selectAction action (condenseDelta schema rows)).map (primaryKey schema)).Nodup := by
  have h := condenseDelta_unique schema rows
  rw [selectAction, List.map_map]
  exact (List.filter_sublist.map _).nodup h

theorem not_mem_condensed_keys {k : List Value} :
    k ∉ ((condenseDelta schema rows).map DeltaRow.fields).map (primaryKey schema) ↔
      groupOf schema k rows = [] := by
  rw [← not_iff_not, not_not, ← ne_eq, ← mem_keys_condenseDelta]
  simp [List.mem_map]

theorem applyRows_unique (hb : UniqueKeys (primaryKey schema) b) :
    UniqueKeys (primaryKey schema) (applyRows schema b rows) :=
  hb.applyAll _ _

/-- **Without an index**: delete the keys of the delta, insert what is
left of it. -/
theorem handleWithoutIndex_eq (hpk : hasPrimaryKey schema = true)
    (hb : UniqueKeys (primaryKey schema) b) (hord : OrderedPerKey schema rows)
    (hnn : KeysNotNull schema rows) :
    handleWithoutIndex schema false rows b = .ok (applyRows schema b rows) := by
  simp only [handleWithoutIndex, requireKey, hpk, if_true, insertInto, Bool.false_and,
    Bool.false_eq_true, if_false, Except.ok.injEq]
  rw [deleteWhereIn_eq (condensed_keys_ne_null hnn)]
  refine UniqueKeys.ext (primaryKey schema) ?_ (applyRows_unique hb) ?_
  · rw [UniqueKeys, Multiset.map_add, Multiset.nodup_add]
    refine ⟨selectAction_unique .insert, hb.eraseKeys _ _, ?_⟩
    rw [Multiset.disjoint_left]
    intro k hk hk'
    obtain ⟨f, hf, rfl⟩ := Multiset.mem_map.mp hk
    obtain ⟨g, hg, hgk⟩ := Multiset.mem_map.mp hk'
    have hgk' := ((mem_eraseKeys _).mp hg).2
    obtain ⟨r, hr, -, rfl⟩ := mem_selectAction.mp (Multiset.mem_coe.mp hf)
    rw [hgk] at hgk'
    exact hgk' (List.mem_map.mpr ⟨r.fields, List.mem_map.mpr ⟨r, hr, rfl⟩, rfl⟩)
  · intro f
    rw [Multiset.mem_add, Multiset.mem_coe, mem_eraseKeys, not_mem_condensed_keys,
      mem_applyRows hord, and_comm (a := f ∈ b)]

/-- The rows an upsert of the condensed INSERTs leaves. -/
theorem mem_upserted {f : Row} :
    f ∈ applyAll (primaryKey schema) b
        ((selectAction .insert (condenseDelta schema rows)).map .put) ↔
      f ∈ selectAction .insert (condenseDelta schema rows) ∨
        (primaryKey schema f ∉
          (selectAction .insert (condenseDelta schema rows)).map (primaryKey schema) ∧ f ∈ b) :=
  mem_applyAll_puts (primaryKey schema) (selectAction_unique .insert)

/-- With one row per key, a key is not at once the key of a condensed
INSERT and of a condensed DELETE. -/
theorem insert_key_not_deleted {f : Row}
    (hf : f ∈ selectAction .insert (condenseDelta schema rows)) :
    primaryKey schema f ∉
      (selectAction .delete (condenseDelta schema rows)).map (primaryKey schema) := by
  intro h
  obtain ⟨g, hg, hk⟩ := List.mem_map.mp h
  obtain ⟨r, hr, har, rfl⟩ := mem_selectAction.mp hf
  obtain ⟨s, hs, has, rfl⟩ := mem_selectAction.mp hg
  rw [mem_condenseDelta] at hr hs
  rw [hk, hr] at hs
  obtain rfl := Option.some.inj hs
  rw [har] at has
  exact absurd has (by decide)

/-- A key of the buffer is the key of a condensed INSERT or of a condensed
DELETE. -/
theorem not_selected_iff (hact : RowActions rows) {k : List Value} :
    (k ∉ (selectAction .insert (condenseDelta schema rows)).map (primaryKey schema) ∧
      k ∉ (selectAction .delete (condenseDelta schema rows)).map (primaryKey schema)) ↔
      groupOf schema k rows = [] := by
  rw [← not_mem_condensed_keys, ← not_or, not_iff_not]
  constructor
  · rintro (h | h) <;>
    · obtain ⟨f, hf, rfl⟩ := List.mem_map.mp h
      obtain ⟨r, hr, -, rfl⟩ := mem_selectAction.mp hf
      exact List.mem_map.mpr ⟨r.fields, List.mem_map.mpr ⟨r, hr, rfl⟩, rfl⟩
  · intro h
    obtain ⟨f, hf, rfl⟩ := List.mem_map.mp h
    obtain ⟨r, hr, rfl⟩ := List.mem_map.mp hf
    rcases hact r (condenseDelta_subset schema rows r hr) with ha | ha
    · exact .inr (List.mem_map.mpr ⟨r.fields, mem_selectAction.mpr ⟨r, hr, ha, rfl⟩, rfl⟩)
    · exact .inl (List.mem_map.mpr ⟨r.fields, mem_selectAction.mpr ⟨r, hr, ha, rfl⟩, rfl⟩)

/-- **General case**: upsert what ends in an INSERT, then delete what ends
in a DELETE. -/
theorem handleGeneralCase_eq (hpk : hasPrimaryKey schema = true)
    (hb : UniqueKeys (primaryKey schema) b) (hord : OrderedPerKey schema rows)
    (hnn : KeysNotNull schema rows) (hact : RowActions rows) :
    handleGeneralCase schema true rows b = .ok (applyRows schema b rows) := by
  simp only [handleGeneralCase, requireKey, hpk, if_true, insertOrReplace, bind, Except.bind,
    pure, Except.pure, Except.ok.injEq]
  rw [deleteWhereIn_eq (selected_keys_ne_null hnn .delete)]
  refine UniqueKeys.ext (primaryKey schema) ?_ (applyRows_unique hb) ?_
  · exact (hb.applyAll _ _).eraseKeys _ _
  · intro f
    rw [mem_eraseKeys, mem_upserted, mem_applyRows hord]
    constructor
    · rintro ⟨h | ⟨hi, hfb⟩, hd⟩
      · exact .inl h
      · exact .inr ⟨(not_selected_iff hact).mp ⟨hi, hd⟩, hfb⟩
    · rintro (h | ⟨hg, hfb⟩)
      · exact ⟨.inl h, insert_key_not_deleted h⟩
      · obtain ⟨hi, hd⟩ := (not_selected_iff hact).mpr hg
        exact ⟨.inr ⟨hi, hfb⟩, hd⟩

/-- **No DELETE in the buffer**: the upsert alone. -/
theorem handleZeroDelete_eq (hpk : hasPrimaryKey schema = true)
    (hb : UniqueKeys (primaryKey schema) b) (hord : OrderedPerKey schema rows)
    (hins : ∀ r ∈ rows, r.action = .insert) :
    handleZeroDelete schema true rows b = .ok (applyRows schema b rows) := by
  have hall : (condenseDelta schema rows).map DeltaRow.fields
      = selectAction .insert (condenseDelta schema rows) := by
    rw [selectAction, List.filter_eq_self.mpr]
    intro r hr
    simpa using hins r (condenseDelta_subset schema rows r hr)
  simp only [handleZeroDelete, requireKey, hpk, if_true, insertOrReplace, Except.ok.injEq]
  refine UniqueKeys.ext (primaryKey schema) (hb.applyAll _ _) (applyRows_unique hb) ?_
  intro f
  rw [hall, mem_upserted, mem_applyRows hord, ← hall, not_mem_condensed_keys]

/-- **Only DELETE events**: one deletion by key. -/
theorem handleDeleteOnly_eq (hpk : hasPrimaryKey schema = true) (hnn : KeysNotNull schema rows)
    (hdel : ∀ r ∈ rows, r.action = .delete) :
    handleDeleteOnly schema rows b = .ok (applyRows schema b rows) := by
  have hedit : rows.map (DeltaRow.edit schema)
      = ((rows.map DeltaRow.fields).map (primaryKey schema)).map .del := by
    rw [List.map_map, List.map_map]
    refine List.map_congr_left fun r hr => ?_
    simp [DeltaRow.edit, hdel r hr]
  have hne : ∀ f ∈ rows.map DeltaRow.fields, primaryKey schema f ≠ [Value.null] := by
    intro f hf
    obtain ⟨r, hr, rfl⟩ := List.mem_map.mp hf
    exact hnn r hr
  rw [handleDeleteOnly, requireKey, if_pos hpk, applyRows, hedit, applyAll_dels,
    deleteWhereIn_eq hne]

theorem map_edit_of_inserts (hins : ∀ r ∈ rows, r.action = .insert) :
    rows.map (DeltaRow.edit schema) = (rows.map DeltaRow.fields).map .put := by
  rw [List.map_map]
  exact List.map_congr_left fun r hr => edit_of_insert (hins r hr)

/-- **Only INSERT events**: a plain insertion, right when every inserted
key was absent. -/
theorem handleInsertOnly_eq (indexed : Bool) (hb : UniqueKeys (primaryKey schema) b)
    (hins : ∀ r ∈ rows, r.action = .insert)
    (hfresh : PutsFresh (primaryKey schema) b (rows.map (DeltaRow.edit schema))) :
    handleInsertOnly schema indexed rows b = .ok (applyRows schema b rows) := by
  have hsum : applyRows schema b rows
      = ((rows.map DeltaRow.fields : List Row) : Multiset Row) + b := by
    rw [map_edit_of_inserts hins] at hfresh
    rw [applyRows, map_edit_of_inserts hins]
    exact applyAll_puts_of_fresh _ _ _ hfresh
  have huniq : UniqueKeys (primaryKey schema)
      (((rows.map DeltaRow.fields : List Row) : Multiset Row) + b) := by
    rw [← hsum]; exact applyRows_unique hb
  rw [handleInsertOnly, insertInto, hsum]
  simp [huniq]

end Strategies

/-! ## Buffers made by the calls of the appender -/

/-- What one call of an applier adds to a buffer: rows, counted as one
event of a kind. INSERT events carry only INSERT rows, DELETE events only
DELETE rows, and an UPDATE event may carry both, or none at all. -/
structure RowEvent where
  event : RowEventType
  rows : List DeltaRow
  actions_ok : ∀ r ∈ rows, (r.action = .delete ∨ r.action = .insert) ∧
    (event = .update ∨ r.action = event)

/-- The calls of the appender for one event: append the rows, count the
actions, observe the event. -/
def DeltaAppender.record (a : DeltaAppender) (e : RowEvent) : DeltaAppender :=
  (((e.rows.foldl (fun a r => a.appendRow r) a).updateActionStats .delete
      (e.rows.countP (fun r => r.action = .delete))).updateActionStats .insert
      (e.rows.countP (fun r => r.action = .insert))).observeEvents e.event e.rows.length

/-- An appender filled with events since it was created or last drained. -/
def buffer (schema : Schema) (events : List RowEvent) : DeltaAppender :=
  events.foldl DeltaAppender.record { schema := schema }

/-- What the counters of an appender say about the events it holds. -/
structure Holds (events : List RowEvent) (a : DeltaAppender) : Prop where
  rows : a.rows = events.flatMap RowEvent.rows
  torn : a.torn = false
  insert_iff : 0 < a.counters.eventInsert ↔ ∃ e ∈ events, e.event = .insert
  delete_iff : 0 < a.counters.eventDelete ↔ ∃ e ∈ events, e.event = .delete
  update_iff : 0 < a.counters.eventUpdate ↔ ∃ e ∈ events, e.event = .update
  actionDelete : a.counters.actionDelete = a.rows.countP (fun r => r.action = .delete)

theorem foldl_appendRow (rows : List DeltaRow) (a : DeltaAppender) :
    rows.foldl (fun a r => a.appendRow r) a = { a with rows := a.rows ++ rows } := by
  induction rows generalizing a with
  | nil => simp
  | cons r rows ih => rw [List.foldl_cons, ih]; simp [DeltaAppender.appendRow]

/-- The step of the run below: recording an event keeps the counters true
to what is held. -/
theorem Holds.record (h : Holds events a) (e : RowEvent) : Holds (events ++ [e]) (a.record e) := by
  obtain ⟨hr, ht, hi, hd, hu, ha⟩ := h
  constructor
  · simp [DeltaAppender.record, foldl_appendRow, hr]
  · simp [DeltaAppender.record, foldl_appendRow, ht]
  all_goals
    cases he : e.event <;>
      simp_all [DeltaAppender.record, foldl_appendRow, DeltaAppender.updateActionStats,
        DeltaAppender.observeEvents, Counters.updateActionStats, Counters.observeEvents]

theorem holds_nil (schema : Schema) : Holds [] { schema := schema } := by
  constructor <;> simp

theorem Holds.recordAll (h : Holds events a) (es : List RowEvent) :
    Holds (events ++ es) (es.foldl DeltaAppender.record a) := by
  induction es generalizing events a with
  | nil => simpa using h
  | cons e es ih => simpa using ih (h.record e)

theorem holds_buffer (schema : Schema) (events : List RowEvent) :
    Holds events (buffer schema events) :=
  (holds_nil schema).recordAll events

@[simp] theorem record_schema (a : DeltaAppender) (e : RowEvent) :
    (a.record e).schema = a.schema := by
  simp [DeltaAppender.record, foldl_appendRow]

theorem foldl_record_schema (es : List RowEvent) (a : DeltaAppender) :
    (es.foldl DeltaAppender.record a).schema = a.schema := by
  induction es generalizing a with
  | nil => rfl
  | cons e es ih => rw [List.foldl_cons, ih, record_schema]

@[simp] theorem buffer_schema (schema : Schema) (events : List RowEvent) :
    (buffer schema events).schema = schema :=
  foldl_record_schema events _

@[simp] theorem buffer_rows (schema : Schema) (events : List RowEvent) :
    (buffer schema events).rows = events.flatMap RowEvent.rows :=
  (holds_buffer schema events).rows

@[simp] theorem buffer_torn (schema : Schema) (events : List RowEvent) :
    (buffer schema events).torn = false :=
  (holds_buffer schema events).torn

theorem rowActions_of_events (events : List RowEvent) :
    RowActions (events.flatMap RowEvent.rows) := by
  intro r hr
  obtain ⟨e, -, hre⟩ := List.mem_flatMap.mp hr
  exact (e.actions_ok r hre).1

/-- When every event of the buffer is of one kind other than UPDATE, so is
the action of every row. -/
theorem action_of_events {k : RowEventType} (hk : k ≠ .update) (h : ∀ e ∈ events, e.event = k) :
    ∀ r ∈ events.flatMap RowEvent.rows, r.action = k := by
  intro r hr
  obtain ⟨e, he, hre⟩ := List.mem_flatMap.mp hr
  rcases (e.actions_ok r hre).2 with hu | ha
  · rw [h e he] at hu
    exact absurd hu hk
  · rw [ha, h e he]

/-! ## Valid histories -/

/-- A row that the source can have produced on the table as it is: a
DELETE of a key that is there, an INSERT of a key that is not, or, for an
UPDATE that leaves the key alone, an INSERT over the row of the key. -/
def ValidRow (schema : Schema) (event : RowEventType) (b : Multiset Row) (r : DeltaRow) : Prop :=
  primaryKey schema r.fields ≠ [Value.null] ∧
    (r.action = .delete → ¬ Absent (primaryKey schema) (primaryKey schema r.fields) b) ∧
    (r.action = .insert → event ≠ .update →
      Absent (primaryKey schema) (primaryKey schema r.fields) b)

/-- Every row is valid on the table the rows before it leave. -/
def ValidRows (schema : Schema) (event : RowEventType) : Multiset Row → List DeltaRow → Prop
  | _, [] => True
  | b, r :: rs => ValidRow schema event b r ∧
      ValidRows schema event (apply (primaryKey schema) b (r.edit schema)) rs

def ValidHistory (schema : Schema) : Multiset Row → List RowEvent → Prop
  | _, [] => True
  | b, e :: es => ValidRows schema e.event b e.rows ∧
      ValidHistory schema (applyRows schema b e.rows) es

instance (schema : Schema) (event : RowEventType) (b : Multiset Row) (r : DeltaRow) :
    Decidable (ValidRow schema event b r) :=
  inferInstanceAs (Decidable (_ ∧ _ ∧ _))

instance decidableValidRows (schema : Schema) (event : RowEventType) :
    ∀ b rs, Decidable (ValidRows schema event b rs)
  | _, [] => isTrue trivial
  | b, r :: rs =>
    have := decidableValidRows schema event (apply (primaryKey schema) b (r.edit schema)) rs
    inferInstanceAs (Decidable (ValidRow schema event b r ∧ _))

instance decidableValidHistory (schema : Schema) : ∀ b es, Decidable (ValidHistory schema b es)
  | _, [] => isTrue trivial
  | b, e :: es =>
    have := decidableValidHistory schema (applyRows schema b e.rows) es
    inferInstanceAs (Decidable (ValidRows schema e.event b e.rows ∧ _))

section Valid

variable {schema : Schema}

variable {b : Multiset Row}

theorem ValidRows.keysNotNull {event : RowEventType} {rs : List DeltaRow}
    (h : ValidRows schema event b rs) : KeysNotNull schema rs := by
  induction rs generalizing b with
  | nil => simp [KeysNotNull]
  | cons r rs ih =>
    intro s hs
    rcases List.mem_cons.mp hs with rfl | hs
    · exact h.1.1
    · exact ih h.2 s hs

theorem ValidHistory.keysNotNull {es : List RowEvent} (h : ValidHistory schema b es) :
    KeysNotNull schema (es.flatMap RowEvent.rows) := by
  induction es generalizing b with
  | nil => simp [KeysNotNull]
  | cons e es ih =>
    intro s hs
    rw [List.flatMap_cons, List.mem_append] at hs
    rcases hs with hs | hs
    · exact h.1.keysNotNull s hs
    · exact ih h.2 s hs

theorem ValidRows.putsFresh {rs : List DeltaRow} (h : ValidRows schema .insert b rs) :
    PutsFresh (primaryKey schema) b (rs.map (DeltaRow.edit schema)) := by
  induction rs generalizing b with
  | nil => trivial
  | cons r rs ih =>
    refine ⟨fun f hf => ?_, ih h.2⟩
    obtain ⟨ha, rfl⟩ := edit_eq_put hf
    exact h.1.2.2 ha (by decide)

/-- In a history of INSERT events every inserted key is absent. -/
theorem ValidHistory.putsFresh {es : List RowEvent} (h : ValidHistory schema b es)
    (hins : ∀ e ∈ es, e.event = .insert) :
    PutsFresh (primaryKey schema) b
      ((es.flatMap RowEvent.rows).map (DeltaRow.edit schema)) := by
  induction es generalizing b with
  | nil => trivial
  | cons e es ih =>
    have he := h.1
    rw [hins e List.mem_cons_self] at he
    rw [List.flatMap_cons, List.map_append]
    exact he.putsFresh.append _
      (ih h.2 fun e' he' => hins e' (List.mem_cons_of_mem _ he'))

end Valid

/-! ## The flush of one table -/

/-- The counters choose the strategy, so they decide what a strategy may
assume of the rows: only a buffer of INSERT events has to find its keys
absent. -/
theorem updateTable_of_holds (withoutIndex : Bool) {b : Multiset Row} (hholds : Holds events a)
    (hpk : hasPrimaryKey a.schema = true) (hb : UniqueKeys (primaryKey a.schema) b)
    (hord : OrderedPerKey a.schema a.rows) (hnn : KeysNotNull a.schema a.rows)
    (hfresh : (∀ e ∈ events, e.event = .insert) →
      PutsFresh (primaryKey a.schema) b (a.rows.map (DeltaRow.edit a.schema))) :
    updateTable withoutIndex a b = .ok (applyRows a.schema b a.rows) := by
  have hact : RowActions a.rows := hholds.rows ▸ rowActions_of_events events
  have hidx : hasIndex withoutIndex a.schema = !withoutIndex := by simp [hasIndex, hpk]
  -- events of no other kind: the direct strategies
  have honly : ∀ k, (∀ k', k' ≠ k → ¬ ∃ e ∈ events, e.event = k') → ∀ e ∈ events, e.event = k := by
    intro k hk e he
    by_contra hek
    exact hk e.event hek ⟨e, he, rfl⟩
  simp only [updateTable, Bool.and_eq_true, decide_eq_true_eq, Bool.not_eq_true',
    decide_eq_false_iff_not, gt_iff_lt, hholds.insert_iff, hholds.delete_iff, hholds.update_iff,
    hidx]
  split_ifs with hins hdel hzero hwi
  · have hall : ∀ e ∈ events, e.event = .insert := by
      refine honly _ fun k' hk' => ?_
      cases k' with
      | insert => exact absurd rfl hk'
      | delete => exact hins.1.2
      | update => exact hins.2
    refine handleInsertOnly_eq _ hb ?_ ?_
    · rw [hholds.rows]; exact action_of_events (by decide) hall
    · exact hfresh hall
  · have hall : ∀ e ∈ events, e.event = .delete := by
      refine honly _ fun k' hk' => ?_
      cases k' with
      | insert => exact hdel.1.2
      | delete => exact absurd rfl hk'
      | update => exact hdel.2
    refine handleDeleteOnly_eq hpk hnn ?_
    rw [hholds.rows]; exact action_of_events (by decide) hall
  · obtain ⟨h0, rfl⟩ := hzero
    refine handleZeroDelete_eq hpk hb hord ?_
    intro r hr
    rw [beq_iff_eq, hholds.actionDelete, List.countP_eq_zero] at h0
    rcases hact r hr with hd | hi
    · exact absurd (by simpa using hd) (h0 r hr)
    · exact hi
  · subst hwi
    exact handleWithoutIndex_eq hpk hb hord hnn
  · obtain rfl : withoutIndex = false := by simpa using hwi
    exact handleGeneralCase_eq hpk hb hord hnn hact

theorem rowCount_of_not_torn (h : a.torn = false) : a.rowCount = a.rows.length := by
  simp [DeltaAppender.rowCount, h]

/-- The loop body of a flush, which skips an empty appender. -/
theorem flushTable_of_holds (withoutIndex : Bool) (t : TableIdentifier) (db : Tables)
    (hholds : Holds events a) (hpk : hasPrimaryKey a.schema = true)
    (hb : UniqueKeys (primaryKey a.schema) (db t)) (hord : OrderedPerKey a.schema a.rows)
    (hnn : KeysNotNull a.schema a.rows)
    (hfresh : (∀ e ∈ events, e.event = .insert) →
      PutsFresh (primaryKey a.schema) (db t) (a.rows.map (DeltaRow.edit a.schema))) :
    flushTable withoutIndex t a db
      = .ok (Function.update db t (applyRows a.schema (db t) a.rows)) := by
  rw [flushTable, rowCount_of_not_torn hholds.torn]
  by_cases h0 : a.rows = []
  · simp [h0, applyRows]
  · rw [if_neg (by simpa using h0), updateTables,
      updateTable_of_holds withoutIndex hholds hpk hb hord hnn hfresh]
    rfl

/-! ## The whole flush -/

/-- The buffer of one table: its schema and the events recorded for it. -/
structure TableBuffer where
  table : TableIdentifier
  schema : Schema
  events : List RowEvent

namespace TableBuffer

def rows (p : TableBuffer) : List DeltaRow := p.events.flatMap RowEvent.rows

def entry (p : TableBuffer) : TableIdentifier × DeltaAppender :=
  (p.table, buffer p.schema p.events)

/-- The buffer is a valid history of a table with a unique key, and the
stamps of each key follow the order of its rows. -/
structure Valid (b : Multiset Row) (p : TableBuffer) : Prop where
  keyed : hasPrimaryKey p.schema = true
  unique : UniqueKeys (primaryKey p.schema) b
  ordered : OrderedPerKey p.schema p.rows
  history : ValidHistory p.schema b p.events

theorem flushTable_entry (withoutIndex : Bool) {p : TableBuffer} {db : Tables}
    (h : p.Valid (db p.table)) :
    flushTable withoutIndex p.table (buffer p.schema p.events) db
      = .ok (Function.update db p.table (applyRows p.schema (db p.table) p.rows)) := by
  have hh := flushTable_of_holds withoutIndex p.table db (holds_buffer p.schema p.events)
    (by simpa using h.keyed) (by simpa using h.unique) (by simpa [rows] using h.ordered)
    (by simpa using h.history.keysNotNull) (fun hins => by simpa using h.history.putsFresh hins)
  simpa [rows] using hh

end TableBuffer

/-- The appenders a flush without error leaves: none on a DDL flush, all of
them, empty, otherwise. -/
def afterFlush (reason : FlushReason) (tables : DeltaTables) : DeltaTables :=
  tables.flatMap (fun e => keepAfter reason e.1 (if e.2.rowCount = 0 then e.2 else e.2.drained))

@[simp] theorem afterFlush_ddlStmt (tables : DeltaTables) : afterFlush .ddlStmt tables = [] := by
  simp [afterFlush, keepAfter]

theorem afterFlush_of_ne (h : reason ≠ .ddlStmt) (tables : DeltaTables) :
    afterFlush reason tables
      = tables.map (fun e => (e.1, if e.2.rowCount = 0 then e.2 else e.2.drained)) := by
  simp only [afterFlush, keepAfter, h, if_false]
  exact List.flatMap_pure_eq_map _ _

theorem afterFlush_empty : ∀ e ∈ afterFlush reason tables, e.2.rows = [] ∧ e.2.torn = false := by
  by_cases hr : reason = .ddlStmt
  · simp [hr]
  · intro e he
    rw [afterFlush_of_ne hr] at he
    obtain ⟨p, -, rfl⟩ := List.mem_map.mp he
    by_cases h0 : p.2.rowCount = 0
    · have hempty : p.2.rows = [] ∧ p.2.torn = false := by
        simpa [DeltaAppender.rowCount] using h0
      simpa only [h0, if_true] using hempty
    · simp [h0]

/-- A flush that returns no error wrote every table that has rows. -/
theorem flush_of_no_err {fails : TableIdentifier → Bool}
    (h : (flush true fails reason tables).err = none) :
    (flush true fails reason tables).applied = tables.filter (fun e => e.2.rowCount ≠ 0) ∧
      (flush true fails reason tables).tables = afterFlush reason tables := by
  induction tables with
  | nil => exact ⟨rfl, rfl⟩
  | cons e rest ih =>
    obtain ⟨t, a⟩ := e
    by_cases h0 : a.rowCount = 0
    · simp only [flush, h0, if_true] at h ⊢
      obtain ⟨happ, hleft⟩ := ih h
      exact ⟨by simp [happ, h0], by simp [hleft, afterFlush, h0]⟩
    · simp only [flush, h0, if_false, Bool.not_true, Bool.false_eq_true] at h ⊢
      split at h
      · cases h
      · next ht =>
        split at h
        · cases h
        · next hf =>
          rw [if_neg ht, if_neg hf]
          obtain ⟨happ, hleft⟩ := ih h
          exact ⟨by simp [happ, h0], by simp [hleft, afterFlush, h0]⟩

/-- With a transaction and no failing statement, a flush of whole buffers
returns no error. -/
theorem flush_err_of_untorn (reason : FlushReason) (htorn : ∀ e ∈ tables, e.2.torn = false) :
    (flush true (fun _ => false) reason tables).err = none := by
  induction tables with
  | nil => rfl
  | cons e rest ih =>
    have ht := htorn e List.mem_cons_self
    have hrest := ih fun e he => htorn e (List.mem_cons_of_mem _ he)
    by_cases h0 : e.2.rowCount = 0
    · simp [flush, h0, hrest]
    · simp [flush, h0, ht, hrest]

/-- Such a flush writes every table that has rows and leaves no row
behind. -/
theorem flush_ok (reason : FlushReason) (htorn : ∀ e ∈ tables, e.2.torn = false) :
    (flush true (fun _ => false) reason tables).err = none ∧
      (flush true (fun _ => false) reason tables).applied
        = tables.filter (fun e => e.2.rowCount ≠ 0) ∧
      ∀ e ∈ (flush true (fun _ => false) reason tables).tables,
        e.2.rows = [] ∧ e.2.torn = false := by
  have herr := flush_err_of_untorn reason htorn
  obtain ⟨happ, hleft⟩ := flush_of_no_err herr
  exact ⟨herr, happ, hleft ▸ afterFlush_empty⟩

/-- The tables after the buffered rows of every table were applied one
after another. -/
def applyBuffers (bufs : List TableBuffer) (db : Tables) : Tables :=
  bufs.foldl (fun db p => Function.update db p.table (applyRows p.schema (db p.table) p.rows)) db

theorem applyBuffers_of_not_mem {t : TableIdentifier} (h : t ∉ bufs.map TableBuffer.table)
    (db : Tables) : applyBuffers bufs db t = db t := by
  induction bufs generalizing db with
  | nil => rfl
  | cons p bufs ih =>
    rw [List.map_cons, List.mem_cons, not_or] at h
    have hstep : applyBuffers (p :: bufs) db t = applyBuffers bufs
        (Function.update db p.table (applyRows p.schema (db p.table) p.rows)) t := rfl
    rw [hstep, ih h.2, Function.update_of_ne h.1]

/-- Flushing skips the empty appenders, and an empty buffer changes
nothing. -/
theorem flushInto_filter (withoutIndex : Bool) (tables : DeltaTables) (db : Tables) :
    flushInto withoutIndex (tables.filter (fun e => e.2.rowCount ≠ 0)) db
      = flushInto withoutIndex tables db := by
  induction tables generalizing db with
  | nil => rfl
  | cons e rest ih =>
    obtain ⟨t, a⟩ := e
    by_cases h0 : a.rowCount = 0
    · have hrest : flushInto withoutIndex ((t, a) :: rest) db = flushInto withoutIndex rest db := by
        simp only [flushInto, flushTable, h0, if_true]; rfl
      rw [List.filter_cons_of_neg (by simp [h0]), hrest, ih]
    · rw [List.filter_cons_of_pos (by simpa using h0)]
      simp only [flushInto]
      exact bind_congr ih

theorem flushInto_entries (withoutIndex : Bool) {db : Tables}
    (hnd : (bufs.map TableBuffer.table).Nodup) (hvalid : ∀ p ∈ bufs, p.Valid (db p.table)) :
    flushInto withoutIndex (bufs.map TableBuffer.entry) db = .ok (applyBuffers bufs db) := by
  induction bufs generalizing db with
  | nil => rfl
  | cons p bufs ih =>
    rw [List.map_cons, List.nodup_cons] at hnd
    have hp := hvalid p List.mem_cons_self
    have hstep := TableBuffer.flushTable_entry withoutIndex hp
    have hrest : ∀ q ∈ bufs, q.Valid
        (Function.update db p.table (applyRows p.schema (db p.table) p.rows) q.table) := by
      intro q hq
      have hne : q.table ≠ p.table := fun h =>
        hnd.1 (h ▸ List.mem_map.mpr ⟨q, hq, rfl⟩)
      rw [Function.update_of_ne hne]
      exact hvalid q (List.mem_cons_of_mem _ hq)
    have hunfold : flushInto withoutIndex ((p :: bufs).map TableBuffer.entry) db
        = flushTable withoutIndex p.table (buffer p.schema p.events) db >>=
          flushInto withoutIndex (bufs.map TableBuffer.entry) := rfl
    rw [hunfold, hstep]
    exact ih hnd.2 hrest

theorem applyBuffers_of_mem (hnd : (bufs.map TableBuffer.table).Nodup) {p : TableBuffer}
    (hp : p ∈ bufs) (db : Tables) :
    applyBuffers bufs db p.table = applyRows p.schema (db p.table) p.rows := by
  induction bufs generalizing db with
  | nil => simp at hp
  | cons q bufs ih =>
    rw [List.map_cons, List.nodup_cons] at hnd
    have hstep : applyBuffers (q :: bufs) db = applyBuffers bufs
        (Function.update db q.table (applyRows q.schema (db q.table) q.rows)) := rfl
    rw [hstep]
    rcases List.mem_cons.mp hp with rfl | hp
    · rw [applyBuffers_of_not_mem hnd.1, Function.update_self]
    · have hne : p.table ≠ q.table := fun h =>
        hnd.1 (h ▸ List.mem_map.mpr ⟨p, hp, rfl⟩)
      rw [ih hnd.2 hp, Function.update_of_ne hne]

/-- One table `d.t` of an integer key and a text, with two rows. -/
def sampleSchema : Schema := [⟨"id", true, {}⟩, ⟨"v", false, {}⟩]

def sampleTable : TableIdentifier := ⟨"d", "t"⟩

def sampleRow (k : Int) (v : String) : Row := [.int k, .text v]

def sampleTables : Tables :=
  fun t => if t = sampleTable then {sampleRow 1 "a", sampleRow 2 "b"} else 0

def sampleDelta (action : RowEventType) (stmt : Nat) (f : Row) : DeltaRow :=
  ⟨action, none, none, none, 7, stmt, f⟩

/-- An INSERT of 3, an UPDATE of 2 and a DELETE of 1. -/
def sampleBuffer : TableBuffer where
  table := sampleTable
  schema := sampleSchema
  events := [
    ⟨.insert, [sampleDelta .insert 0 (sampleRow 3 "c")], by decide⟩,
    ⟨.update, [sampleDelta .delete 1 (sampleRow 2 "b"), sampleDelta .insert 1 (sampleRow 2 "z")],
      by decide⟩,
    ⟨.delete, [sampleDelta .delete 2 (sampleRow 1 "a")], by decide⟩]

theorem sampleBuffer_valid : ∀ p ∈ [sampleBuffer], p.Valid (sampleTables p.table) := by
  intro p hp
  obtain rfl := List.mem_singleton.mp hp
  exact ⟨by decide, by decide, by decide, by decide⟩

end MyDuck.Delta
