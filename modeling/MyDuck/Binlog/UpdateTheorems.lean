/-
MyDuck.Binlog.UpdateTheorems — one UPDATE event through the delta buffer.

An UPDATE event carries pairs of images, and on the source each pair was
applied to the table the pairs before it left. `appendRowFormatChanges`
buffers all before images as DELETE rows and then all after images as
INSERT rows, under one order stamp, so the flush applies the removals of
the event before its insertions. By `applyAll_batch_eq_iff` that has the
effect of the pairs in order exactly when no key that one pair filled is
emptied by a later one for good.
-/
import MyDuck.Binlog.ApplierTheorems

namespace MyDuck.Binlog

open MyDuck.Delta MyDuck.KeyedBag

/-! ## Pairs of images -/

/-- An UPDATE event with these pairs of rows. -/
def Carries (e : RowsEvent) (pairs : List (Row × Row)) : Prop :=
  e.event = .update ∧
    e.rows.map (fun r => (r.identify.decode, r.data.decode))
      = pairs.map (fun p => (some p.1, some p.2))

/-- The pairs applied one after another: each before image is replaced by
its after image. -/
def applyPairs (b : Multiset Row) (pairs : List (Row × Row)) : Multiset Row :=
  pairs.foldl (fun b p => p.2 ::ₘ b.erase p.1) b

/-- Each before image is a row of the table at that moment, and its after
image has a key that no other row has. -/
def ValidPairs (schema : Schema) : Multiset Row → List (Row × Row) → Prop
  | _, [] => True
  | b, p :: ps => p.1 ∈ b ∧ primaryKey schema p.2 ≠ [Value.null] ∧
      Absent (primaryKey schema) (primaryKey schema p.2) (b.erase p.1) ∧
      ValidPairs schema (p.2 ::ₘ b.erase p.1) ps

instance decidableValidPairs (schema : Schema) : ∀ b ps, Decidable (ValidPairs schema b ps)
  | _, [] => isTrue trivial
  | b, p :: ps =>
    have := decidableValidPairs schema (p.2 ::ₘ b.erase p.1) ps
    inferInstanceAs (Decidable (_ ∧ _ ∧ _ ∧ _))

section Pairs

variable {schema : Schema}

/-- On a valid table the pairs are replacements by key. -/
theorem applyPairs_eq {b : Multiset Row} (hb : UniqueKeys (primaryKey schema) b)
    {pairs : List (Row × Row)} (hv : ValidPairs schema b pairs) :
    applyPairs b pairs
      = applyAll (primaryKey schema) b (replaceEdits (primaryKey schema) pairs) := by
  induction pairs generalizing b with
  | nil => rfl
  | cons p ps ih =>
    obtain ⟨hmem, -, habs, hrest⟩ := hv
    have hdel := eraseKey_eq_erase (primaryKey schema) hb hmem
    have hstep : applyAll (primaryKey schema) b
        [.del (primaryKey schema p.1), .put p.2] = p.2 ::ₘ b.erase p.1 := by
      rw [applyAll_cons, applyAll_cons, applyAll_nil, apply, apply, hdel,
        eraseKey_of_absent _ habs]
    have hb' : UniqueKeys (primaryKey schema) (p.2 ::ₘ b.erase p.1) := by
      rw [← hstep]; exact hb.applyAll _ _
    have hsplit : replaceEdits (primaryKey schema) (p :: ps)
        = [.del (primaryKey schema p.1), .put p.2] ++ replaceEdits (primaryKey schema) ps := rfl
    rw [hsplit, applyAll_append, hstep]
    exact ih hb' hrest

theorem ValidPairs.keys_ne_null {b : Multiset Row} {pairs : List (Row × Row)}
    (hv : ValidPairs schema b pairs) (hnn : ∀ r ∈ b, primaryKey schema r ≠ [Value.null]) :
    ∀ p ∈ pairs, primaryKey schema p.1 ≠ [Value.null] ∧ primaryKey schema p.2 ≠ [Value.null] := by
  induction pairs generalizing b with
  | nil => simp
  | cons q qs ih =>
    obtain ⟨hmem, hkey, -, hrest⟩ := hv
    have hnn' : ∀ r ∈ q.2 ::ₘ b.erase q.1, primaryKey schema r ≠ [Value.null] := by
      intro r hr
      rcases Multiset.mem_cons.mp hr with rfl | hr
      · exact hkey
      · exact hnn r (Multiset.mem_of_mem_erase hr)
    intro p hp
    rcases List.mem_cons.mp hp with rfl | hp
    · exact ⟨hnn _ hmem, hkey⟩
    · exact ih hrest hnn' p hp

end Pairs

/-! ## The buffered event -/

section Event

variable {e : RowsEvent} {pairs : List (Row × Row)}

theorem Carries.decodes (h : Carries e pairs) : Decodes e.event e.rows := by
  intro r hr
  have hmem : (r.identify.decode, r.data.decode) ∈ pairs.map (fun p => (some p.1, some p.2)) := by
    rw [← h.2]
    exact List.mem_map.mpr ⟨r, hr, rfl⟩
  obtain ⟨p, -, hp⟩ := List.mem_map.mp hmem
  rw [Prod.mk.injEq] at hp
  exact ⟨fun _ => by rw [← hp.1]; rfl, fun _ => by rw [← hp.2]; rfl⟩

theorem decodedRows_of_map {rows : List RowImage} {image : RowImage → Image}
    {row : Row × Row → Row}
    (h : rows.map (fun r => (image r).decode) = pairs.map (fun p => some (row p))) :
    decodedRows (rows.map image) = pairs.map row := by
  have hall : decodedRows (rows.map image)
      = (rows.map (fun r => (image r).decode)).filterMap id := by
    simp [decodedRows, List.filterMap_map]
  rw [hall, h, List.filterMap_map]
  simp

theorem Carries.before (h : Carries e pairs) :
    decodedRows (e.rows.map RowImage.identify) = pairs.map Prod.fst := by
  refine decodedRows_of_map ?_
  simpa [Function.comp_def] using congrArg (List.map Prod.fst) h.2

theorem Carries.after (h : Carries e pairs) :
    decodedRows (e.rows.map RowImage.data) = pairs.map Prod.snd := by
  refine decodedRows_of_map ?_
  simpa [Function.comp_def] using congrArg (List.map Prod.snd) h.2

/-- The rows of the event are its removals followed by its puts. -/
theorem Carries.edits (h : Carries e pairs) (schema : Schema) (stamp : TxnStamp) (stmt : Nat) :
    (eventRows stamp stmt e.event e.rows).map (DeltaRow.edit schema)
      = batchEdits (primaryKey schema) pairs := by
  rw [eventRows, h.1, if_neg (by decide), if_neg (by decide), h.before, h.after]
  simp [batchEdits, DeltaRow.edit, deltaRow, Function.comp_def]

end Event

theorem orderKey_deltaRow_le (stamp : TxnStamp) (stmt : Nat) {a b : RowEventType}
    (h : a.code ≤ b.code) (r s : Row) :
    (deltaRow stamp stmt a r).orderKey ≤ (deltaRow stamp stmt b s).orderKey := by
  refine Prod.Lex.toLex_le_toLex.mpr (.inr ⟨rfl, ?_⟩)
  exact h

/-- Within one event the rows are in order: DELETE sorts before INSERT. -/
theorem eventRows_pairwise (stamp : TxnStamp) (stmt : Nat) (event : RowEventType)
    (rows : List RowImage) :
    (eventRows stamp stmt event rows).Pairwise (fun r s => r.orderKey ≤ s.orderKey) := by
  have hphase : ∀ (action : RowEventType) (rs : List Row),
      (rs.map (deltaRow stamp stmt action)).Pairwise (fun r s => r.orderKey ≤ s.orderKey) := by
    intro action rs
    rw [List.pairwise_map]
    exact List.pairwise_of_forall fun r s => orderKey_deltaRow_le stamp stmt le_rfl r s
  refine List.pairwise_append.mpr ⟨?_, ?_, ?_⟩
  · split
    · exact List.Pairwise.nil
    · exact hphase _ _
  · split
    · exact List.Pairwise.nil
    · exact hphase _ _
  · intro r hr s hs
    split at hr
    · simp at hr
    · split at hs
      · simp at hs
      · obtain ⟨x, -, rfl⟩ := List.mem_map.mp hr
        obtain ⟨y, -, rfl⟩ := List.mem_map.mp hs
        exact orderKey_deltaRow_le stamp stmt (by decide) x y

/-! ## The flush of the event -/

/-- What a flush of one UPDATE event leaves in the table. -/
theorem flush_update_event (withoutIndex : Bool) (t : TableIdentifier) (schema : Schema)
    (hpk : hasPrimaryKey schema = true) {e : RowsEvent} {pairs : List (Row × Row)}
    (he : Carries e pairs) {a : Applier} (hempty : EmptyBuffer a.deltas)
    (hs : (getDeltaAppender t schema a.deltas).schema = schema) (db : Tables)
    (hb : UniqueKeys (primaryKey schema) (db t))
    (hkeys : ∀ p ∈ pairs, primaryKey schema p.1 ≠ [Value.null] ∧
      primaryKey schema p.2 ≠ [Value.null]) :
    ∃ a', appendRowFormatChanges t schema e a = .ok a' ∧
      flushInto withoutIndex a'.deltas db = .ok (Function.update db t
        (applyAll (primaryKey schema) (db t) (batchEdits (primaryKey schema) pairs))) := by
  obtain ⟨hok, happ⟩ := appendEvent_eq_record (stampOf a.currentGtid) a.inTxnStmtID he.decodes
    (getDeltaAppender t schema a.deltas)
  simp only [appendRowFormatChanges, hok, if_true]
  refine ⟨_, rfl, ?_⟩
  have hbuf : (getDeltaAppender t schema a.deltas).record
      (rowEventOf (stampOf a.currentGtid) a.inTxnStmtID e.event e.rows)
      = buffer schema [rowEventOf (stampOf a.currentGtid) a.inTxnStmtID e.event e.rows] := by
    rw [getDeltaAppender_of_empty hempty hs]
    rfl
  have hrows : (buffer schema
      [rowEventOf (stampOf a.currentGtid) a.inTxnStmtID e.event e.rows]).rows
      = eventRows (stampOf a.currentGtid) a.inTxnStmtID e.event e.rows := by
    simp [rowEventOf]
  have hnn : KeysNotNull schema
      (eventRows (stampOf a.currentGtid) a.inTxnStmtID e.event e.rows) := by
    intro r hr
    rw [eventRows, he.1, if_neg (by decide), if_neg (by decide), he.before, he.after] at hr
    simp only [List.mem_append, List.mem_map] at hr
    rcases hr with ⟨f, ⟨p, hp, rfl⟩, rfl⟩ | ⟨f, ⟨p, hp, rfl⟩, rfl⟩
    · exact (hkeys p hp).1
    · exact (hkeys p hp).2
  have hord : OrderedPerKey schema
      (eventRows (stampOf a.currentGtid) a.inTxnStmtID e.event e.rows) :=
    orderedPerKey_of_pairwise (eventRows_pairwise _ _ e.event e.rows)
  rw [flushInto_withAppender hempty, happ, hbuf, flushTable_of_holds withoutIndex t db
    (holds_buffer _ _) (by rwa [buffer_schema]) (by rwa [buffer_schema])
    (by rwa [buffer_schema, hrows]) (by rwa [buffer_schema, hrows])]
  · rw [buffer_schema, hrows, applyRows, he.edits]
  · intro hins
    have hkind := hins _ (List.mem_singleton_self _)
    rw [show (rowEventOf _ _ _ _).event = e.event from rfl, he.1] at hkind
    exact absurd hkind (by decide)

def updateEvent (pairs : List (Row × Row)) : RowsEvent where
  tableId := 1
  event := .update
  parses := true
  identifyColumns := [true, true]
  dataColumns := [true, true]
  rows := pairs.map fun p => ⟨⟨p.1.map .value, 8⟩, ⟨p.2.map .value, 8⟩⟩

/-- Every key moves up by one, the greatest first. -/
def shiftUp : List (Row × Row) :=
  [(sampleRow 2 "b", sampleRow 3 "b"), (sampleRow 1 "a", sampleRow 2 "a")]

/-- One row moves twice: 1 becomes 3, and 3 becomes 4. -/
def movedTwice : List (Row × Row) :=
  [(sampleRow 1 "a", sampleRow 3 "a"), (sampleRow 3 "a", sampleRow 4 "a")]

end MyDuck.Binlog
