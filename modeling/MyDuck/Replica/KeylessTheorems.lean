/-
MyDuck.Replica.KeylessTheorems — row events on a table without a primary
key.

`writeChanges` takes a row event from its images to the statements of the
updater. On a table without a key and without a unique index a DELETE
names every column, and an UPDATE with full images is an INSERT OR REPLACE,
which DuckDB refuses to prepare: there is no constraint it could conflict
with.

On the source a before image takes one row away. The DELETE of the replica
takes all rows that are equal to it, and none when one of its values is
NULL. `keyless_event_iff` says for which events the two agree.
-/
import MyDuck.Replica.PartialUpdateTheorems

namespace MyDuck.Updater

open MyDuck.Delta MyDuck.Binlog MyDuck.KeyedBag

/-! ## A table without an index -/

/-- `PrepareContext` on a table without a unique index. -/
def Template.prepareKeyless : Template → Except ExecError Unit
  | .insert true _ => .error (.sql .noConflictTarget)
  | _ => .ok ()

/-- The statement on the rows of a table without a unique index. -/
def Template.execKeyless (schema : Schema) (t : Template) (args : Row) (b : Multiset Row) :
    Except ExecError (Multiset Row) :=
  match t with
  | .insert replace columnCount =>
    if args.length ≠ columnCount then .error .argumentCount
    else if replace then (insertOrReplace false schema [args] b).mapError .sql
    else (insertInto false schema [args] b).mapError .sql
  | t => t.exec schema args b

/-- A row of `writeChanges`. An image whose values are all NULL has no
bytes; its row stays nil. -/
def imageRow (columns : List Bool) (image : List Value) : Row :=
  if image.all (· = .null) then [] else parseRow columns image

/-- `writeChanges`: the images of an event before and after, and the
statement for each of them. -/
def writeChanges {σ : Type} (prepare : Template → Except ExecError Unit)
    (exec : Template → List Value → σ → Except ExecError σ) (pk : PrimaryKeySchema)
    (identifyColumns dataColumns : List Bool) (event : RowEventType)
    (images : List (List Value × List Value)) (s : σ) : Ran ExecError σ :=
  let identityRows := images.map fun im => imageRow identifyColumns im.1
  let dataRows := images.map fun im => imageRow dataColumns im.2
  match newTableUpdater pk pk.schema.length identifyColumns dataColumns event with
  | .error e => ⟨s, .failed (.updater e)⟩
  | .ok tu =>
    match prepare tu.stmt with
    | .error e => ⟨s, .failed e⟩
    | .ok _ =>
      match event with
      | .delete => tu.delete exec identityRows s
      | .insert => tu.insert exec dataRows s
      | .update => tu.update exec (identityRows.zip dataRows) s

/-- `writeChanges` on the rows of a table without a key. -/
def writeKeyless (pk : PrimaryKeySchema) (identifyColumns dataColumns : List Bool)
    (event : RowEventType) (images : List (List Value × List Value)) (b : Multiset Row) :
    Ran ExecError (Multiset Row) :=
  writeChanges Template.prepareKeyless (Template.execKeyless pk.schema) pk identifyColumns
    dataColumns event images b

/-! ## The event on the source -/

/-- One row of an event on the source: the before image is a row of the
table, and one such row goes; the after image of an UPDATE comes in its
place. -/
def sourceRow (event : RowEventType) (b : Multiset Row) (im : Row × Row) : Option (Multiset Row) :=
  if im.1 ∈ b then some (if event = .update then im.2 ::ₘ b.erase im.1 else b.erase im.1) else none

/-- The rows of an event, in order. -/
def sourceEvent (event : RowEventType) (images : List (Row × Row)) (b : Multiset Row) :
    Option (Multiset Row) :=
  images.foldlM (sourceRow event) b

section Deletes

variable {b b' : Multiset Row}

/-- A DELETE event takes its before images out of the table. -/
theorem sourceEvent_delete {images : List (Row × Row)}
    (h : sourceEvent .delete images b = some b') :
    b = b' + (images.map Prod.fst : List Row) := by
  induction images generalizing b with
  | nil =>
    obtain rfl : b = b' := by simpa [sourceEvent] using h
    simp
  | cons im images ih =>
    rw [sourceEvent, List.foldlM_cons] at h
    obtain ⟨b₁, h₁, hrest⟩ := Option.bind_eq_some_iff.mp h
    by_cases hmem : im.1 ∈ b
    · obtain rfl : b.erase im.1 = b₁ := by simpa [sourceRow, hmem] using h₁
      have hb : b.erase im.1 = b' + (images.map Prod.fst : List Row) := ih hrest
      rw [← Multiset.cons_erase hmem, hb, List.map_cons, ← Multiset.cons_coe, Multiset.add_cons]
    · simp [sourceRow, hmem] at h₁

/-- `c1 = ? AND c2 = ? ..` over all columns. -/
theorem selectsArgs_range {row r : Row} (h : r.length = row.length) :
    selectsArgs (List.range row.length) row r = true ↔ Value.null ∉ row ∧ r = row := by
  have hargs : row = (List.range row.length).map fun i => row.getD i .null := by
    refine List.ext_getElem (by simp) fun i hi _ => ?_
    simp [hi]
  have hsel := selectsArgs_map (List.range row.length) (fun i => row.getD i .null) r
  rw [← hargs] at hsel
  rw [hsel]
  constructor
  · intro hall
    refine ⟨fun hnull => ?_, List.ext_getElem h fun i hi hi' => ?_⟩
    · obtain ⟨i, hi, hget⟩ := List.getElem_of_mem hnull
      exact (hall i (by simpa using hi)).1 (by simp [hi, hget])
    · have := (hall i (by simpa using hi')).2
      simpa [hi, hi'] using this
  · rintro ⟨hnull, rfl⟩ i hi
    have hlt : i < r.length := by simpa using hi
    refine ⟨fun heq => hnull ?_, by simp [hlt]⟩
    rw [← heq]
    simp [hlt]

/-- The rows that are left behind the DELETE of all of `rows`. -/
theorem executeAll_execKeyless_delete (schema : Schema) {n : Nat} {rows : List Row}
    (hrows : ∀ row ∈ rows, row.length = n) (hb : ∀ r ∈ b, r.length = n) :
    executeAll (Template.execKeyless schema) (.delete (List.range n)) (rows.map some) b
      = ⟨b.filter fun r => Value.null ∈ r ∨ r ∉ rows, .returned⟩ := by
  induction rows generalizing b with
  | nil => simp [executeAll]
  | cons row rows ih =>
    have hrow : row.length = n := hrows row (by simp)
    have hexec : Template.execKeyless schema (.delete (List.range n)) row b
        = .ok (b.filter fun r => Value.null ∈ r ∨ r ≠ row) := by
      have hcount : ¬ row.length ≠ (Template.delete (List.range n)).params := by
        simp [Template.params, hrow]
      change Template.exec schema (.delete (List.range n)) row b = _
      rw [Template.exec, if_neg hcount]
      congr 1
      refine Multiset.filter_congr fun r hr => ?_
      have hsel : selectsArgs (List.range n) row r = true ↔ Value.null ∉ row ∧ r = row := by
        rw [← hrow]
        exact selectsArgs_range ((hb r hr).trans hrow.symm)
      rw [← Bool.not_eq_true, hsel]
      constructor
      · intro hne
        by_cases heq : r = row
        · subst heq
          exact .inl (by_contra fun hnull => hne ⟨hnull, rfl⟩)
        · exact .inr heq
      · rintro (hnull | hne) ⟨hno, rfl⟩
        · exact hno hnull
        · exact hne rfl
    rw [List.map_cons, executeAll, execute, hexec]
    simp only [Ran.andThen]
    rw [ih (fun row hmem => hrows row (by simp [hmem]))
      fun r hr => hb r (Multiset.mem_filter.mp hr).1, Multiset.filter_filter]
    congr 1
    refine Multiset.filter_congr fun r _ => ?_
    simp only [List.mem_cons, not_or]
    tauto

/-- A row of the wrong length ends the event. -/
theorem executeAll_execKeyless_ne (schema : Schema) {cs : List Nat} {rows : List Row} {row : Row}
    (hmem : row ∈ rows) (hlen : row.length ≠ cs.length) :
    (executeAll (Template.execKeyless schema) (.delete cs) (rows.map some) b).exit ≠ .returned := by
  induction rows generalizing b with
  | nil => simp at hmem
  | cons first rows ih =>
    rw [List.map_cons, executeAll, execute]
    by_cases hfirst : first.length = cs.length
    · have hne : row ≠ first := fun heq => hlen (heq ▸ hfirst)
      have hexec : Template.execKeyless schema (.delete cs) first b
          = .ok (b.filter fun r => selectsArgs cs first r = false) := by
        simp [Template.execKeyless, Template.exec, Template.params, hfirst]
      rw [hexec]
      exact ih ((List.mem_cons.mp hmem).resolve_left hne)
    · have hexec : Template.execKeyless schema (.delete cs) first b = .error .argumentCount := by
        simp [Template.execKeyless, Template.exec, Template.params, hfirst]
      rw [hexec]
      simp [Ran.andThen]

/-- What the two sides leave is the same exactly when every row that goes
has no NULL, and all of its copies go. -/
theorem filter_eq_iff {rows : List Row} (hle : b = b' + (rows : Multiset Row)) :
    (b.filter fun r => Value.null ∈ r ∨ r ∉ rows) = b' ↔
      ∀ row ∈ rows, Value.null ∉ row ∧ b.count row = (rows : Multiset Row).count row := by
  have hcount : ∀ r, b.count r = b'.count r + (rows : Multiset Row).count r := by
    intro r
    rw [hle, Multiset.count_add]
  have hpos : ∀ {r}, r ∈ rows ↔ 0 < (rows : Multiset Row).count r := by
    intro r
    rw [Multiset.count_pos, Multiset.mem_coe]
  rw [Multiset.ext]
  simp only [Multiset.count_filter]
  constructor
  · intro heq row hrow
    have hrow' := hpos.mp hrow
    have hat := heq row
    have hc := hcount row
    split at hat
    · omega
    next hno =>
      rw [not_or] at hno
      exact ⟨hno.1, by omega⟩
  · intro hall r
    have hc := hcount r
    split
    next hkeep =>
      have hzero : (rows : Multiset Row).count r = 0 := by
        by_contra hne
        have hmem : r ∈ rows := hpos.mpr (by omega)
        rcases hkeep with hnull | hout
        · exact (hall r hmem).1 hnull
        · exact hout hmem
      omega
    next hgone =>
      rw [not_or, not_not] at hgone
      have := (hall r hgone.2).2
      omega

end Deletes

/-! ## The updater of a table without a key -/

section Keyless

variable {pk : PrimaryKeySchema} {identifyColumns dataColumns : List Bool}

theorem keyOrdinals_of_keyless (h : pk.pkOrdinals = []) : keyOrdinals pk.schema = [] := by
  have hlen := pk.flagged.length_eq
  rw [h] at hlen
  exact List.length_eq_zero_iff.mp hlen.symm

theorem setBits_full (h : bitCount identifyColumns = identifyColumns.length) :
    setBits identifyColumns.length identifyColumns = List.range identifyColumns.length := by
  rw [setBits, List.filter_eq_self]
  intro i hi
  exact (bitCount_eq_length_iff _).mp h i (by simpa using hi)

/-- A DELETE passes whole rows to a statement that names every column. -/
theorem writeKeyless_delete (hkeyless : pk.pkOrdinals = [])
    (hi : identifyColumns.length = pk.schema.length)
    (hfull : bitCount identifyColumns = pk.schema.length)
    (images : List (List Value × List Value)) (b : Multiset Row) :
    writeKeyless pk identifyColumns dataColumns .delete images b
      = executeAll (Template.execKeyless pk.schema) (.delete (List.range pk.schema.length))
        ((images.map fun im => imageRow identifyColumns im.1).map some) b := by
  have huses : ¬ UsesKey pk identifyColumns := fun h => h.1 hkeyless
  obtain ⟨tu, htu⟩ : ∃ tu,
      newTableUpdater pk pk.schema.length identifyColumns dataColumns .delete = .ok tu := ⟨_, rfl⟩
  obtain ⟨hindices, hstmt, -⟩ := newTableUpdater_delete hi htu
  have hwhere : whereOf pk identifyColumns = List.range pk.schema.length := by
    rw [whereOf, if_neg huses, setBits_full (hfull.trans hi.symm), hi]
  have hargs : ∀ row, tu.deleteArgs row = some row := by
    intro row
    rw [TableUpdater.deleteArgs, if_neg]
    rw [hindices, getPrimaryKeyIndices_length_pos]
    exact huses
  rw [hwhere] at hstmt
  rw [writeKeyless, writeChanges, htu]
  simp only [hstmt, Template.prepareKeyless, TableUpdater.delete, funext hargs]

/-- An UPDATE with full images is not even prepared. -/
theorem writeKeyless_update (hkeyless : pk.pkOrdinals = [])
    (hfull : bitCount identifyColumns = pk.schema.length)
    (hdata : bitCount dataColumns = pk.schema.length) (images : List (List Value × List Value))
    (b : Multiset Row) :
    writeKeyless pk identifyColumns dataColumns .update images b
      = ⟨b, .failed (.sql .noConflictTarget)⟩ := by
  have hpk : isPkUpdate pk.schema identifyColumns dataColumns = false := by
    rw [← Bool.not_eq_true, isPkUpdate_iff, keyOrdinals_of_keyless hkeyless]
    simp
  simp [writeKeyless, writeChanges, newTableUpdater, hpk, hfull, hdata, buildInsertTemplate,
    Template.prepareKeyless]

end Keyless

/-- **Row events on a table without a key.** The replica follows the source
exactly for those DELETE events that have no NULL and take all copies of
each of their rows; an UPDATE fails. -/
theorem keyless_event_iff (pk : PrimaryKeySchema) (hkeyless : pk.pkOrdinals = [])
    {identifyColumns dataColumns : List Bool}
    (hi : identifyColumns.length = pk.schema.length)
    (hfull : bitCount identifyColumns = pk.schema.length) {event : RowEventType}
    (hevent : event ≠ .insert)
    (hdata : event = .update → bitCount dataColumns = pk.schema.length)
    {images : List (List Value × List Value)} {b b' : Multiset Row}
    (hb : ∀ r ∈ b, r.length = pk.schema.length)
    (hsource : sourceEvent event images b = some b') :
    writeKeyless pk identifyColumns dataColumns event images b = ⟨b', .returned⟩ ↔
      event = .delete ∧ ∀ row ∈ images.map Prod.fst,
        Value.null ∉ row ∧ b.count row = (images.map Prod.fst : Multiset Row).count row := by
  cases event with
  | insert => exact absurd rfl hevent
  | update =>
    rw [writeKeyless_update hkeyless hfull (hdata rfl)]
    simp
  | delete =>
    have hsum := sourceEvent_delete hsource
    have hlen : ∀ im ∈ images, im.1.length = pk.schema.length := by
      intro im him
      refine hb im.1 ?_
      rw [hsum, Multiset.mem_add]
      exact .inr (List.mem_map_of_mem him)
    rw [writeKeyless_delete hkeyless hi hfull]
    simp only [true_and]
    by_cases hnil : ∃ im ∈ images, imageRow identifyColumns im.1 ≠ im.1
    · -- a row of NULLs only is passed without arguments
      obtain ⟨im, him, hne⟩ := hnil
      have hnull : im.1.all (· = .null) = true := by
        by_contra hno
        refine hne ?_
        rw [imageRow, if_neg hno]
        exact parseRow_full ((hlen im him).trans hfull.symm) (hfull.trans hi.symm)
      have hrow : imageRow identifyColumns im.1 = [] := if_pos hnull
      have hpos : im.1 ≠ [] := fun heq => hne (by rw [hrow, heq])
      refine iff_of_false (fun h => ?_) fun h => ?_
      · have hshort : ([] : Row).length ≠ (List.range pk.schema.length).length := by
          rw [List.length_range, ← hlen im him]
          exact (List.length_pos_iff.mpr hpos).ne
        exact executeAll_execKeyless_ne pk.schema (List.mem_map.mpr ⟨im, him, hrow⟩) hshort
          (congrArg Ran.exit h)
      · obtain ⟨v, hv⟩ := List.exists_mem_of_ne_nil _ hpos
        have hv' : v = .null := by simpa using List.all_eq_true.mp hnull v hv
        exact (h im.1 (List.mem_map_of_mem him)).1 (hv' ▸ hv)
    · push Not at hnil
      rw [List.map_congr_left hnil,
        executeAll_execKeyless_delete pk.schema (by simpa using fun x y h => hlen (x, y) h) hb,
        ← filter_eq_iff hsum]
      simp

/-- A table of one column without a key. -/
def keyless : PrimaryKeySchema where
  schema := [{ name := "v", primaryKey := false }]
  pkOrdinals := []
  flagged := by decide

/-- Both copies of `7` are deleted. -/
theorem keyless_event_iff_copies :
    writeKeyless keyless [true] [] .delete [([.int 7], []), ([.int 7], [])]
      {[.int 7], [.int 7], [.int 8]} = ⟨{[.int 8]}, .returned⟩ :=
  (keyless_event_iff keyless rfl rfl rfl (by decide) (by decide) (by decide) (by decide)).mpr
    (by decide)

/-- A DELETE of one of two equal rows deletes both, and an UPDATE fails. -/
theorem keyless_event_diverges :
    writeKeyless keyless [true] [] .delete [([.int 7], [])] {[.int 7], [.int 7]}
        = ⟨0, .returned⟩ ∧
      sourceEvent .delete [([.int 7], [])] {[.int 7], [.int 7]} = some {[.int 7]} ∧
      writeKeyless keyless [true] [true] .update [([.int 7], [.int 8])] {[.int 7]}
        = ⟨{[.int 7]}, .failed (.sql .noConflictTarget)⟩ ∧
      sourceEvent .update [([.int 7], [.int 8])] {[.int 7]} = some {[.int 8]} := by
  decide

end MyDuck.Updater
