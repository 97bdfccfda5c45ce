/-
MyDuck.Replica.PartialUpdateTheorems — partial-image statements on a table.

`Template.exec` is what a statement does to the rows of a table with an
index, and `updatePairs` what an UPDATE event asks for: the row with the
old key gets the values of the after image.

The updater of a keyed table does not get that far. An UPDATE whose images
have a key column in common replaces whole rows, with NULL where a column
is not in the image, and then panics on a transaction it does not have;
every other UPDATE panics at its first row.
-/
import MyDuck.Replica.UpdaterTheorems

namespace MyDuck.Updater

open MyDuck.Delta MyDuck.Binlog MyDuck.KeyedBag

/-! ## Statements on a table -/

inductive ExecError where
  | argumentCount
  | sql (e : SqlError)
  | updater (e : UpdaterError)
  deriving DecidableEq, Repr

/-- `c1 = ? AND c2 = ? ..`. NULL is equal to nothing. -/
def selectsArgs (cs : List Nat) (args : Row) (r : Row) : Bool :=
  (cs.zip args).all fun p => decide (p.2 ≠ .null) && decide (r[p.1]? = some p.2)

/-- `SET c1 = ?, c2 = ? ..`. -/
def assign (cs : List Nat) (args : Row) (r : Row) : Row :=
  (cs.zip args).foldl (fun r p => r.set p.1 p.2) r

/-- The statement on the rows of a table with an index. -/
def Template.exec (schema : Schema) (t : Template) (args : Row) (b : Multiset Row) :
    Except ExecError (Multiset Row) :=
  if args.length ≠ t.params then .error .argumentCount
  else
    match t with
    | .insert true _ => (insertOrReplace true schema [args] b).mapError .sql
    | .insert false _ => (insertInto true schema [args] b).mapError .sql
    | .delete cs => .ok (b.filter fun r => selectsArgs cs args r = false)
    | .update ss cs => .ok (b.map fun r =>
        if selectsArgs cs (args.drop ss.length) r then assign ss (args.take ss.length) r else r)

section Exec

variable {pk : PrimaryKeySchema} {identifyColumns dataColumns : List Bool}

theorem selectsArgs_map (cs : List Nat) (f : Nat → Value) (r : Row) :
    selectsArgs cs (cs.map f) r = true ↔ ∀ c ∈ cs, f c ≠ .null ∧ r[c]? = some (f c) := by
  have hzip : cs.zip (cs.map f) = cs.map fun c => (c, f c) := by
    simpa using List.zip_map' (f := id) (g := f) (l := cs)
  simp [selectsArgs, hzip]

end Exec

/-! ## Updates of keyed tables -/

/-- The values of the columns of the bitmap. -/
def setColumns : List Bool → Row → Row → Row
  | set :: columns, v :: vs, x :: xs => (if set then v else x) :: setColumns columns vs xs
  | _, _, xs => xs

/-- One row pair: the row with the old key gets the values of the after
image, in its columns. -/
def updatePair (schema : Schema) (dataColumns : List Bool) (b : Multiset Row) (pair : Row × Row) :
    Multiset Row :=
  b.map fun r => if primaryKey schema r = primaryKey schema pair.1
    then setColumns dataColumns pair.2 r else r

/-- The row pairs of an event, in order. -/
def updatePairs (schema : Schema) (dataColumns : List Bool) (b : Multiset Row)
    (pairs : List (Row × Row)) : Multiset Row :=
  pairs.foldl (updatePair schema dataColumns) b

/-- `newTableUpdater(...).Update` on the rows of the table. -/
def runUpdate (pk : PrimaryKeySchema) (identifyColumns dataColumns : List Bool)
    (pairs : List (Row × Row)) (b : Multiset Row) : Ran ExecError (Multiset Row) :=
  match newTableUpdater pk pk.schema.length identifyColumns dataColumns .update with
  | .error e => ⟨b, .failed (.updater e)⟩
  | .ok tu => tu.update (Template.exec pk.schema) pairs b

section Updates

variable {pk : PrimaryKeySchema} {identifyColumns dataColumns : List Bool} {b : Multiset Row}

theorem executeAll_insertOrReplace (schema : Schema) (rows : List Row) (b : Multiset Row)
    (h : ∀ row ∈ rows, row.length = schema.length) :
    executeAll (Template.exec schema) (.insert true schema.length) (rows.map some) b
      = ⟨applyAll (primaryKey schema) b (rows.map .put), .returned⟩ := by
  induction rows generalizing b with
  | nil => rfl
  | cons row rows ih =>
    have hrow : Template.exec schema (.insert true schema.length) row b
        = .ok (apply (primaryKey schema) b (.put row)) := by
      have hcount : ¬ row.length ≠ (Template.insert true schema.length).params :=
        not_not.mpr (h row (by simp))
      simp only [Template.exec, if_neg hcount]
      rfl
    rw [List.map_cons, executeAll, execute, hrow]
    exact ih _ fun row hmem => h row (by simp [hmem])

/-- A key update needs the whole key in both images. -/
theorem newTableUpdater_of_isPkUpdate
    (hpk : isPkUpdate pk.schema identifyColumns dataColumns = true) :
    (∃ tu, newTableUpdater pk pk.schema.length identifyColumns dataColumns .update = .ok tu) ↔
      UsesKey pk identifyColumns ∧ UsesKey pk dataColumns := by
  rw [← getPrimaryKeyIndices_length_pos, ← getPrimaryKeyIndices_length_pos, newTableUpdater]
  dsimp only
  rw [if_pos hpk]
  split
  next h => exact iff_of_false (by simp) (by omega)
  next h => exact iff_of_true ⟨_, rfl⟩ (by omega)

/-- **With a key column in both images** the whole rows are put into the
table, and then the updater panics. -/
theorem runUpdate_of_isPkUpdate (hi : identifyColumns.length = pk.schema.length)
    (hpk : isPkUpdate pk.schema identifyColumns dataColumns = true)
    (hkeys : UsesKey pk identifyColumns ∧ UsesKey pk dataColumns) {pairs : List (Row × Row)}
    (hpairs : ∀ p ∈ pairs, p.2.length = pk.schema.length) :
    runUpdate pk identifyColumns dataColumns pairs b
      = ⟨applyAll (primaryKey pk.schema) b (pairs.map fun p => .put p.2), .panicked⟩ := by
  obtain ⟨tu, htu⟩ := (newTableUpdater_of_isPkUpdate hpk).mpr hkeys
  rw [runUpdate, htu]
  cases newTableUpdater_update hi htu with
  | keyUpdate _ hstmt _ hcleanup htx =>
    obtain ⟨t, hcleanup⟩ := hcleanup
    have hrows : ∀ row ∈ pairs.map Prod.snd, row.length = pk.schema.length := by
      simpa using fun x a hx => hpairs (a, x) hx
    dsimp only
    rw [TableUpdater.update, hcleanup]
    dsimp only
    rw [TableUpdater.doInsertThenDelete, TableUpdater.insert, hstmt,
      executeAll_insertOrReplace _ _ _ hrows, List.map_map]
    simp only [Ran.andThen, htx]
    rfl
  | partialUpdate hpk' => rw [hpk] at hpk'; cases hpk'
  | fullUpdate hpk' => rw [hpk] at hpk'; cases hpk'

/-- **Without one** it panics at the first row. -/
theorem runUpdate_of_not_isPkUpdate (hkeyed : pk.pkOrdinals ≠ [])
    (hi : identifyColumns.length = pk.schema.length)
    (hd : dataColumns.length = pk.schema.length)
    (hpk : isPkUpdate pk.schema identifyColumns dataColumns = false) {pairs : List (Row × Row)}
    (hpairs : ∀ p ∈ pairs, p.1.length = pk.schema.length ∧ p.2.length = pk.schema.length) :
    runUpdate pk identifyColumns dataColumns pairs b
      = ⟨b, if pairs = [] then .returned else .panicked⟩ := by
  obtain ⟨tu, htu⟩ : ∃ tu,
      newTableUpdater pk pk.schema.length identifyColumns dataColumns .update = .ok tu := by
    rw [newTableUpdater]
    dsimp only
    rw [if_neg (by simp [hpk])]
    split <;> exact ⟨_, rfl⟩
  rw [runUpdate, htu]
  cases newTableUpdater_update hi htu with
  | keyUpdate hpk' => rw [hpk] at hpk'; cases hpk'
  | partialUpdate _ hpart _ hparam hcleanup hreplace =>
    have hlt := updateParams_lt hi hd hpk hpart
    refine update_of_lt hcleanup hreplace (fun p hp => ?_) b
    obtain ⟨hkeys, hvalues⟩ := hpairs p hp
    omega
  | fullUpdate _ hidentify hdata =>
    -- all columns before and behind have the key in common
    have hfull : bitCount identifyColumns = identifyColumns.length :=
      le_antisymm bitCount_le (hi ▸ hidentify)
    have huses : UsesKey pk identifyColumns := by
      refine ⟨hkeyed, (keyColumnsSet_iff _ _).mpr fun i hmem => ?_⟩
      exact (bitCount_eq_length_iff _).mp hfull i (hi ▸ keyOrdinals_lt hmem)
    have := isPkUpdate_of_full huses hd (le_antisymm bitCount_le (hd ▸ hdata))
    rw [hpk] at this
    cases this

end Updates

/-- **A partial-image UPDATE of a keyed table is right only** when it has
no rows and no key column is in both images; so never when both images have
the key. -/
theorem partial_update_iff (pk : PrimaryKeySchema) (hkeyed : pk.pkOrdinals ≠ [])
    {identifyColumns dataColumns : List Bool}
    (hi : identifyColumns.length = pk.schema.length)
    (hd : dataColumns.length = pk.schema.length) (images : List (List Value × List Value))
    (b : Multiset Row) :
    runUpdate pk identifyColumns dataColumns (imagePairs identifyColumns dataColumns images) b
        = ⟨updatePairs pk.schema dataColumns b (imagePairs identifyColumns dataColumns images),
          .returned⟩ ↔
      images = [] ∧ isPkUpdate pk.schema identifyColumns dataColumns = false := by
  have hpairs : ∀ p ∈ imagePairs identifyColumns dataColumns images,
      p.1.length = pk.schema.length ∧ p.2.length = pk.schema.length := by
    intro p hp
    obtain ⟨im, -, rfl⟩ := List.mem_map.mp hp
    exact ⟨(length_parseRow _).trans hi, (length_parseRow _).trans hd⟩
  cases hpk : isPkUpdate pk.schema identifyColumns dataColumns with
  | true =>
    refine iff_of_false (fun h => ?_) (by simp)
    by_cases hkeys : UsesKey pk identifyColumns ∧ UsesKey pk dataColumns
    · rw [runUpdate_of_isPkUpdate hi hpk hkeys fun p hp => (hpairs p hp).2] at h
      simpa using congrArg Ran.exit h
    · -- the updater is refused
      rw [runUpdate] at h
      split at h
      · simpa using congrArg Ran.exit h
      next tu htu => exact hkeys ((newTableUpdater_of_isPkUpdate hpk).mp ⟨tu, htu⟩)
  | false =>
    rw [runUpdate_of_not_isPkUpdate hkeyed hi hd hpk hpairs]
    by_cases hnil : images = []
    · subst hnil
      simp [imagePairs, updatePairs]
    · refine iff_of_false (fun h => ?_) fun h => hnil h.1
      rw [if_neg (by simpa [imagePairs] using hnil)] at h
      simpa using congrArg Ran.exit h

/-- An event without rows that sets column `a` by the key. -/
theorem partial_update_iff_no_rows :
    runUpdate keyFirst [true, false, false] [false, true, false] [] {[.int 1, .int 10, .int 20]}
      = ⟨{[.int 1, .int 10, .int 20]}, .returned⟩ :=
  (partial_update_iff keyFirst (by decide) rfl rfl [] {[.int 1, .int 10, .int 20]}).mpr
    ⟨rfl, rfl⟩

/-- `UPDATE t SET a = 11` with the images `(id, a)` loses column `b` and
ends in a panic. -/
theorem partial_update_loses_column :
    runUpdate keyFirst [true, true, false] [true, true, false]
        [([.int 1, .int 10, .null], [.int 1, .int 11, .null])] {[.int 1, .int 10, .int 20]}
        = ⟨{[.int 1, .int 11, .null]}, .panicked⟩ ∧
      updatePairs keyFirst.schema [true, true, false] {[.int 1, .int 10, .int 20]}
        [([.int 1, .int 10, .null], [.int 1, .int 11, .null])] = {[.int 1, .int 11, .int 20]} := by
  decide

end MyDuck.Updater
