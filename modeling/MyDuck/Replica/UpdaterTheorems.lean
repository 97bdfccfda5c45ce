/-
MyDuck.Replica.UpdaterTheorems — which arguments reach the prepared
statement.

`getPrimaryKeyIndices` gives positions inside an image: the position of a
column is the number of columns of the image before it (`rank`). The rows
of `parseRow` have one entry per table column, so these positions are right
only where the image has every column up to the key, and `Update` asks for
more arguments than its buffer has.
-/
import MyDuck.Replica.Updater

namespace MyDuck.Updater

open MyDuck.Delta MyDuck.Binlog
open TableUpdater (copyAt deleteArgs doInsertThenDelete setKeys updateArgs updateLoop)

/-! ## Positions inside an image -/

/-- The position of a column inside an image. -/
def rank (columns : List Bool) (i : Nat) : Nat := (columns.take i).count true

section Rank

variable {columns : List Bool}

@[simp] theorem bit_cons_zero (b : Bool) : bit (b :: columns) 0 = b := rfl

@[simp] theorem bit_cons_succ (b : Bool) (i : Nat) :
    bit (b :: columns) (i + 1) = bit columns i := rfl

theorem lt_of_bit {i : Nat} (h : bit columns i = true) : i < columns.length := by
  by_contra hge
  simp [bit, List.getElem?_eq_none (not_lt.mp hge)] at h

@[simp] theorem rank_zero : rank columns 0 = 0 := by simp [rank]

theorem rank_cons_succ (b : Bool) (i : Nat) :
    rank (b :: columns) (i + 1) = (if b then 1 else 0) + rank columns i := by
  cases b <;> simp [rank, Nat.add_comm]

theorem rank_le (i : Nat) : rank columns i ≤ i :=
  (List.count_le_length).trans (List.length_take_le _ _)

theorem rank_mono {i j : Nat} (h : i ≤ j) : rank columns i ≤ rank columns j :=
  (List.take_sublist_take_left h).count_le true

/-- A column of the image counts for the columns behind it. -/
theorem rank_lt {i j : Nat} (hij : i < j) (hbit : bit columns i = true) :
    rank columns i < rank columns j := by
  refine lt_of_lt_of_le ?_ (rank_mono hij)
  have hlen : i < columns.length := lt_of_bit hbit
  have hget : columns[i] = true := by simpa [bit, hlen] using hbit
  rw [rank, rank, List.take_add_one, List.getElem?_eq_getElem hlen, hget]
  simp

theorem rank_inj {i j : Nat} (hi : bit columns i = true) (hj : bit columns j = true)
    (h : rank columns i = rank columns j) : i = j := by
  rcases lt_trichotomy i j with hlt | heq | hgt
  · exact absurd h (rank_lt hlt hi).ne
  · exact heq
  · exact absurd h.symm (rank_lt hgt hj).ne

/-- A column is at its own place when the image has all columns before
it. -/
theorem rank_eq_iff (i : Nat) : rank columns i = i ↔ ∀ j < i, bit columns j = true := by
  induction columns generalizing i with
  | nil =>
    cases i with
    | zero => simp
    | succ i => exact iff_of_false (by simp [rank]) fun h => by simpa [bit] using h 0 (by omega)
  | cons b columns ih =>
    cases i with
    | zero => simp
    | succ i =>
      have hle : rank columns i ≤ i := rank_le i
      rw [rank_cons_succ]
      cases b with
      | false =>
        exact iff_of_false (by simp; omega) fun h => by simpa [bit] using h 0 (by omega)
      | true =>
        rw [if_pos rfl, Nat.add_comm 1, Nat.add_right_cancel_iff, ih]
        refine ⟨fun h j hj => ?_, fun h j hj => by simpa using h (j + 1) (by omega)⟩
        cases j with
        | zero => rfl
        | succ j => simpa using h j (by omega)

end Rank

/-! ## Rows of an image -/

section Images

variable {columns : List Bool}

/-- Indices that are all inside the row. -/
theorem pick_eq {indices : List Nat} {row : Row} (h : ∀ i ∈ indices, i < row.length) :
    pick indices row = some (indices.map fun i => row.getD i .null) := by
  induction indices with
  | nil => rfl
  | cons i indices ih =>
    have hi : i < row.length := h i (by simp)
    rw [pick, List.mapM_cons, List.getElem?_eq_getElem hi]
    rw [pick] at ih
    rw [ih fun j hj => h j (by simp [hj])]
    simp [hi]

theorem pick_map_succ (indices : List Nat) (v : Value) (row : Row) :
    pick (indices.map (· + 1)) (v :: row) = pick indices row := by
  simp [pick, List.mapM_map, Function.comp_def]

theorem setBits_cons (n : Nat) (b : Bool) :
    setBits (n + 1) (b :: columns)
      = (if b then [0] else []) ++ (setBits n columns).map (· + 1) := by
  rw [setBits, List.range_succ_eq_map, List.filter_cons, List.filter_map]
  cases b <;> simp [setBits, Function.comp_def]

theorem length_setBits : (setBits columns.length columns).length = bitCount columns := by
  induction columns with
  | nil => rfl
  | cons b columns ih =>
    rw [List.length_cons, setBits_cons, List.length_append, List.length_map, ih]
    cases b <;> simp [bitCount, Nat.add_comm]

@[simp] theorem length_parseRow (values : List Value) :
    (parseRow columns values).length = columns.length := by
  fun_induction parseRow columns values <;> simp_all

/-- The columns of the image hold its values. -/
theorem pick_setBits_parseRow {values : List Value} (h : values.length = bitCount columns) :
    pick (setBits columns.length columns) (parseRow columns values) = some values := by
  fun_induction parseRow columns values with
  | case1 values =>
    obtain rfl : values = [] := by simpa [bitCount] using h
    rfl
  | case2 columns values ih =>
    rw [List.length_cons, setBits_cons, if_neg Bool.false_ne_true, List.nil_append, pick_map_succ]
    exact ih (by simpa [bitCount] using h)
  | case3 columns v values ih =>
    have hrest := ih (by simpa [bitCount] using h)
    rw [List.length_cons, setBits_cons, if_pos rfl, List.singleton_append, pick, List.mapM_cons]
    rw [← pick_map_succ _ v, pick] at hrest
    rw [hrest]
    rfl
  | case4 columns ih => simp [bitCount] at h

/-- An image of all columns is the row. -/
theorem parseRow_full {values : List Value} (h : values.length = bitCount columns)
    (hfull : bitCount columns = columns.length) : parseRow columns values = values := by
  fun_induction parseRow columns values with
  | case1 values =>
    obtain rfl : values = [] := by simpa [bitCount] using h
    rfl
  | case2 columns values ih =>
    have hle : columns.count true ≤ columns.length := List.count_le_length
    simp [bitCount] at hfull
    omega
  | case3 columns v values ih =>
    rw [ih (by simpa [bitCount] using h) (by simpa [bitCount] using hfull)]
  | case4 columns ih => simp [bitCount] at h

theorem parseRow_eq_iff {values : List Value} (h : values.length = bitCount columns) :
    parseRow columns values = values ↔ bitCount columns = columns.length := by
  refine ⟨fun heq => ?_, parseRow_full h⟩
  rw [← h, ← heq, length_parseRow]

theorem bitCount_le : bitCount columns ≤ columns.length := List.count_le_length

end Images

/-! ## Key columns -/

section Keys

theorem keyOrdinals_cons (c : Column) (cs : Schema) :
    keyOrdinals (c :: cs)
      = (if c.primaryKey then [0] else []) ++ (keyOrdinals cs).map (· + 1) := by
  rw [keyOrdinals, List.length_cons, List.range_succ_eq_map, List.filter_cons, List.filter_map]
  cases hc : c.primaryKey <;> simp [keyOrdinals, Function.comp_def, hc]

theorem keyOrdinals_lt {schema : Schema} {i : Nat} (h : i ∈ keyOrdinals schema) :
    i < schema.length := by
  simp only [keyOrdinals, List.mem_filter, List.mem_range] at h
  exact h.1

theorem primaryKeyIndicesFrom_eq (schema : Schema) (columns : List Bool) (count : Nat)
    (indices : List Nat) :
    primaryKeyIndicesFrom schema columns count indices
      = if keyColumnsSet schema columns
        then indices ++ (keyOrdinals schema).map (fun i => count + rank columns i) else [] := by
  induction schema generalizing columns count indices with
  | nil => simp [primaryKeyIndicesFrom, keyColumnsSet, keyOrdinals]
  | cons c cs ih =>
    cases columns with
    | nil =>
      have hrank : ∀ i, rank [] (i + 1) = rank [] i := fun i => by simp [rank]
      cases hc : c.primaryKey
      · simp [primaryKeyIndicesFrom, keyColumnsSet, hc, ih, keyOrdinals_cons, hrank,
          Function.comp_def]
      · simp [primaryKeyIndicesFrom, keyColumnsSet, hc]
    | cons b columns =>
      cases hc : c.primaryKey <;> cases b <;>
        simp [primaryKeyIndicesFrom, keyColumnsSet, hc, ih, keyOrdinals_cons, rank_cons_succ,
          Function.comp_def, Nat.add_assoc]

/-- `getPrimaryKeyIndices` ranks the key columns. -/
theorem getPrimaryKeyIndices_eq (schema : Schema) (columns : List Bool) :
    getPrimaryKeyIndices schema columns
      = if keyColumnsSet schema columns then (keyOrdinals schema).map (rank columns) else [] := by
  simp [getPrimaryKeyIndices, primaryKeyIndicesFrom_eq]

theorem keyColumnsSet_iff (schema : Schema) (columns : List Bool) :
    keyColumnsSet schema columns = true ↔ ∀ i ∈ keyOrdinals schema, bit columns i = true := by
  induction schema generalizing columns with
  | nil => simp [keyColumnsSet, keyOrdinals]
  | cons c cs ih =>
    cases columns with
    | nil =>
      cases hc : c.primaryKey with
      | false => simp [keyColumnsSet, hc, keyOrdinals_cons, ih, bit]
      | true =>
        exact iff_of_false (by simp [keyColumnsSet, hc]) fun h => by
          simpa [bit] using h 0 (by simp [keyOrdinals_cons, hc])
    | cons b columns =>
      cases hc : c.primaryKey <;> simp [keyColumnsSet, hc, keyOrdinals_cons, ih]

theorem isPkUpdate_iff (schema : Schema) (identifyColumns dataColumns : List Bool) :
    isPkUpdate schema identifyColumns dataColumns = true ↔
      ∃ i ∈ keyOrdinals schema, bit identifyColumns i = true ∧ bit dataColumns i = true := by
  induction schema generalizing identifyColumns dataColumns with
  | nil => simp [isPkUpdate, keyOrdinals]
  | cons c cs ih =>
    cases identifyColumns with
    | nil => simp [isPkUpdate, bit]
    | cons b identifyColumns =>
      cases dataColumns with
      | nil => simp [isPkUpdate, bit]
      | cons d dataColumns =>
        cases hc : c.primaryKey <;> simp [isPkUpdate, hc, keyOrdinals_cons, ih]

theorem bitCount_eq_length_iff (columns : List Bool) :
    bitCount columns = columns.length ↔ ∀ i < columns.length, bit columns i = true := by
  rw [← rank_eq_iff, rank, List.take_length, bitCount]

variable {pk : PrimaryKeySchema} {identifyColumns dataColumns : List Bool}

theorem mem_pkOrdinals {i : Nat} : i ∈ pk.pkOrdinals ↔ i ∈ keyOrdinals pk.schema :=
  pk.flagged.mem_iff

/-- The before image has the whole key of a keyed table. -/
def UsesKey (pk : PrimaryKeySchema) (identifyColumns : List Bool) : Prop :=
  pk.pkOrdinals ≠ [] ∧ keyColumnsSet pk.schema identifyColumns = true

instance : Decidable (UsesKey pk identifyColumns) := inferInstanceAs (Decidable (_ ∧ _))

theorem getPrimaryKeyIndices_length_pos :
    (getPrimaryKeyIndices pk.schema identifyColumns).length > 0 ↔ UsesKey pk identifyColumns := by
  have hnil : keyOrdinals pk.schema = [] ↔ pk.pkOrdinals = [] := by
    rw [← List.length_eq_zero_iff, ← pk.flagged.length_eq, List.length_eq_zero_iff]
  rw [getPrimaryKeyIndices_eq, UsesKey, Ne, ← hnil, gt_iff_lt, List.length_pos_iff]
  split
  next h => simp [h]
  next h => simp [h]

theorem whereKey_eq :
    whereKey pk identifyColumns = if UsesKey pk identifyColumns then pk.pkOrdinals else [] := by
  rw [whereKey]
  have hpos : (getPrimaryKeyIndices pk.schema identifyColumns).length > 0 ↔
      UsesKey pk identifyColumns := getPrimaryKeyIndices_length_pos
  by_cases huses : UsesKey pk identifyColumns
  · rw [if_neg (by have := hpos.mpr huses; omega), if_pos huses]
  · have hzero : (getPrimaryKeyIndices pk.schema identifyColumns).length = 0 := by
      have := mt hpos.mp huses
      omega
    rw [if_neg huses]
    split
    · rfl
    next h => exact List.length_eq_zero_iff.mp (by omega)

def whereOf (pk : PrimaryKeySchema) (identifyColumns : List Bool) : List Nat :=
  if UsesKey pk identifyColumns then pk.pkOrdinals
  else setBits identifyColumns.length identifyColumns

theorem buildDeleteTemplate_eq (hi : identifyColumns.length = pk.schema.length) :
    buildDeleteTemplate pk.schema.length (whereKey pk identifyColumns) identifyColumns
      = (.delete (whereOf pk identifyColumns), (whereOf pk identifyColumns).length) := by
  rw [buildDeleteTemplate, whereKey_eq, whereOf, hi]
  by_cases huses : UsesKey pk identifyColumns
  · rw [if_pos huses, if_pos (List.length_pos_iff.mpr huses.1), if_pos huses]
  · rw [if_neg huses, if_neg (by simp), if_neg huses]

theorem buildUpdateTemplate_eq (hi : identifyColumns.length = pk.schema.length) :
    buildUpdateTemplate pk.schema.length (whereKey pk identifyColumns) identifyColumns dataColumns
      = (.update (setBits pk.schema.length dataColumns) (whereOf pk identifyColumns),
          bitCount dataColumns + (whereOf pk identifyColumns).length) := by
  rw [buildUpdateTemplate, whereKey_eq, whereOf]
  by_cases huses : UsesKey pk identifyColumns
  · rw [if_pos huses, if_pos (List.length_pos_iff.mpr huses.1), if_pos huses]
  · rw [if_neg huses, if_neg (by simp), if_neg huses, length_setBits, hi]

/-- With the whole key before and all columns behind, a key column is in
both images. -/
theorem isPkUpdate_of_full (huses : UsesKey pk identifyColumns)
    (hlen : dataColumns.length = pk.schema.length)
    (hfull : bitCount dataColumns = dataColumns.length) :
    isPkUpdate pk.schema identifyColumns dataColumns = true := by
  obtain ⟨hne, hset⟩ := huses
  obtain ⟨i, hi⟩ := List.exists_mem_of_ne_nil _ hne
  have hmem := mem_pkOrdinals.mp hi
  have hlt : i < dataColumns.length := by
    rw [hlen]
    exact keyOrdinals_lt hmem
  exact (isPkUpdate_iff _ _ _).mpr ⟨i, hmem, (keyColumnsSet_iff _ _).mp hset i hmem,
    (bitCount_eq_length_iff _).mp hfull i hlt⟩

theorem pkOrdinals_length_le : pk.pkOrdinals.length ≤ pk.schema.length := by
  rw [pk.flagged.length_eq, keyOrdinals]
  exact (List.length_filter_le _ _).trans (List.length_range).le

/-- The parameters of an UPDATE are less than two rows. -/
theorem updateParams_lt (hi : identifyColumns.length = pk.schema.length)
    (hd : dataColumns.length = pk.schema.length)
    (hpk : isPkUpdate pk.schema identifyColumns dataColumns = false)
    (hpart : bitCount identifyColumns < pk.schema.length ∨
      bitCount dataColumns < pk.schema.length) :
    bitCount dataColumns + (whereOf pk identifyColumns).length
      < pk.schema.length + pk.schema.length := by
  have hile : bitCount identifyColumns ≤ pk.schema.length := hi ▸ bitCount_le
  have hdle : bitCount dataColumns ≤ pk.schema.length := hd ▸ bitCount_le
  rw [whereOf]
  by_cases huses : UsesKey pk identifyColumns
  · have hdata : bitCount dataColumns ≠ pk.schema.length := fun hfull =>
      Bool.false_ne_true (hpk.symm.trans (isPkUpdate_of_full huses hd (hfull.trans hd.symm)))
    have hkey : pk.pkOrdinals.length ≤ pk.schema.length := pkOrdinals_length_le
    rw [if_pos huses]
    omega
  · rw [if_neg huses, length_setBits]
    omega

end Keys

/-! ## The updater of an UPDATE -/

/-- What `newTableUpdater` makes of an UPDATE event. -/
inductive UpdateShape (pk : PrimaryKeySchema) (identifyColumns dataColumns : List Bool)
    (tu : TableUpdater) : Prop
  /-- A key column is in both images: rows are replaced, and the old keys cleaned up. -/
  | keyUpdate (hpk : isPkUpdate pk.schema identifyColumns dataColumns = true)
      (hstmt : tu.stmt = .insert true pk.schema.length) (hparam : tu.paramCount = pk.schema.length)
      (hcleanup : ∃ t, tu.cleanup = some t) (htx : tu.tx = none)
  /-- A column is missing: an UPDATE statement. -/
  | partialUpdate (hpk : isPkUpdate pk.schema identifyColumns dataColumns = false)
      (hpart : bitCount identifyColumns < pk.schema.length ∨
        bitCount dataColumns < pk.schema.length)
      (hstmt : tu.stmt = .update (setBits pk.schema.length dataColumns)
        (whereOf pk identifyColumns))
      (hparam : tu.paramCount = bitCount dataColumns + (whereOf pk identifyColumns).length)
      (hcleanup : tu.cleanup = none) (hreplace : tu.replace = false)
  /-- All columns are there: rows are replaced. -/
  | fullUpdate (hpk : isPkUpdate pk.schema identifyColumns dataColumns = false)
      (hidentify : pk.schema.length ≤ bitCount identifyColumns)
      (hdata : pk.schema.length ≤ bitCount dataColumns)
      (hstmt : tu.stmt = .insert true pk.schema.length) (hparam : tu.paramCount = pk.schema.length)
      (hcleanup : tu.cleanup = none) (hreplace : tu.replace = true)

theorem newTableUpdater_update {pk : PrimaryKeySchema} {identifyColumns dataColumns : List Bool}
    {tu : TableUpdater} (hi : identifyColumns.length = pk.schema.length)
    (h : newTableUpdater pk pk.schema.length identifyColumns dataColumns .update = .ok tu) :
    UpdateShape pk identifyColumns dataColumns tu := by
  rw [newTableUpdater] at h
  dsimp only at h
  split at h
  next hpk =>
    split at h
    · cases h
    · cases h
      exact .keyUpdate hpk rfl rfl ⟨_, rfl⟩ rfl
  next hpk =>
    rw [Bool.not_eq_true] at hpk
    split at h
    next hpart =>
      rw [buildUpdateTemplate_eq hi] at h
      cases h
      exact .partialUpdate hpk hpart rfl rfl rfl rfl
    next hfull =>
      cases h
      rw [not_or, not_lt, not_lt] at hfull
      exact .fullUpdate hpk hfull.1 hfull.2 rfl rfl rfl rfl

/-! ## The methods -/

section Methods

variable {ε σ : Type} {exec : Template → List Value → σ → Except ε σ} {tu : TableUpdater}

theorem length_copyAt {buf src : Row} {i : Nat} (h : i ≤ buf.length) :
    (copyAt buf i src).length = buf.length := by
  simp only [copyAt, List.length_append, List.length_take, List.length_drop]
  omega

theorem length_setKeys {keys buf buf' : Row} {indices : List Nat} {i : Nat}
    (h : setKeys keys indices i buf = some buf') : buf'.length = buf.length := by
  induction indices generalizing i buf with
  | nil => cases h; rfl
  | cons idx indices ih =>
    rw [setKeys] at h
    obtain ⟨v, -, h⟩ := Option.bind_eq_some_iff.mp h
    split at h
    · rw [ih h, List.length_set]
    · cases h

/-- A buffer that is shorter than both rows together ends in a panic. -/
theorem updateArgs_eq_none {buf values keys : Row}
    (h : buf.length < values.length + keys.length) : tu.updateArgs buf values keys = none := by
  have hcopy : (copyAt buf 0 values).length = buf.length := length_copyAt (by omega)
  rw [updateArgs]
  dsimp only
  split
  · cases hset : setKeys keys tu.pkIndicesInIdentify values.length
        (copyAt buf 0 values) with
    | none => rfl
    | some buf' =>
      have := length_setKeys hset
      exact if_neg (by omega)
  · split
    next hle => exact if_neg (by rw [length_copyAt hle]; omega)
    · rfl

theorem updateLoop_cons_of_lt {keys values : Row} {rest : List (Row × Row)} {buf : Row} (s : σ)
    (h : buf.length < values.length + keys.length) :
    tu.updateLoop exec ((keys, values) :: rest) buf s = ⟨s, .panicked⟩ := by
  rw [updateLoop, updateArgs_eq_none h]

/-- An UPDATE statement with fewer parameters than two rows executes
nothing, and panics at the first row. -/
theorem update_of_lt (hcleanup : tu.cleanup = none) (hreplace : tu.replace = false)
    {rows : List (Row × Row)} (h : ∀ p ∈ rows, tu.paramCount < p.2.length + p.1.length) (s : σ) :
    tu.update exec rows s = ⟨s, if rows = [] then .returned else .panicked⟩ := by
  rw [TableUpdater.update, hcleanup, hreplace]
  dsimp only
  rw [if_neg Bool.false_ne_true]
  cases rows with
  | nil => rfl
  | cons p rows =>
    rw [updateLoop_cons_of_lt _ (by simpa using h p (by simp)), if_neg (by simp)]

end Methods

/-! ## Arguments -/

/-- The executed statements with their arguments. -/
abbrev Log := List (Template × Row)

def record (t : Template) (args : List Value) (log : Log) : Except Empty Log :=
  .ok (log ++ [(t, args)])

/-- The arguments that a template asks for: the values of the after image,
then the values of the columns of its WHERE clause before. -/
def templateArgs (t : Template) (after : List Value) (before : Row) : Option Row :=
  (pick t.whereClause before).map (after ++ ·)

/-- The prepared statement got the expected arguments, as many as it has
parameters, once for each row. -/
def PassesExactly (tu : TableUpdater) (log : Log) (expected : List (Option Row)) : Prop :=
  log.map (fun e => (e.1, some e.2)) = expected.map (fun args => (tu.stmt, args)) ∧
    ∀ e ∈ log, e.2.length = tu.paramCount

/-- The rows of the images of an UPDATE event, before and after. -/
def imagePairs (identifyColumns dataColumns : List Bool)
    (images : List (List Value × List Value)) : List (Row × Row) :=
  images.map fun im => (parseRow identifyColumns im.1, parseRow dataColumns im.2)

/-- What `Update` executes for the images of an event. -/
def updateLog (tu : TableUpdater) (identifyColumns dataColumns : List Bool)
    (images : List (List Value × List Value)) : Log :=
  (tu.update record (imagePairs identifyColumns dataColumns images) []).state

/-- What `Delete` executes for the images of an event. -/
def deleteLog (tu : TableUpdater) (identifyColumns : List Bool) (images : List (List Value)) :
    Log :=
  (tu.delete record (images.map (parseRow identifyColumns)) []).state

section Arguments

variable {pk : PrimaryKeySchema} {identifyColumns dataColumns : List Bool} {tu : TableUpdater}

theorem executeAll_record (stmt : Template) (rows : List Row) (log : Log) :
    executeAll record stmt (rows.map some) log
      = ⟨log ++ rows.map fun args => (stmt, args), .returned⟩ := by
  induction rows generalizing log with
  | nil => simp [executeAll]
  | cons row rows ih =>
    rw [List.map_cons, executeAll, execute, record]
    simp only [Ran.andThen, ih, List.append_assoc, List.singleton_append, List.map_cons]

theorem passesExactly_map {α : Type} (xs : List α) (f : α → Row) (g : α → Option Row) :
    PassesExactly tu (xs.map fun x => (tu.stmt, f x)) (xs.map g) ↔
      ∀ x ∈ xs, g x = some (f x) ∧ (f x).length = tu.paramCount := by
  simp only [PassesExactly, List.map_map, List.map_inj_left, Function.comp_apply,
    Prod.mk.injEq, true_and, List.forall_mem_map, ← forall₂_and]
  exact forall₂_congr fun x _ => and_congr_left fun _ => eq_comm

/-- A replacing statement gets the whole rows: right if they are the whole
images. -/
theorem insert_passes_iff {images : List (List Value × List Value)} {replace : Bool}
    (hstmt : tu.stmt = .insert replace dataColumns.length)
    (hparam : tu.paramCount = dataColumns.length)
    (himages : ∀ im ∈ images, im.2.length = bitCount dataColumns) :
    PassesExactly tu (images.map fun im => (tu.stmt, parseRow dataColumns im.2))
        (images.map fun im => templateArgs tu.stmt im.2 (parseRow identifyColumns im.1)) ↔
      images = [] ∨ bitCount dataColumns = dataColumns.length := by
  have hargs : ∀ im : List Value × List Value,
      templateArgs tu.stmt im.2 (parseRow identifyColumns im.1) = some im.2 := by
    intro im
    simp [templateArgs, hstmt, Template.whereClause, pick]
  rw [passesExactly_map]
  simp only [hargs, hparam, length_parseRow, and_true, Option.some.injEq]
  constructor
  · intro h
    cases images with
    | nil => exact .inl rfl
    | cons im images =>
      exact .inr ((parseRow_eq_iff (himages im (by simp))).mp (h im (by simp)).symm)
  · rintro (rfl | hfull)
    · simp
    · exact fun im him => (parseRow_full (himages im him) hfull).symm

/-- **The arguments of `Update`** are those of the template only where it
replaces whole rows. -/
theorem update_passes_iff (hi : identifyColumns.length = pk.schema.length)
    (hd : dataColumns.length = pk.schema.length)
    (htu : newTableUpdater pk pk.schema.length identifyColumns dataColumns .update = .ok tu)
    {images : List (List Value × List Value)}
    (himages : ∀ im ∈ images, im.2.length = bitCount dataColumns) :
    PassesExactly tu (updateLog tu identifyColumns dataColumns images)
        (images.map fun im => templateArgs tu.stmt im.2 (parseRow identifyColumns im.1)) ↔
      images = [] ∨ bitCount dataColumns = pk.schema.length ∧
        (isPkUpdate pk.schema identifyColumns dataColumns = true ∨
          bitCount identifyColumns = pk.schema.length) := by
  have hile : bitCount identifyColumns ≤ pk.schema.length := hi ▸ bitCount_le
  have hinsert : tu.insert record
      ((imagePairs identifyColumns dataColumns images).map Prod.snd) []
        = ⟨images.map fun im => (tu.stmt, parseRow dataColumns im.2), .returned⟩ := by
    rw [TableUpdater.insert, executeAll_record, List.nil_append, imagePairs, List.map_map,
      List.map_map]
    rfl
  cases newTableUpdater_update hi htu with
  | keyUpdate hpk hstmt hparam hcleanup htx =>
    obtain ⟨t, hcleanup⟩ := hcleanup
    rw [updateLog, TableUpdater.update, hcleanup]
    dsimp only
    rw [doInsertThenDelete, hinsert]
    simp only [Ran.andThen, htx, hpk, true_or, and_true]
    rw [insert_passes_iff (hd ▸ hstmt) (hd ▸ hparam) himages, hd]
  | partialUpdate hpk hpart hstmt hparam hcleanup hreplace =>
    have hlt := updateParams_lt hi hd hpk hpart
    have hlog : updateLog tu identifyColumns dataColumns images = [] := by
      rw [updateLog, update_of_lt hcleanup hreplace]
      intro p hp
      obtain ⟨im, -, rfl⟩ := List.mem_map.mp hp
      simp only [length_parseRow]
      omega
    rw [or_iff_left (by rintro ⟨hdata, h | h⟩ <;> simp_all), hlog]
    -- nothing is executed, so nothing may be expected
    cases images <;> simp [PassesExactly]
  | fullUpdate hpk hidentify hdata hstmt hparam hcleanup hreplace =>
    rw [updateLog, TableUpdater.update, hcleanup, hreplace]
    simp only [if_true, hinsert]
    rw [insert_passes_iff (hd ▸ hstmt) (hd ▸ hparam) himages, hd,
      and_iff_left (.inr (le_antisymm hile hidentify))]

/-- The positions that `getPrimaryKeyIndices` gives hold the same values as
the key columns of the WHERE clause. -/
def KeyAgrees (pk : PrimaryKeySchema) (identifyColumns : List Bool) (image : List Value) : Prop :=
  pick (getPrimaryKeyIndices pk.schema identifyColumns) (parseRow identifyColumns image)
    = pick pk.pkOrdinals (parseRow identifyColumns image)

instance (image : List Value) : Decidable (KeyAgrees pk identifyColumns image) :=
  inferInstanceAs (Decidable (_ = _))

theorem getPrimaryKeyIndices_lt (hi : identifyColumns.length = pk.schema.length) {i : Nat}
    (h : i ∈ getPrimaryKeyIndices pk.schema identifyColumns) : i < identifyColumns.length := by
  rw [getPrimaryKeyIndices_eq] at h
  split at h
  · obtain ⟨k, hk, rfl⟩ := List.mem_map.mp h
    have hle : rank identifyColumns k ≤ k := rank_le k
    have := keyOrdinals_lt hk
    omega
  · cases h

theorem pkOrdinals_lt {i : Nat} (h : i ∈ pk.pkOrdinals) : i < pk.schema.length :=
  keyOrdinals_lt (mem_pkOrdinals.mp h)

theorem length_getPrimaryKeyIndices (huses : UsesKey pk identifyColumns) :
    (getPrimaryKeyIndices pk.schema identifyColumns).length = pk.pkOrdinals.length := by
  rw [getPrimaryKeyIndices_eq, if_pos huses.2, List.length_map, pk.flagged.length_eq]

/-- What `newTableUpdater` makes of a DELETE event. -/
theorem newTableUpdater_delete (hi : identifyColumns.length = pk.schema.length)
    (h : newTableUpdater pk pk.schema.length identifyColumns dataColumns .delete = .ok tu) :
    tu.pkIndicesInIdentify = getPrimaryKeyIndices pk.schema identifyColumns ∧
      tu.stmt = .delete (whereOf pk identifyColumns) ∧
      tu.paramCount = (whereOf pk identifyColumns).length := by
  rw [newTableUpdater] at h
  dsimp only at h
  rw [buildDeleteTemplate_eq hi] at h
  cases h
  exact ⟨rfl, rfl, rfl⟩

theorem deleteLog_eq {images : List (List Value)} {f : List Value → Row}
    (h : ∀ im, tu.deleteArgs (parseRow identifyColumns im) = some (f im)) :
    deleteLog tu identifyColumns images = images.map fun im => (tu.stmt, f im) := by
  have hall : (images.map (parseRow identifyColumns)).map tu.deleteArgs
      = (images.map f).map some := by
    rw [List.map_map, List.map_map]
    exact List.map_congr_left fun im _ => h im
  rw [deleteLog, TableUpdater.delete, hall, executeAll_record, List.nil_append, List.map_map]
  rfl

/-- **The arguments of `Delete`** are those of the template where the
positions of the key agree with its columns, or the image is the whole
row. -/
theorem delete_passes_iff (hi : identifyColumns.length = pk.schema.length)
    (htu : newTableUpdater pk pk.schema.length identifyColumns dataColumns .delete = .ok tu)
    {images : List (List Value)}
    (himages : ∀ im ∈ images, im.length = bitCount identifyColumns) :
    PassesExactly tu (deleteLog tu identifyColumns images)
        (images.map fun im => templateArgs tu.stmt [] (parseRow identifyColumns im)) ↔
      ∀ im ∈ images, if UsesKey pk identifyColumns then KeyAgrees pk identifyColumns im
        else bitCount identifyColumns = pk.schema.length := by
  obtain ⟨hindices, hstmt, hparam⟩ := newTableUpdater_delete hi htu
  have hargs : ∀ row, templateArgs tu.stmt [] row = pick tu.stmt.whereClause row := by
    intro row
    simp [templateArgs]
  by_cases huses : UsesKey pk identifyColumns
  · have hpick : ∀ im, pick (getPrimaryKeyIndices pk.schema identifyColumns)
        (parseRow identifyColumns im) = some ((getPrimaryKeyIndices pk.schema identifyColumns).map
          fun i => (parseRow identifyColumns im).getD i .null) := fun im =>
      pick_eq fun i h => by simpa using getPrimaryKeyIndices_lt hi h
    rw [whereOf, if_pos huses] at hstmt hparam
    simp only [if_pos huses]
    rw [deleteLog_eq (fun im => by
      rw [deleteArgs, hindices,
        if_pos (getPrimaryKeyIndices_length_pos.mpr huses), hpick]), passesExactly_map]
    refine forall₂_congr fun im _ => ?_
    rw [hargs, hparam, hstmt, Template.whereClause, List.length_map,
      length_getPrimaryKeyIndices huses, KeyAgrees, hpick]
    exact ⟨fun h => h.1.symm, fun h => ⟨h.symm, rfl⟩⟩
  · have hzero : ¬ (getPrimaryKeyIndices pk.schema identifyColumns).length > 0 :=
      mt getPrimaryKeyIndices_length_pos.mp huses
    rw [whereOf, if_neg huses] at hstmt hparam
    simp only [if_neg huses]
    rw [deleteLog_eq (fun im => by rw [deleteArgs, hindices, if_neg hzero]),
      passesExactly_map]
    refine forall₂_congr fun im him => ?_
    rw [hargs, hparam, hstmt, Template.whereClause, pick_setBits_parseRow (himages im him),
      length_setBits, length_parseRow, ← hi, Option.some.injEq, eq_comm,
      parseRow_eq_iff (himages im him)]
    exact ⟨fun h => h.1, fun h => ⟨h, h.symm⟩⟩

/-! ### Which images agree -/

/-- The image whose values are their own positions. -/
def positions (columns : List Bool) : List Value :=
  (List.range (bitCount columns)).map fun i : Nat => .int i

theorem parseRow_getD (columns : List Bool) (f : Nat → Value) (i : Nat) :
    (parseRow columns ((List.range (bitCount columns)).map f)).getD i .null
      = if bit columns i then f (rank columns i) else .null := by
  induction columns generalizing f i with
  | nil => simp [parseRow, bit]
  | cons b columns ih =>
    cases b with
    | false =>
      have hcount : bitCount (false :: columns) = bitCount columns := by simp [bitCount]
      rw [hcount, parseRow]
      cases i with
      | zero => simp
      | succ i => simpa [rank_cons_succ] using ih f i
    | true =>
      have hcount : bitCount (true :: columns) = bitCount columns + 1 := by simp [bitCount]
      rw [hcount, List.range_succ_eq_map, List.map_cons, List.map_map, parseRow]
      cases i with
      | zero => simp
      | succ i => simpa [rank_cons_succ, Nat.add_comm] using ih (f ∘ Nat.succ) i

/-- The key is in column order, and the image has every column up to its
last column. -/
def KeyLeads (pk : PrimaryKeySchema) (identifyColumns : List Bool) : Prop :=
  pk.pkOrdinals = keyOrdinals pk.schema ∧
    ∀ i ∈ keyOrdinals pk.schema, ∀ j < i, bit identifyColumns j = true

/-- Ranks that are a permutation of what they rank leave it alone. -/
theorem map_rank_eq {columns : List Bool} {ks ps : List Nat} (hperm : ps.Perm ks)
    (h : ks.map (rank columns) = ps) : ps = ks ∧ ∀ i ∈ ks, rank columns i = i := by
  have hsum : (ks.map (rank columns)).sum = (ks.map id).sum := by
    rw [h, List.map_id, hperm.sum_eq]
  have hall : ∀ i ∈ ks, rank columns i = i := by
    by_contra hex
    push Not at hex
    obtain ⟨i, hi, hne⟩ := hex
    exact hsum.not_lt (List.sum_lt_sum _ _ (fun j _ => rank_le j)
      ⟨i, hi, lt_of_le_of_ne (rank_le i) hne⟩)
  refine ⟨?_, hall⟩
  rw [← h]
  exact (List.map_congr_left hall).trans (List.map_id _)

theorem map_eq_of_inj {α β : Type} {f : α → β} {xs ys : List α}
    (hinj : ∀ x, ∀ y ∈ ys, f x = f y → x = y) (h : xs.map f = ys.map f) : xs = ys := by
  induction ys generalizing xs with
  | nil => simpa using h
  | cons y ys ih =>
    cases xs with
    | nil => simp at h
    | cons x xs =>
      rw [List.map_cons, List.map_cons, List.cons.injEq] at h
      rw [hinj x y (by simp) h.1, ih (fun x y hy => hinj x y (by simp [hy])) h.2]

/-- The positions agree for every image exactly when the key leads. -/
theorem keyAgrees_all_iff (hi : identifyColumns.length = pk.schema.length)
    (huses : UsesKey pk identifyColumns) :
    (∀ im : List Value, im.length = bitCount identifyColumns → KeyAgrees pk identifyColumns im) ↔
      KeyLeads pk identifyColumns := by
  have hindices : getPrimaryKeyIndices pk.schema identifyColumns
      = (keyOrdinals pk.schema).map (rank identifyColumns) := by
    rw [getPrimaryKeyIndices_eq, if_pos huses.2]
  constructor
  · intro h
    have hagree := h (positions identifyColumns) (by simp [positions])
    rw [KeyAgrees, pick_eq (fun i hmem => by simpa using getPrimaryKeyIndices_lt hi hmem),
      pick_eq (fun i hmem => by simpa [hi] using pkOrdinals_lt hmem), Option.some.injEq] at hagree
    have heq : (keyOrdinals pk.schema).map (rank identifyColumns) = pk.pkOrdinals := by
      refine map_eq_of_inj (fun i k hk hval => ?_) (hindices ▸ hagree)
      have hbit : bit identifyColumns k = true :=
        (keyColumnsSet_iff _ _).mp huses.2 k (mem_pkOrdinals.mp hk)
      simp only [positions, parseRow_getD, hbit, if_true] at hval
      split at hval
      next hbit' => exact rank_inj hbit' hbit (by simpa using hval)
      · cases hval
    obtain ⟨hord, hrank⟩ := map_rank_eq pk.flagged heq
    exact ⟨hord, fun i hmem => (rank_eq_iff i).mp (hrank i hmem)⟩
  · rintro ⟨hord, hlead⟩ im -
    have heq : (keyOrdinals pk.schema).map (rank identifyColumns) = keyOrdinals pk.schema :=
      (List.map_congr_left fun i hmem => (rank_eq_iff i).mpr (hlead i hmem)).trans (List.map_id _)
    rw [KeyAgrees, hindices, heq, hord]

end Arguments

/-- **The arguments match the template exactly** in these cases. Rows of an
UPDATE must have all columns behind, and all before unless a key column is
in both images. Of a DELETE, the values at the positions of the key must be
those of its columns, or the image must have all columns; for every image
this is so when the key leads. -/
theorem bound_args_iff (pk : PrimaryKeySchema) {identifyColumns : List Bool}
    (hi : identifyColumns.length = pk.schema.length) :
    (∀ (dataColumns : List Bool) (tu : TableUpdater) (images : List (List Value × List Value)),
      dataColumns.length = pk.schema.length →
      newTableUpdater pk pk.schema.length identifyColumns dataColumns .update = .ok tu →
      (∀ im ∈ images, im.1.length = bitCount identifyColumns ∧
        im.2.length = bitCount dataColumns) →
      (PassesExactly tu (updateLog tu identifyColumns dataColumns images)
          (images.map fun im => templateArgs tu.stmt im.2 (parseRow identifyColumns im.1)) ↔
        images = [] ∨ bitCount dataColumns = pk.schema.length ∧
          (isPkUpdate pk.schema identifyColumns dataColumns = true ∨
            bitCount identifyColumns = pk.schema.length))) ∧
    (∀ (dataColumns : List Bool) (tu : TableUpdater) (images : List (List Value)),
      newTableUpdater pk pk.schema.length identifyColumns dataColumns .delete = .ok tu →
      (∀ im ∈ images, im.length = bitCount identifyColumns) →
      (PassesExactly tu (deleteLog tu identifyColumns images)
          (images.map fun im => templateArgs tu.stmt [] (parseRow identifyColumns im)) ↔
        ∀ im ∈ images, if UsesKey pk identifyColumns then KeyAgrees pk identifyColumns im
          else bitCount identifyColumns = pk.schema.length)) ∧
    ((∀ im : List Value, im.length = bitCount identifyColumns →
        if UsesKey pk identifyColumns then KeyAgrees pk identifyColumns im
        else bitCount identifyColumns = pk.schema.length) ↔
      if UsesKey pk identifyColumns then KeyLeads pk identifyColumns
      else bitCount identifyColumns = pk.schema.length) := by
  refine ⟨?_, ?_, ?_⟩
  · intro dataColumns tu images hd htu himages
    exact update_passes_iff hi hd htu fun im him => (himages im him).2
  · intro dataColumns tu images htu himages
    exact delete_passes_iff hi htu himages
  · by_cases huses : UsesKey pk identifyColumns
    · simp only [if_pos huses]
      exact keyAgrees_all_iff hi huses
    · simp only [if_neg huses]
      exact ⟨fun h => h (positions identifyColumns) (by simp [positions]), fun h _ _ => h⟩

/-- A table with its key in front of two columns. -/
def keyFirst : PrimaryKeySchema where
  schema := [⟨"id", true, {}⟩, ⟨"a", false, {}⟩, ⟨"b", false, {}⟩]
  pkOrdinals := [0]
  flagged := by decide

/-- A table with its key behind a column. -/
def keyLast : PrimaryKeySchema where
  schema := [⟨"a", false, {}⟩, ⟨"id", true, {}⟩]
  pkOrdinals := [1]
  flagged := by decide

/-- The updater of a DELETE whose image has the key only. -/
def deleteByKey (pk : PrimaryKeySchema) : TableUpdater :=
  { stmt := .delete pk.pkOrdinals, replace := false, cleanup := none, paramCount := 1
    pkIndicesInIdentify := [0], pkIndicesInData := [] }

theorem bound_args_iff_keyFirst :
    PassesExactly (deleteByKey keyFirst)
      (deleteLog (deleteByKey keyFirst) [true, false, false] [[.int 7]]) [some [.int 7]] :=
  ((bound_args_iff keyFirst (show [true, false, false].length = _ from rfl)).2.1 [] _ [[.int 7]]
    rfl (by decide)).mpr (by decide)

/-- A DELETE of row 7 by its key in the second column binds the first
column, which is not in the image. An UPDATE of column `a` by the key
panics before it executes anything. -/
theorem wrong_arguments_bound :
    newTableUpdater keyLast 2 [false, true] [] .delete = .ok (deleteByKey keyLast) ∧
      deleteLog (deleteByKey keyLast) [false, true] [[.int 7]] = [(.delete [1], [.null])] ∧
      templateArgs (.delete [1]) [] (parseRow [false, true] [.int 7]) = some [.int 7] ∧
      (newTableUpdater keyFirst 3 [true, false, false] [false, true, false] .update).map
        (fun tu => tu.update record [([.int 7, .null, .null], [.null, .int 8, .null])] [])
        = .ok ⟨[], .panicked⟩ :=
  ⟨rfl, rfl, rfl, rfl⟩

end MyDuck.Updater
