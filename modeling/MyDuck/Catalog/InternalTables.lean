/-
MyDuck.Catalog.InternalTables — the statements on the server's own tables
(`catalog/internal_tables.go`).

Five builders write a statement with one loop over the columns behind the
first. What a statement is meant to be is given as segments: texts, and
placeholders with the column that each of them stands for. `render` is the
text of the segments and `params` the columns of the placeholders.

SELECT and the upsert are what they should be for every table. UPDATE has a
comma between the conditions on the key columns, and DELETE nothing at all,
so both are right only for a key of one column (`byWholeKey_iff`).
-/
import Mathlib

namespace MyDuck.InternalTables

/-- What the builders read of a table. -/
structure InternalTable where
  schema : String
  name : String
  keyColumns : List String
  valueColumns : List String
  deriving DecidableEq, Repr

/-! ## The source -/

/-- The loop over the columns behind the first. -/
def writeColumns (before after b : String) (columns : List String) : String :=
  columns.foldl (fun b c => b ++ before ++ c ++ after) b

namespace InternalTable

variable (it : InternalTable)

def qualifiedName : String := it.schema ++ "." ++ it.name

/-- `UpdateStmt`; without a column the index is out of range. -/
def updateStmt (keyColumns valueColumns : List String) : Option String :=
  match valueColumns, keyColumns with
  | v :: vs, k :: ks =>
    let b := "UPDATE " ++ it.qualifiedName ++ (" SET " ++ v ++ " = ?")
    let b := writeColumns ", " " = ?" b vs
    let b := b ++ (" WHERE " ++ k ++ " = ?")
    some (writeColumns ", " " = ?" b ks)
  | _, _ => none

def upsertStmt : Option String :=
  match it.keyColumns with
  | _ :: ks =>
    let b := "INSERT OR REPLACE INTO " ++ it.qualifiedName ++ " VALUES (?"
    let b := ks.foldl (fun b _ => b ++ ", ?") b
    let b := it.valueColumns.foldl (fun b _ => b ++ ", ?") b
    some (b ++ ")")
  | [] => none

def deleteStmt : Option String :=
  match it.keyColumns with
  | k :: ks =>
    let b := "DELETE FROM " ++ it.qualifiedName ++ " WHERE " ++ k ++ " = ?"
    -- nothing is written in front of a column
    some (writeColumns "" " = ?" b ks)
  | [] => none

def selectColumnsStmt (valueColumns : List String) : Option String :=
  match valueColumns, it.keyColumns with
  | v :: vs, k :: ks =>
    let b := writeColumns ", " "" ("SELECT " ++ v) vs
    let b := b ++ " FROM " ++ it.qualifiedName ++ " WHERE " ++ k ++ " = ?"
    some (writeColumns " AND " " = ?" b ks)
  | _, _ => none

def selectStmt : Option String := it.selectColumnsStmt it.valueColumns

end InternalTable

/-! ## What the statements are for -/

inductive Segment where
  | text (s : String)
  | param (column : String)
  deriving DecidableEq, Repr

def Segment.render : Segment → String
  | .text s => s
  | .param _ => "?"

def Segment.param? : Segment → Option String
  | .text _ => none
  | .param column => some column

def render (segments : List Segment) : String := String.join (segments.map Segment.render)

/-- The columns of the placeholders, in their order. -/
def params (segments : List Segment) : List String := segments.filterMap Segment.param?

def equals (column : String) : List Segment := [.text (column ++ " = "), .param column]

def separated (separator : String) (parts : List (List Segment)) : List Segment :=
  [Segment.text separator].intercalate parts

/-- All the columns have their values. -/
def conjunction (columns : List String) : List Segment := separated " AND " (columns.map equals)

def updateSegments (table : String) (values keys : List String) : List Segment :=
  .text ("UPDATE " ++ table ++ " SET ") :: separated ", " (values.map equals) ++
    .text " WHERE " :: conjunction keys

def deleteSegments (table : String) (keys : List String) : List Segment :=
  .text ("DELETE FROM " ++ table ++ " WHERE ") :: conjunction keys

def selectSegments (table : String) (values keys : List String) : List Segment :=
  .text "SELECT " :: separated ", " (values.map fun c => [.text c]) ++
    .text (" FROM " ++ table ++ " WHERE ") :: conjunction keys

def upsertSegments (table : String) (keys values : List String) : List Segment :=
  .text ("INSERT OR REPLACE INTO " ++ table ++ " VALUES (") ::
    separated ", " ((keys ++ values).map fun c => [.param c]) ++ [.text ")"]

/-- The statement has these segments, and its placeholders are for these
columns. -/
def Written (stmt : Option String) (segments : List Segment) (columns : List String) : Prop :=
  stmt = some (render segments) ∧ params segments = columns

/-- **Statements select by the whole key**, for a table and the columns
that are given to `UpdateStmt` and `SelectColumnsStmt`. -/
structure ByWholeKey (it : InternalTable) (keys values : List String) : Prop where
  update : Written (it.updateStmt keys values) (updateSegments it.qualifiedName values keys)
    (values ++ keys)
  delete : Written it.deleteStmt (deleteSegments it.qualifiedName it.keyColumns) it.keyColumns
  select : Written it.selectStmt
    (selectSegments it.qualifiedName it.valueColumns it.keyColumns) it.keyColumns
  selectColumns : Written (it.selectColumnsStmt values)
    (selectSegments it.qualifiedName values it.keyColumns) it.keyColumns
  upsert : Written it.upsertStmt
    (upsertSegments it.qualifiedName it.keyColumns it.valueColumns)
    (it.keyColumns ++ it.valueColumns)

/-! ## Segments -/

section Segments

variable (segments segments' : List Segment)

@[simp] theorem render_nil : render [] = "" := rfl

@[simp] theorem params_nil : params [] = [] := rfl

@[simp] theorem render_cons (s : Segment) :
    render (s :: segments) = s.render ++ render segments := by
  simp [render]

@[simp] theorem render_append :
    render (segments ++ segments') = render segments ++ render segments' := by
  induction segments with
  | nil => simp
  | cons s segments ih => simp [ih, String.append_assoc]

@[simp] theorem params_append :
    params (segments ++ segments') = params segments ++ params segments' := by
  simp [params]

@[simp] theorem params_text (s : String) : params (.text s :: segments) = params segments := rfl

@[simp] theorem params_param (c : String) :
    params (.param c :: segments) = c :: params segments := rfl

/-- Separators have no placeholders. -/
theorem params_separated (separator : String) (parts : List (List Segment)) :
    params (separated separator parts) = parts.flatMap params := by
  unfold separated
  induction parts with
  | nil => rfl
  | cons p parts ih =>
    cases parts with
    | nil => simp
    | cons q parts =>
      rw [List.intercalate_cons_cons, params_append, params_append, ih]
      simp

theorem params_equals (columns : List String) : (columns.map equals).flatMap params = columns := by
  induction columns with
  | nil => rfl
  | cons c columns ih => simp [equals, ih]

end Segments

/-! ## The loops -/

section Loops

variable {before before' after b : String} {columns : List String}

theorem foldl_write (write : String → String) (b : String) (columns : List String) :
    columns.foldl (fun b c => b ++ write c) b = b ++ String.join (columns.map write) := by
  induction columns generalizing b with
  | nil => simp
  | cons c columns ih => simp [ih, String.append_assoc]

theorem writeColumns_eq (before after b : String) (columns : List String) :
    writeColumns before after b columns =
      b ++ String.join (columns.map fun c => before ++ (c ++ after)) := by
  rw [← foldl_write]
  simp only [writeColumns, String.append_assoc]

/-- **The loop** writes the separator in front of every column but the
first. -/
theorem join_separated {part : String → List Segment} {write : String → String}
    (hpart : ∀ c, render (part c) = write c) (separator c : String) (columns : List String) :
    write c ++ String.join (columns.map fun c => separator ++ write c) =
      render (separated separator ((c :: columns).map part)) := by
  unfold separated
  induction columns generalizing c with
  | nil => simp [hpart]
  | cons d columns ih =>
    have hcons : [Segment.text separator].intercalate ((c :: d :: columns).map part) =
        part c ++ [Segment.text separator] ++
          [Segment.text separator].intercalate ((d :: columns).map part) :=
      List.intercalate_cons_cons ..
    rw [hcons, render_append, render_append, ← ih, hpart]
    simp [Segment.render, String.append_assoc]

theorem length_join (texts : List String) :
    (String.join texts).length = (texts.map String.length).sum := by
  induction texts with
  | nil => rfl
  | cons t texts ih => simp [ih]

/-- With separators of different lengths the loop writes different texts,
unless there is nothing to separate. -/
theorem writeColumns_eq_iff (h : before.length ≠ before'.length) :
    writeColumns before after b columns = writeColumns before' after b columns ↔ columns = [] := by
  constructor
  · intro heq
    have hlength := congrArg String.length heq
    simp only [writeColumns_eq, String.length_append, length_join, List.map_map] at hlength
    have hsum : ∀ w : String, (columns.map (String.length ∘ fun c => w ++ (c ++ after))).sum =
        columns.length * w.length + (columns.map fun c => (c ++ after).length).sum := by
      intro w
      simp [Function.comp_def, List.sum_map_add]
    rw [hsum, hsum] at hlength
    have hmul : columns.length * before.length = columns.length * before'.length := by omega
    rcases Nat.eq_zero_or_pos columns.length with hzero | hpos
    · exact List.eq_nil_of_length_eq_zero hzero
    · exact absurd (Nat.eq_of_mul_eq_mul_left hpos hmul) h
  · rintro rfl
    rfl

end Loops

/-! ## The statements -/

section Statements

variable (it : InternalTable)

theorem render_equals (c : String) : render (equals c) = c ++ " = ?" := by
  simp [equals, Segment.render, String.append_assoc]

/-- The loop that SELECT has for the key columns. -/
theorem writeColumns_conjunction (b k : String) (ks : List String) :
    writeColumns " AND " " = ?" (b ++ k ++ " = ?") ks = b ++ render (conjunction (k :: ks)) := by
  rw [conjunction, ← join_separated render_equals, writeColumns_eq]
  simp only [String.append_assoc]

theorem params_conjunction (keys : List String) : params (conjunction keys) = keys := by
  rw [conjunction, params_separated, params_equals]

theorem written_selectColumns {values : List String} (hkeys : it.keyColumns ≠ [])
    (hvalues : values ≠ []) :
    Written (it.selectColumnsStmt values)
      (selectSegments it.qualifiedName values it.keyColumns) it.keyColumns := by
  obtain ⟨k, ks, hk⟩ := List.exists_cons_of_ne_nil hkeys
  obtain ⟨v, vs, rfl⟩ := List.exists_cons_of_ne_nil hvalues
  have hlist : ∀ c : String, render [.text c] = c := by simp [Segment.render]
  constructor
  · have hvalues : writeColumns ", " "" ("SELECT " ++ v) vs =
        "SELECT " ++ render (separated ", " ((v :: vs).map fun c => [.text c])) := by
      rw [← join_separated hlist, writeColumns_eq]
      simp [String.append_assoc]
    simp only [InternalTable.selectColumnsStmt, hk, hvalues, selectSegments]
    rw [writeColumns_conjunction]
    simp [Segment.render, String.append_assoc]
  · have hnone : ((v :: vs).map fun c => [Segment.text c]).flatMap params = [] := by
      simp [List.flatMap_map]
    rw [selectSegments, List.cons_append, params_text, params_append, params_separated, hnone,
      params_text, params_conjunction, List.nil_append]

/-- UPDATE is right for a key of one column, and only then. -/
theorem written_update_iff {keys values : List String} (hkeys : keys ≠ []) (hvalues : values ≠ []) :
    Written (it.updateStmt keys values) (updateSegments it.qualifiedName values keys)
      (values ++ keys) ↔ keys.length = 1 := by
  obtain ⟨k, ks, rfl⟩ := List.exists_cons_of_ne_nil hkeys
  obtain ⟨v, vs, rfl⟩ := List.exists_cons_of_ne_nil hvalues
  have hparams : params (updateSegments it.qualifiedName (v :: vs) (k :: ks)) =
      (v :: vs) ++ (k :: ks) := by
    rw [updateSegments, List.cons_append, params_text, params_append, params_separated,
      params_equals, params_text, params_conjunction]
  have hset : writeColumns ", " " = ?"
      ("UPDATE " ++ it.qualifiedName ++ (" SET " ++ v ++ " = ?")) vs =
        "UPDATE " ++ it.qualifiedName ++ " SET " ++
          render (separated ", " ((v :: vs).map equals)) := by
    rw [← join_separated render_equals, writeColumns_eq]
    simp only [String.append_assoc]
  have hsegments : render (updateSegments it.qualifiedName (v :: vs) (k :: ks)) =
      writeColumns " AND " " = ?"
        ("UPDATE " ++ it.qualifiedName ++ " SET " ++
          render (separated ", " ((v :: vs).map equals)) ++ (" WHERE " ++ k ++ " = ?")) ks := by
    rw [← String.append_assoc, ← String.append_assoc, writeColumns_conjunction, updateSegments]
    simp only [List.cons_append, render_cons, render_append, Segment.render, String.append_assoc]
  rw [Written, hsegments, and_iff_left hparams]
  simp only [InternalTable.updateStmt, hset, Option.some.injEq]
  rw [writeColumns_eq_iff (by decide)]
  simp

theorem written_delete_iff (hkeys : it.keyColumns ≠ []) :
    Written it.deleteStmt (deleteSegments it.qualifiedName it.keyColumns) it.keyColumns ↔
      it.keyColumns.length = 1 := by
  obtain ⟨k, ks, hk⟩ := List.exists_cons_of_ne_nil hkeys
  have hparams : params (deleteSegments it.qualifiedName it.keyColumns) = it.keyColumns := by
    rw [deleteSegments, params_text, params_conjunction]
  have hsegments : render (deleteSegments it.qualifiedName (k :: ks)) =
      writeColumns " AND " " = ?"
        ("DELETE FROM " ++ it.qualifiedName ++ " WHERE " ++ k ++ " = ?") ks := by
    rw [writeColumns_conjunction, deleteSegments]
    simp [Segment.render]
  rw [Written, and_iff_left hparams, hk, hsegments]
  simp only [InternalTable.deleteStmt, hk, Option.some.injEq]
  rw [writeColumns_eq_iff (by decide)]
  simp

theorem written_upsert (hkeys : it.keyColumns ≠ []) :
    Written it.upsertStmt (upsertSegments it.qualifiedName it.keyColumns it.valueColumns)
      (it.keyColumns ++ it.valueColumns) := by
  obtain ⟨k, ks, hk⟩ := List.exists_cons_of_ne_nil hkeys
  have hmark : ∀ c : String, render [.param c] = "?" := fun _ => by simp [Segment.render]
  constructor
  · have hmarks : "?" ++ String.join ((ks ++ it.valueColumns).map fun _ => ", ?") =
        render (separated ", " ((k :: (ks ++ it.valueColumns)).map fun c => [.param c])) :=
      join_separated hmark ", " k (ks ++ it.valueColumns)
    have hopen : " VALUES (?" = " VALUES (" ++ "?" := rfl
    simp only [InternalTable.upsertStmt, upsertSegments, hk]
    rw [← List.foldl_append, foldl_write fun _ => ", ?", List.cons_append, List.cons_append,
      render_cons, render_append, ← hmarks]
    simp only [Segment.render, String.append_assoc, render_cons, render_nil, String.append_empty]
    rw [hopen, String.append_assoc]
  · have hall : ∀ columns : List String,
        (columns.map fun c => [Segment.param c]).flatMap params = columns := by
      intro columns
      simp [List.flatMap_map]
    rw [upsertSegments, List.cons_append, params_text, params_append, params_separated, hall]
    simp

/-- **Statements on a table select by the whole key** exactly when the keys
have one column. -/
theorem byWholeKey_iff (it : InternalTable) (keys values : List String)
    (hkeyColumns : it.keyColumns ≠ []) (hvalueColumns : it.valueColumns ≠ []) (hkeys : keys ≠ [])
    (hvalues : values ≠ []) :
    ByWholeKey it keys values ↔ keys.length = 1 ∧ it.keyColumns.length = 1 := by
  constructor
  · intro h
    exact ⟨(written_update_iff it hkeys hvalues).mp h.update,
      (written_delete_iff it hkeyColumns).mp h.delete⟩
  · rintro ⟨hone, hone'⟩
    exact ⟨(written_update_iff it hkeys hvalues).mpr hone,
      (written_delete_iff it hkeyColumns).mpr hone',
      written_selectColumns it hkeyColumns hvalueColumns,
      written_selectColumns it hkeyColumns hvalues, written_upsert it hkeyColumns⟩

def pgSubscription : InternalTable :=
  ⟨"__sys__", "pg_subscription", ["subname"],
    ["subconninfo", "subpublication", "subskiplsn", "subenabled"]⟩

theorem byWholeKey_pgSubscription : ByWholeKey pgSubscription ["subname"] ["subenabled"] :=
  (byWholeKey_iff pgSubscription ["subname"] ["subenabled"] (by decide) (by decide) (by decide)
    (by decide)).mpr ⟨rfl, rfl⟩

def pgMatViews : InternalTable :=
  ⟨"__sys__", "pg_matviews", ["schemaname", "matviewname"],
    ["matviewowner", "tablespace", "hasindexes", "ispopulated", "definition"]⟩

/-- The key of this table has two columns. -/
theorem pgMatViews_not_byWholeKey :
    pgMatViews.deleteStmt =
        some "DELETE FROM __sys__.pg_matviews WHERE schemaname = ?matviewname = ?" ∧
      pgMatViews.updateStmt pgMatViews.keyColumns ["definition"] =
        some "UPDATE __sys__.pg_matviews SET definition = ? WHERE schemaname = ?, matviewname = ?" ∧
      ¬ ByWholeKey pgMatViews pgMatViews.keyColumns ["definition"] := by
  refine ⟨by decide, by decide, fun h => ?_⟩
  have hone := (written_delete_iff pgMatViews (by decide)).mp h.delete
  exact absurd hone (by decide)

end Statements

end MyDuck.InternalTables
