/-
MyDuck.Catalog.ColumnOrderTheorems — the columns of a source table and of
its replica after the same ALTER statements.

MySQL puts an added column where FIRST or AFTER says, and moves a modified
one there. The methods of the catalog ignore the position: an added column
goes to the end, and a modified one stays. A row event of the binlog has
no names, so its i-th cell is stored in the i-th column of the replica,
and the two lists have to agree. `column_order_iff` says that they do, in
every state, exactly when every position that is asked for is the one the
column gets on the replica anyway.
-/
import MyDuck.Base.Run
import MyDuck.Delta.Appender
import MyDuck.Catalog.TableTheorems

namespace MyDuck.Catalog

open MyDuck.Delta (Value)

/-! ## ALTER on the source -/

/-- The columns in front of the position that is asked for. -/
def before (order : Option ColumnOrder) (cols : List Key) : List Key :=
  match order with
  | none => cols
  | some .first => []
  | some (.after name) => cols.takeWhile (fun k => k ≠ fold name) ++ [fold name]

def insertAt (order : Option ColumnOrder) (x : Key) (cols : List Key) : List Key :=
  before order cols ++ x :: cols.drop (before order cols).length

/-- The columns of the source table after an ALTER. -/
def Alter.onSource (cols : List Key) : Alter → List Key
  | .add column order _ => insertAt order (fold column.name) cols
  | .drop name => cols.filter (fun k => k ≠ fold name)
  | .modify name column none _ => replaceKey (fold name) (fold column.name) cols
  | .modify name column (some order) _ =>
    insertAt (some order) (fold column.name) (cols.filter (fun k => k ≠ fold name))

/-- AFTER names a column. -/
def OrderOn (cols : List Key) : Option ColumnOrder → Prop
  | some (.after name) => fold name ∈ cols
  | some .first => True
  | none => True

/-- The source can execute the ALTER: it names columns that are there, and
gives no column the name of another. -/
def Alter.ValidOn (cols : List Key) : Alter → Prop
  | .add column order _ => fold column.name ∉ cols ∧ OrderOn cols order
  | .drop name => fold name ∈ cols
  | .modify name column order _ => fold name ∈ cols ∧
      fold column.name ∉ cols.filter (fun k => k ≠ fold name) ∧
      OrderOn (cols.filter (fun k => k ≠ fold name)) order

/-- The position that is asked for is the end, for an added column, and
the place where the column stands, for a modified one. -/
def Alter.AtPlace (cols : List Key) : Alter → Prop
  | .add _ order _ => before order cols = cols
  | .drop _ => True
  | .modify _ _ none _ => True
  | .modify name _ (some order) _ =>
    before (some order) (cols.filter (fun k => k ≠ fold name))
      = cols.takeWhile (fun k => k ≠ fold name)

/-! ## Positions -/

variable {cols pre post : List Key}

/-- A column that is there splits the list of names. -/
theorem split_at_name {k : Key} (hnd : cols.Nodup) (hk : k ∈ cols) :
    ∃ pre post, cols = pre ++ k :: post ∧ k ∉ pre ∧ k ∉ post := by
  obtain ⟨pre, post, rfl, hpre⟩ := List.eq_append_cons_of_mem hk
  exact ⟨pre, post, rfl, hpre, (List.nodup_cons.mp (List.nodup_append.mp hnd).2.1).1⟩

theorem takeWhile_ne_append {k : Key} (h : k ∉ pre) :
    (pre ++ k :: post).takeWhile (fun x => x ≠ k) = pre := by
  rw [List.takeWhile_append_of_pos, List.takeWhile_cons_of_neg (by simp), List.append_nil]
  intro x hx
  simpa using fun heq : x = k => h (heq ▸ hx)

theorem filter_ne_append {k : Key} (hpre : k ∉ pre) (hpost : k ∉ post) :
    (pre ++ k :: post).filter (fun x => x ≠ k) = pre ++ post := by
  have hkeep : ∀ {l : List Key}, k ∉ l → l.filter (fun x => x ≠ k) = l := fun h =>
    List.filter_eq_self.mpr fun x hx => by simpa using fun heq : x = k => h (heq ▸ hx)
  rw [List.filter_append, List.filter_cons_of_neg (by simp), hkeep hpre, hkeep hpost]

theorem before_isPrefix {order : Option ColumnOrder} (h : OrderOn cols order) :
    before order cols <+: cols := by
  cases order with
  | none => exact List.prefix_refl cols
  | some o =>
    cases o with
    | first => exact List.nil_prefix
    | after name =>
      obtain ⟨pre, post, rfl, hpre⟩ := List.eq_append_cons_of_mem h
      rw [before, takeWhile_ne_append hpre]
      exact ⟨post, by simp⟩

/-- A new name ends up between two parts of the list exactly when the first
part is what is in front of the position asked for. -/
theorem insertAt_eq_iff {order : Option ColumnOrder} {x : Key} (hx : x ∉ cols)
    (ho : OrderOn cols order) (hcols : cols = pre ++ post) :
    insertAt order x cols = pre ++ x :: post ↔ before order cols = pre := by
  have hsplit : before order cols ++ cols.drop (before order cols).length = cols :=
    (List.prefix_append_drop (before_isPrefix ho)).symm
  have hfront : x ∉ before order cols := fun h => hx (hsplit ▸ List.mem_append_left _ h)
  have hback : x ∉ cols.drop (before order cols).length := fun h => hx (List.mem_of_mem_drop h)
  rw [insertAt, List.append_cons_inj_of_notMem hfront hback]
  refine ⟨fun h => h.1, fun h => ⟨h, rfl, ?_⟩⟩
  rw [h, hcols, List.drop_left]

theorem replaceKey_of_not_mem {old new : Key} {ks : List Key} (h : old ∉ ks) :
    replaceKey old new ks = ks := by
  rw [replaceKey]
  refine (List.map_congr_left fun k hk => ?_).trans (List.map_id ks)
  exact if_neg fun heq : k = old => h (heq ▸ hk)

/-- **One ALTER on the list of columns**: source and replica get the same
list exactly when the position is the one the column gets anyway. -/
theorem onKeys_eq_onSource_iff {a : Alter} (hnd : cols.Nodup) (hv : a.ValidOn cols) :
    a.onKeys cols = a.onSource cols ↔ a.AtPlace cols := by
  cases a with
  | add column order uuid =>
    rw [eq_comm]
    exact insertAt_eq_iff hv.1 hv.2 (List.append_nil cols).symm
  | drop name => exact ⟨fun _ => trivial, fun _ => rfl⟩
  | modify name column order uuid =>
    cases order with
    | none => exact ⟨fun _ => trivial, fun _ => rfl⟩
    | some o =>
      obtain ⟨hmem, hnew, ho⟩ := hv
      obtain ⟨pre, post, rfl, hpre, hpost⟩ := split_at_name hnd hmem
      have hrest := filter_ne_append hpre hpost
      have hkeys : Alter.onKeys (pre ++ fold name :: post) (.modify name column (some o) uuid)
          = pre ++ fold column.name :: post := by
        rw [Alter.onKeys, replaceKey, List.map_append, List.map_cons, if_pos rfl]
        exact congrArg₂ (fun a b => a ++ fold column.name :: b) (replaceKey_of_not_mem hpre)
          (replaceKey_of_not_mem hpost)
      rw [hrest] at hnew ho
      rw [hkeys, Alter.onSource, Alter.AtPlace, hrest, takeWhile_ne_append hpre, eq_comm]
      exact insertAt_eq_iff hnew ho rfl

/-! ## Source and replica in lockstep -/

/-- A table of the replica and the columns of its source. -/
structure Mirror where
  state : TableState
  source : List Key

namespace Mirror

def step (env : Env) (m : Mirror) (a : Alter) : Mirror :=
  ⟨((a.run env m.state).state?).getD m.state, a.onSource m.source⟩

def Succeeds (env : Env) (m : Mirror) (a : Alter) : Prop :=
  (∃ s, a.run env m.state = .ok s) ∧ a.ValidOn m.source

/-- The column in which the cell of a row event is stored, by position. -/
def stored (cols : List Key) (cells : List Value) (k : Key) : Option Value :=
  (cols.zip cells).lookup k

/-- The i-th column of the replica is the i-th column of the source, and so
every cell of a row event is stored in the column it belongs to. -/
def InOrder (m : Mirror) : Prop :=
  m.state.table.schema.keys = m.source ∧
    ∀ cells k, stored m.state.table.schema.keys cells k = stored m.source cells k

variable {m : Mirror}

theorem inOrder_iff : m.InOrder ↔ m.state.table.schema.keys = m.source :=
  ⟨fun h => h.1, fun h => ⟨h, fun _ _ => by rw [h]⟩⟩

/-- The server's schema has the columns of DuckDB, and no name twice. -/
structure Inv (m : Mirror) : Prop where
  keys : m.state.table.schema.keys = m.state.duck.keys
  nodup : m.state.duck.keys.Nodup

theorem step_of_ok {env : Env} {a : Alter} {s : TableState} (h : a.run env m.state = .ok s) :
    m.step env a = ⟨s, a.onSource m.source⟩ := by
  rw [step, h]
  rfl

theorem Inv.step {env : Env} {a : Alter} (h : m.Inv) (hs : m.Succeeds env a) :
    (m.step env a).Inv := by
  obtain ⟨⟨s, hs⟩, -⟩ := hs
  obtain ⟨-, hkeys, hnd⟩ := run_ok_keys hs
  rw [step_of_ok hs]
  exact ⟨hkeys, hnd h.nodup⟩

/-- One ALTER keeps the order exactly when its position is the one the
column gets anyway. -/
theorem Inv.inOrder_iff {env : Env} {a : Alter} (h : m.Inv) (hgood : m.InOrder)
    (hs : m.Succeeds env a) : (m.step env a).InOrder ↔ a.AtPlace m.source := by
  obtain ⟨⟨s, hs⟩, hv⟩ := hs
  obtain ⟨hduck, hkeys, -⟩ := run_ok_keys hs
  have hsource : m.state.duck.keys = m.source := h.keys.symm.trans hgood.1
  rw [step_of_ok hs, Mirror.inOrder_iff, hkeys, hduck, hsource]
  exact onKeys_eq_onSource_iff (hsource ▸ h.nodup) hv

end Mirror

/-- **Column order.** From a table with the same columns on source and
replica, every sequence of ALTER statements keeps each column of the
replica in the place it has on the source, and with it each cell of a row
event in its column, exactly when every position that is asked for is the
one the column gets anyway. -/
theorem column_order_iff (env : Env) (d : DuckTable) (t : Table) (hload : load env d = .ok t)
    (hnd : d.keys.Nodup) (as : List Alter)
    (has : Along (Mirror.step env) (Mirror.Succeeds env) ⟨⟨t, d⟩, d.keys⟩ as) :
    (∀ bs, bs <+: as → (run (Mirror.step env) ⟨⟨t, d⟩, d.keys⟩ bs).InOrder) ↔
      Along (Mirror.step env) (fun m a => a.AtPlace m.source) ⟨⟨t, d⟩, d.keys⟩ as := by
  have hkeys : t.schema.keys = d.keys := withSchema_keys hload
  have hinv : (⟨⟨t, d⟩, d.keys⟩ : Mirror).Inv := ⟨hkeys, hnd⟩
  have hstart : (⟨⟨t, d⟩, d.keys⟩ : Mirror).InOrder := Mirror.inOrder_iff.mpr hkeys
  exact Along.good_iff (fun _ _ h hs => h.step hs) (fun _ _ h hg hs => h.inOrder_iff hg hs) hinv
    hstart has

instance (cols : List Key) (order : Option ColumnOrder) : Decidable (OrderOn cols order) :=
  match order with
  | some (.after _) => inferInstanceAs (Decidable (_ ∈ _))
  | some .first => isTrue trivial
  | none => isTrue trivial

instance (cols : List Key) (a : Alter) : Decidable (a.ValidOn cols) :=
  match a with
  | .add _ _ _ => inferInstanceAs (Decidable (_ ∧ _))
  | .drop _ => inferInstanceAs (Decidable (_ ∈ _))
  | .modify _ _ _ _ => inferInstanceAs (Decidable (_ ∧ _ ∧ _))

instance (cols : List Key) (a : Alter) : Decidable (a.AtPlace cols) :=
  match a with
  | .add _ _ _ => inferInstanceAs (Decidable (_ = _))
  | .drop _ => isTrue trivial
  | .modify _ _ none _ => isTrue trivial
  | .modify _ _ (some _) _ => inferInstanceAs (Decidable (_ = _))

/-- A replica without an index. -/
def sampleTypes : TypeEnv where
  engine := TypeMapping.mysqlEngine
  others := (0, 0)
  parseDefaultValue := fun expr => if expr = "" then none else some expr
  withoutIndex := true
  no_empty := rfl

def sampleEnv : Env := sampleTypes.toEnv

def intColumn (name : String) (nullable : Bool) : DuckColumn :=
  ⟨name, "INTEGER".toList, nullable, none, some ⟨"", { name := "INTEGER".toList, display := 11 }⟩⟩

/-- A table of three columns; the key is the first. -/
def sampleDuck : DuckTable where
  columns := [intColumn "id" false, intColumn "v" true, intColumn "w" true]
  comment := ⟨"", { pkOrdinals := [0], replicated := true }⟩

def sampleColumn (name : String) (primaryKey : Bool) : Column :=
  { name, type := .number .int32 11, nullable := !primaryKey, primaryKey }

def sampleTable : Table where
  comment := ⟨"", { pkOrdinals := [0], replicated := true }⟩
  schema := ⟨[sampleColumn "id" true, sampleColumn "v" false, sampleColumn "w" false], [0]⟩
  hasPrimaryKey := false

theorem load_sampleDuck : load sampleEnv sampleDuck = .ok sampleTable := rfl

def sampleMirror : Mirror := ⟨⟨sampleTable, sampleDuck⟩, sampleDuck.keys⟩

/-- A column is added at the end, one is dropped, and the first one is
renamed and asked to be the first. -/
def sampleAlters : List Alter :=
  [.add (sampleColumn "c" false) (some (.after "w")) "", .drop "v",
    .modify "id" (sampleColumn "key" true) (some .first) ""]

theorem column_order_iff_sample :
    Along (Mirror.step sampleEnv) (Mirror.Succeeds sampleEnv) sampleMirror sampleAlters ∧
      ∀ bs, bs <+: sampleAlters → (run (Mirror.step sampleEnv) sampleMirror bs).InOrder := by
  have hok : Along (Mirror.step sampleEnv) (Mirror.Succeeds sampleEnv) sampleMirror sampleAlters :=
    ⟨⟨⟨_, rfl⟩, by decide⟩, ⟨⟨_, rfl⟩, by decide⟩, ⟨⟨_, rfl⟩, by decide⟩, trivial⟩
  exact ⟨hok, (column_order_iff sampleEnv sampleDuck sampleTable load_sampleDuck (by decide)
    sampleAlters hok).mpr (by decide)⟩

/-- A column is added as the first one: on the replica it is the last, and
the value of the new column is stored in the key column. -/
theorem first_column_comes_last :
    Along (Mirror.step sampleEnv) (Mirror.Succeeds sampleEnv) sampleMirror
        [.add (sampleColumn "c" false) (some .first) ""] ∧
      (run (Mirror.step sampleEnv) sampleMirror
        [.add (sampleColumn "c" false) (some .first) ""]).source
          = [fold "c", fold "id", fold "v", fold "w"] ∧
      (run (Mirror.step sampleEnv) sampleMirror
        [.add (sampleColumn "c" false) (some .first) ""]).state.table.schema.keys
          = [fold "id", fold "v", fold "w", fold "c"] ∧
      Mirror.stored (run (Mirror.step sampleEnv) sampleMirror
        [.add (sampleColumn "c" false) (some .first) ""]).state.table.schema.keys
          [.int 9, .int 1, .int 2, .int 3] (fold "id") = some (.int 9) := by
  refine ⟨⟨⟨⟨_, rfl⟩, by decide⟩, trivial⟩, rfl, rfl, rfl⟩

end MyDuck.Catalog
