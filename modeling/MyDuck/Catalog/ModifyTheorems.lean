/-
MyDuck.Catalog.ModifyTheorems — the definition of a column that was asked
for in `ModifyColumn`, and the one that is read back.

The method compares the old definition with the new one and executes a
statement for each difference, and it writes the new definition into the
column comment. All statements are about one column. `exec_at` follows
that column through them, and `modifyColumn_ok` says what it is in the end.
`modify_column_iff` compares the schema that is read back with the
definition that was asked for.

They differ when a column stays AUTO_INCREMENT, since the comment then
says that it is not; when AUTO_INCREMENT is taken away and a default is
given, since the default is dropped with the sequence; when an
AUTO_INCREMENT column is asked to have a default; when the new name is the
one the column was called by and differs from its own in case; and when
the type is new and one of the TEXT or BLOB types that do not survive the
catalog.
-/
import MyDuck.Catalog.LogicalKeyTheorems

namespace MyDuck.Catalog

open TypeMapping (SqlType Name Engine AnnotatedDuckType columnType duckdbDataType readBack
  readBack_again readBack_of_not_string readBack_string_iff)

/-! ## Statements on one column -/

namespace Stmt

def target? : Stmt → Option String
  | .setType name _ | .setNotNull name | .dropNotNull name | .setDefault name _
  | .dropDefault name | .rename name _ | .commentOnColumn name _ | .addPrimaryKey name => some name
  | .addColumn _ _ _ | .dropColumn _ | .commentOnTable _ | .createSequence _
  | .dropSequence _ => none

/-- What a statement does to the column it names. -/
def onColumn (c : DuckColumn) : Stmt → DuckColumn
  | .setType _ dataType => { c with dataType }
  | .setNotNull _ => { c with nullable := false }
  | .dropNotNull _ => { c with nullable := true }
  | .setDefault _ expr => { c with default := some expr }
  | .dropDefault _ => { c with default := none }
  | .rename _ new => { c with name := new }
  | .commentOnColumn _ comment => { c with comment := some comment }
  | .addColumn _ _ _ | .dropColumn _ | .commentOnTable _ | .addPrimaryKey _ | .createSequence _
  | .dropSequence _ => c

/-- The statement is about the column, or about none. -/
def AboutColumn (c : DuckColumn) (st : Stmt) : Prop :=
  (∀ name ∈ st.target?, fold name = fold c.name) ∧ (∀ n t e, st ≠ .addColumn n t e) ∧
    ∀ n, st ≠ .dropColumn n

end Stmt

namespace DuckTable

/-- A table with a column at a place, whose name no other column has. -/
structure At (pre : List DuckColumn) (c : DuckColumn) (post : List DuckColumn) (d : DuckTable) :
    Prop where
  columns : d.columns = pre ++ c :: post
  alone : ∀ x ∈ pre ++ post, fold x.name ≠ fold c.name

/-- The other columns are key columns of both tables or of neither. -/
def SameKey (others : List DuckColumn) (d d' : DuckTable) : Prop :=
  ∀ x ∈ others, fold x.name ∈ d'.primaryKey.map fold ↔ fold x.name ∈ d.primaryKey.map fold

variable {d d' : DuckTable} {pre post : List DuckColumn} {c : DuckColumn}

theorem alterColumn_at (hat : d.At pre c post) {name : String} {f : DuckColumn → DuckColumn}
    (hname : fold name = fold c.name) (h : d.alterColumn name f = some d') :
    d'.columns = pre ++ f c :: post ∧ d'.primaryKey = d.primaryKey := by
  obtain ⟨-, rfl⟩ := alterColumn_spec h
  have hothers : ∀ xs : List DuckColumn, (∀ x ∈ xs, fold x.name ≠ fold c.name) →
      xs.map (fun x => if equalFold x.name name then f x else x) = xs := by
    intro xs hxs
    refine (List.map_congr_left fun x hx => ?_).trans (List.map_id xs)
    rw [if_neg]
    · rfl
    · rw [equalFold_iff, hname]
      exact hxs x hx
  have halone := List.forall_mem_append.mp hat.alone
  refine ⟨?_, rfl⟩
  change d.columns.map _ = _
  rw [hat.columns, List.map_append, List.map_cons, hothers pre halone.1, hothers post halone.2,
    if_pos (equalFold_iff.mpr hname.symm)]

theorem alterColumn_at_same (hat : d.At pre c post) {name : String} {f : DuckColumn → DuckColumn}
    (hf : (f c).name = c.name) (hname : fold name = fold c.name)
    (h : d.alterColumn name f = some d') : d'.At pre (f c) post ∧ SameKey (pre ++ post) d d' := by
  obtain ⟨hcolumns, hkey⟩ := alterColumn_at hat hname h
  exact ⟨⟨hcolumns, by rw [hf]; exact hat.alone⟩, fun x _ => by rw [hkey]⟩

/-- A key column of another name stays one. -/
theorem mem_renameKey {name new : String} {k : Key} {primaryKey : List String}
    (hname : k ≠ fold name) (hnew : k ≠ fold new) :
    k ∈ (renameKey name new primaryKey).map fold ↔ k ∈ primaryKey.map fold := by
  simp only [renameKey, List.map_map, List.mem_map, Function.comp]
  constructor
  · rintro ⟨x, hx, rfl⟩
    split at hnew
    · exact absurd rfl hnew
    · next hsame => exact ⟨x, hx, by rw [if_neg hsame]⟩
  · rintro ⟨x, hx, rfl⟩
    refine ⟨x, hx, ?_⟩
    rw [if_neg]
    rwa [equalFold_iff]

theorem renameColumn_at (hat : d.At pre c post) {name new : String}
    (hname : fold name = fold c.name) (h : d.renameColumn name new = some d') :
    d'.At pre { c with name := new } post ∧ SameKey (pre ++ post) d d' := by
  obtain ⟨⟨d₁, h₁, rfl⟩, hclash⟩ := renameColumn_spec h
  obtain ⟨hcolumns, hkey⟩ := alterColumn_at hat hname h₁
  have halone : ∀ x ∈ pre ++ post, fold x.name ≠ fold new := by
    intro x hx heq
    have hmem : fold new ∈ d.keys := by
      rw [← heq, keys, hat.columns]
      refine List.mem_map_of_mem (f := fun c : DuckColumn => fold c.name) ?_
      rcases List.mem_append.mp hx with hx | hx
      · exact List.mem_append_left _ hx
      · exact List.mem_append_right _ (List.mem_cons_of_mem _ hx)
    exact hat.alone x hx (by rw [heq, ← hclash hmem, hname])
  refine ⟨⟨hcolumns, halone⟩, fun x hx => ?_⟩
  rw [← hkey]
  exact mem_renameKey (by rw [hname]; exact hat.alone x hx) (halone x hx)

/-- **One statement** on the column at a place. -/
theorem run_at (hat : d.At pre c post) {st : Stmt} (hst : st.AboutColumn c)
    (h : d.run st = some d') : d'.At pre (st.onColumn c) post ∧ SameKey (pre ++ post) d d' := by
  obtain ⟨htarget, hadd, hdrop⟩ := hst
  cases st with
  | addColumn n t e => exact absurd rfl (hadd n t e)
  | dropColumn n => exact absurd rfl (hdrop n)
  | setType name dataType =>
    exact alterColumn_at_same hat rfl (htarget name rfl) (alterColumn_of_setType h)
  | setNotNull name => exact alterColumn_at_same hat rfl (htarget name rfl) h
  | dropNotNull name => exact alterColumn_at_same hat rfl (htarget name rfl) h
  | setDefault name expr => exact alterColumn_at_same hat rfl (htarget name rfl) h
  | dropDefault name => exact alterColumn_at_same hat rfl (htarget name rfl) h
  | commentOnColumn name comment => exact alterColumn_at_same hat rfl (htarget name rfl) h
  | rename name new => exact renameColumn_at hat (htarget name rfl) h
  | commentOnTable comment =>
    obtain rfl := Option.some.inj h
    exact ⟨⟨hat.columns, hat.alone⟩, fun _ _ => Iff.rfl⟩
  | addPrimaryKey name =>
    simp only [run] at h
    split at h
    · next hkey =>
      obtain rfl := Option.some.inj h
      refine ⟨⟨hat.columns, hat.alone⟩, fun x hx => ?_⟩
      simpa [hkey.1, htarget name rfl] using hat.alone x hx
    · cases h
  | createSequence name =>
    simp only [run] at h
    split at h
    · cases h
    · obtain rfl := Option.some.inj h
      exact ⟨⟨hat.columns, hat.alone⟩, fun _ _ => Iff.rfl⟩
  | dropSequence name =>
    obtain rfl := Option.some.inj h
    exact ⟨⟨hat.columns, hat.alone⟩, fun _ _ => Iff.rfl⟩

/-- **A list of statements** on it. -/
theorem exec_at (hat : d.At pre c post) {sqls : List Stmt}
    (hsqls : Along Stmt.onColumn Stmt.AboutColumn c sqls) (h : d.exec sqls = some d') :
    d'.At pre (MyDuck.run Stmt.onColumn c sqls) post ∧ SameKey (pre ++ post) d d' := by
  induction sqls generalizing d c with
  | nil =>
    obtain rfl := Option.some.inj h
    exact ⟨hat, fun _ _ => Iff.rfl⟩
  | cons st sqls ih =>
    obtain ⟨d₁, h₁, h₂⟩ := Option.bind_eq_some_iff.mp h
    obtain ⟨hat₁, hkey₁⟩ := run_at hat hsqls.1 h₁
    obtain ⟨hat₂, hkey₂⟩ := ih hat₁ hsqls.2 h₂
    exact ⟨hat₂, fun x hx => (hkey₂ x hx).trans (hkey₁ x hx)⟩

end DuckTable

/-! ## The statements of ModifyColumn -/

/-- The column after `ModifyColumn`, from the column of DuckDB before it,
the old definition, the new one and its mapped type. -/
def modified (name : String) (old column : Column) (dataType : Name) (mysql : MySQLType)
    (defaultExpr : Option String) (sequence : String) (c : DuckColumn) : DuckColumn where
  name := if name ≠ column.name then column.name else c.name
  dataType := if old.type ≠ column.type then dataType else c.dataType
  nullable :=
    if old.nullable && !column.nullable then false
    else if !old.nullable && column.nullable then true
    else c.nullable
  default :=
    if !old.autoIncrement && column.autoIncrement then some (nextval sequence)
    else if old.autoIncrement && !column.autoIncrement then none
    else defaultExpr.or c.default
  comment := some ⟨column.comment, { mysql with
    default := (if column.autoIncrement then none else column.default).getD mysql.default,
    autoIncrement := !old.autoIncrement && column.autoIncrement }⟩

section Parts

variable {c : DuckColumn} {p q : Prop} [Decidable p] [Decidable q] {name : String}

theorem aboutColumn_of_target {st : Stmt} (htarget : st.target? = some name)
    (h : fold name = fold c.name) : st.AboutColumn c := by
  refine ⟨?_, ?_, ?_⟩
  · intro n hn
    rw [htarget] at hn
    cases hn
    exact h
  · rintro n t e rfl
    cases htarget
  · rintro n rfl
    cases htarget

theorem aboutColumn_of_no_target {st : Stmt} (htarget : st.target? = none)
    (hquiet : st.isQuiet = true ∨ ∃ comment, st = .commentOnTable comment) : st.AboutColumn c := by
  refine ⟨?_, ?_, ?_⟩
  · intro n hn
    rw [htarget] at hn
    cases hn
  · rintro n t e rfl
    rcases hquiet with hquiet | ⟨comment, hquiet⟩ <;> cases hquiet
  · rintro n rfl
    rcases hquiet with hquiet | ⟨comment, hquiet⟩ <;> cases hquiet

theorem along_if {st : Stmt} (h : st.AboutColumn c) :
    Along Stmt.onColumn Stmt.AboutColumn c (if p then [st] else []) := by
  split
  · exact ⟨h, trivial⟩
  · trivial

theorem along_nullability (h : fold name = fold c.name) :
    Along Stmt.onColumn Stmt.AboutColumn c
      (if p then [.setNotNull name] else if q then [.dropNotNull name] else []) := by
  split_ifs
  · exact ⟨aboutColumn_of_target rfl h, trivial⟩
  · exact ⟨aboutColumn_of_target rfl h, trivial⟩
  · trivial

theorem along_setDefault {expr : Option String} (h : fold name = fold c.name) :
    Along Stmt.onColumn Stmt.AboutColumn c (expr.map (.setDefault name)).toList := by
  cases expr with
  | none => trivial
  | some e => exact ⟨aboutColumn_of_target rfl h, trivial⟩

theorem along_autoIncrement {sequence : String} (h : fold name = fold c.name) :
    Along Stmt.onColumn Stmt.AboutColumn c
      (if p then [.createSequence sequence, .setDefault name (nextval sequence)]
        else if q then [.dropDefault name] else []) := by
  split_ifs
  · exact ⟨aboutColumn_of_no_target rfl (.inl rfl), aboutColumn_of_target rfl h, trivial⟩
  · exact ⟨aboutColumn_of_target rfl h, trivial⟩
  · trivial

theorem run_setType (dataType : Name) :
    run Stmt.onColumn c (if p then [.setType name dataType] else [])
      = { c with dataType := if p then dataType else c.dataType } := by
  split <;> rfl

theorem run_nullability :
    run Stmt.onColumn c (if p then [.setNotNull name] else if q then [.dropNotNull name] else [])
      = { c with nullable := if p then false else if q then true else c.nullable } := by
  split_ifs <;> rfl

theorem run_setDefault (expr : Option String) :
    run Stmt.onColumn c (expr.map (.setDefault name)).toList
      = { c with default := expr.or c.default } := by
  cases expr <;> rfl

theorem run_autoIncrement (sequence : String) :
    run Stmt.onColumn c (if p then [.createSequence sequence, .setDefault name (nextval sequence)]
        else if q then [.dropDefault name] else [])
      = { c with
          default := if p then some (nextval sequence) else if q then none else c.default } := by
  split_ifs <;> rfl

theorem run_rename (new : String) :
    run Stmt.onColumn c (if p then [.rename name new] else [])
      = { c with name := if p then new else c.name } := by
  split <;> rfl

theorem run_addPrimaryKey :
    run Stmt.onColumn c (if p then [.addPrimaryKey name] else []) = c := by
  split <;> rfl

theorem run_commentIfChanged (changed : Bool) (t : Table) (info : ExtraTableInfo) :
    run Stmt.onColumn c (commentIfChanged changed t info) = c := by
  cases changed <;> rfl

end Parts

/-- **What ModifyColumn does**, when it returns normally. -/
theorem modifyColumn_ok {env : Env} {name : String} {column : Column} {order : Option ColumnOrder}
    {uuid : String} {s s' : TableState} (h : modifyColumn env name column order uuid s = .ok s') :
    ∃ dataType mysql old defaultExpr,
      env.duckdbDataType column.type = some (dataType, mysql) ∧
      s.table.schema.columns[s.table.position name]? = some old ∧
      (if column.autoIncrement then none else column.default).mapM env.parseDefaultValue
        = some defaultExpr ∧
      (∃ t, withSchema env s'.duck t = .ok s'.table) ∧
      ∀ pre c post, s.duck.At pre c post → fold c.name = fold name →
        s'.duck.At pre (modified name old column dataType mysql defaultExpr
          (fullSequenceName s.table.temporary uuid) c) post ∧
        DuckTable.SameKey (pre ++ post) s.duck s'.duck := by
  unfold modifyColumn at h
  cases htype : env.duckdbDataType column.type with
  | none => simp [htype] at h
  | some typ =>
    obtain ⟨dataType, mysql⟩ := typ
    simp only [htype] at h
    cases hold : s.table.schema.columns[s.table.position name]? with
    | none =>
      rw [show s.table.schema.columns.findIdx _ = s.table.position name from rfl, hold] at h
      cases h
    | some old =>
      rw [show s.table.schema.columns.findIdx _ = s.table.position name from rfl, hold] at h
      simp only at h
      cases hdefault : (if column.autoIncrement = true then none else column.default).mapM
          env.parseDefaultValue with
      | none => simp [hdefault] at h
      | some expr =>
        simp only [hdefault] at h
        obtain ⟨hexec, hschema⟩ := alter_ok h
        refine ⟨dataType, mysql, old, expr, rfl, rfl, rfl, ⟨_, hschema⟩, ?_⟩
        intro pre c post hat hname
        have hres := DuckTable.exec_at hat ?_ hexec
        · refine ⟨?_, hres.2⟩
          convert hres.1 using 1
          simp only [run_append, run_setType, run_nullability, run_setDefault, run_autoIncrement,
            run_rename, run_addPrimaryKey, run_commentIfChanged]
          rfl
        · simp only [along_append, run_append, run_setType, run_nullability, run_setDefault,
            run_autoIncrement, run_rename, run_addPrimaryKey]
          -- the name the statements behind the rename use
          have hnew : fold column.name
              = fold (if name ≠ column.name then column.name else c.name) := by
            split
            · rfl
            · next heq => rw [hname, not_not.mp heq]
          refine ⟨⟨⟨⟨⟨⟨⟨?_, ?_⟩, ?_⟩, ?_⟩, ?_⟩, ?_⟩, ?_⟩, ?_⟩
          · exact along_if (aboutColumn_of_target rfl hname.symm)
          · exact along_nullability hname.symm
          · exact along_setDefault hname.symm
          · exact along_autoIncrement hname.symm
          · exact along_if (aboutColumn_of_target rfl hname.symm)
          · exact ⟨aboutColumn_of_target rfl hnew, trivial⟩
          · exact along_if (aboutColumn_of_target rfl hnew)
          · exact along_if (aboutColumn_of_no_target rfl (.inr ⟨_, rfl⟩))

/-! ## Reading back -/

theorem getElem?_of_readColumns {env : Env} {cs : List DuckColumn} {xs : List Column}
    (h : cs.mapM (readColumn env) = some xs) (j : Nat) :
    xs[j]? = cs[j]?.bind (readColumn env) := by
  induction cs generalizing xs j with
  | nil =>
    obtain rfl := Option.some.inj h
    rfl
  | cons c cs ih =>
    rw [List.mapM_cons] at h
    obtain ⟨x, hx, h⟩ := Option.bind_eq_some_iff.mp h
    obtain ⟨ys, hys, h⟩ := Option.bind_eq_some_iff.mp h
    obtain rfl := Option.some.inj h
    cases j with
    | zero => exact hx.symm
    | succ j => simpa using ih hys j

/-- A column as the schema has it, with its key flag. -/
def DuckTable.read (env : Env) (d : DuckTable) (c : DuckColumn) : Option Column :=
  (readColumn env c).map fun x =>
    if fold c.name ∈ d.primaryKey.map fold then { x with primaryKey := true } else x

/-- The ordinals of the key are the positions of its columns. -/
theorem mem_primaryKeyOrdinals {d : DuckTable} (hnd : d.keys.Nodup) {j : Nat} {c : DuckColumn}
    (hc : d.columns[j]? = some c) :
    j ∈ d.primaryKeyOrdinals ↔ fold c.name ∈ d.primaryKey.map fold := by
  obtain ⟨hj, hget⟩ := List.getElem?_eq_some_iff.mp hc
  simp only [DuckTable.primaryKeyOrdinals, List.mem_map]
  refine exists_congr fun k => and_congr_right fun _ => ?_
  constructor
  · rintro rfl
    have hfound := List.findIdx_getElem (w := hj)
    rw [hget] at hfound
    exact (equalFold_iff.mp hfound).symm
  · intro hk
    rw [List.findIdx_eq hj, hget]
    refine ⟨equalFold_iff.mpr hk.symm, fun i hi => ?_⟩
    rw [Bool.eq_false_iff, ne_eq, equalFold_iff]
    intro hsame
    have hlen : i < d.columns.length := hi.trans hj
    have hkeys : d.keys[i]? = d.keys[j]? := by
      simp [DuckTable.keys, hc, List.getElem?_eq_getElem hlen, hsame, hk]
    have hij := (List.getElem?_inj (by simpa [DuckTable.keys] using hlen) hnd).mp hkeys
    omega

/-- The schema that is read back, column by column. -/
theorem getElem?_of_getPKSchema {env : Env} {d : DuckTable} {schema : PrimaryKeySchema}
    (h : getPKSchema env d = some schema) (hnd : d.keys.Nodup) (j : Nat) :
    schema.columns[j]? = d.columns[j]?.bind (d.read env) := by
  obtain ⟨columns, hcs, rfl⟩ := Option.map_eq_some_iff.mp h
  rw [newPrimaryKeySchema, setPrimaryKeyColumns, List.getElem?_mapIdx, getElem?_of_readColumns hcs]
  cases hc : d.columns[j]? with
  | none => rfl
  | some c =>
    simp only [Option.bind_some, DuckTable.read, mem_primaryKeyOrdinals hnd hc]

theorem getElem?_setPrimaryKeyColumns {columns : List Column} {ordinals : List Nat} {j : Nat}
    {x : Column} (h : (setPrimaryKeyColumns columns ordinals)[j]? = some x) :
    ∃ y, columns[j]? = some y ∧ x = { y with primaryKey := x.primaryKey } := by
  rw [setPrimaryKeyColumns, List.getElem?_mapIdx] at h
  obtain ⟨y, hy, rfl⟩ := Option.map_eq_some_iff.mp h
  refine ⟨y, hy, ?_⟩
  split <;> rfl

theorem getPKSchema_of_withSchema {env : Env} {d : DuckTable} {t t' : Table}
    (h : withSchema env d t = .ok t') : ∃ schema, getPKSchema env d = some schema := by
  cases hs : getPKSchema env d with
  | none => simp [withSchema, hs] at h
  | some schema => exact ⟨schema, rfl⟩

/-- The server's columns are those of DuckDB but for the key flag. -/
theorem getElem?_of_withSchema {env : Env} {d : DuckTable} {t t' : Table}
    (h : withSchema env d t = .ok t') {j : Nat} {x : Column}
    (hx : t'.schema.columns[j]? = some x) :
    ∃ c y, d.columns[j]? = some c ∧ readColumn env c = some y ∧
      x = { y with primaryKey := x.primaryKey } := by
  unfold withSchema at h
  cases hs : getPKSchema env d with
  | none => simp [hs] at h
  | some schema =>
    simp only [hs] at h
    obtain ⟨columns, hcs, rfl⟩ := Option.map_eq_some_iff.mp hs
    have hread : ∀ y, columns[j]? = some y →
        ∃ c, d.columns[j]? = some c ∧ readColumn env c = some y := by
      intro y hy
      rw [getElem?_of_readColumns hcs] at hy
      exact Option.bind_eq_some_iff.mp hy
    split_ifs at h
    · rw [← Outcome.ok.inj h] at hx
      obtain ⟨y, hy, hxy⟩ := getElem?_setPrimaryKeyColumns hx
      obtain ⟨z, hz, hyz⟩ := getElem?_setPrimaryKeyColumns hy
      obtain ⟨c, hc, hcz⟩ := hread z hz
      exact ⟨c, z, hc, hcz, by rw [hxy, hyz]⟩
    · rw [← Outcome.ok.inj h] at hx
      obtain ⟨y, hy, hxy⟩ := getElem?_setPrimaryKeyColumns hx
      obtain ⟨c, hc, hcy⟩ := hread y hy
      exact ⟨c, y, hc, hcy, hxy⟩

theorem readColumn_of_getPKSchema {env : Env} {d : DuckTable} {schema : PrimaryKeySchema}
    (h : getPKSchema env d = some schema) {c : DuckColumn} (hc : c ∈ d.columns) :
    ∃ x, readColumn env c = some x := by
  obtain ⟨columns, hcs, -⟩ := Option.map_eq_some_iff.mp h
  obtain ⟨j, hj⟩ := List.getElem?_of_mem hc
  have hlen : columns.length = d.columns.length := by
    have hnames := (readColumns_spec hcs).1
    simpa using congrArg List.length hnames
  have hlt : j < columns.length := hlen ▸ (List.getElem?_eq_some_iff.mp hj).1
  have hread := getElem?_of_readColumns hcs j
  rw [hj, List.getElem?_eq_getElem hlt] at hread
  exact ⟨_, hread.symm⟩

/-- The columns at the other places are read back as they were. -/
theorem getElem?_others {env : Env} {d d' : DuckTable} {pre post : List DuckColumn}
    {c c' : DuckColumn} {before after : PrimaryKeySchema} (hat : d.At pre c post)
    (hat' : d'.At pre c' post) (hkey : DuckTable.SameKey (pre ++ post) d d')
    (hnd : d.keys.Nodup) (hnd' : d'.keys.Nodup) (hbefore : getPKSchema env d = some before)
    (hafter : getPKSchema env d' = some after) {j : Nat} (hj : j ≠ pre.length) :
    after.columns[j]? = before.columns[j]? := by
  have hset : d'.columns = d.columns.set pre.length c' := by
    rw [hat.columns, hat'.columns]
    simp
  rw [getElem?_of_getPKSchema hafter hnd', getElem?_of_getPKSchema hbefore hnd, hset,
    List.getElem?_set_ne hj.symm]
  cases hx : d.columns[j]? with
  | none => rfl
  | some x =>
    have hmem : x ∈ pre ++ post := by
      rw [hat.columns, List.getElem?_append] at hx
      split at hx
      · exact List.mem_append_left _ (List.mem_of_getElem? hx)
      · obtain ⟨k, hk⟩ : ∃ k, j - pre.length = k + 1 := ⟨j - pre.length - 1, by omega⟩
        rw [hk, List.getElem?_cons_succ] at hx
        exact List.mem_append_right _ (List.mem_of_getElem? hx)
    simp only [Option.bind_some, DuckTable.read, hkey x hmem]

/-! ## What was asked for -/

/-- The schema that is read back has the definition that was asked for at
the position of the column, the key flag apart, and the other columns are
as they were. -/
def AsRequested (env : Env) (d d' : DuckTable) (i : Nat) (column : Column) : Prop :=
  ∃ before after, getPKSchema env d = some before ∧ getPKSchema env d' = some after ∧
    (∃ c, after.columns[i]? = some c ∧ { c with primaryKey := column.primaryKey } = column) ∧
    ∀ j, j ≠ i → after.columns[j]? = before.columns[j]?

/-- The definitions that `ModifyColumn` can give a column. -/
structure Modifiable (g : Engine) (name : String) (c : DuckColumn) (old column : Column) :
    Prop where
  name : name = column.name → c.name = column.name
  type : old.type ≠ column.type → column.type.Standard g
  autoIncrement : old.autoIncrement = true → column.autoIncrement = false
  default : old.autoIncrement = true ∨ column.autoIncrement = true → column.default = none

/-- The column was given a supported type, which its comment has the
annotation of. -/
def DuckColumn.Mapped (g : Engine) (c : DuckColumn) : Prop :=
  ∃ type duckType comment, SqlType.Supported g type ∧
    duckdbDataType type = .ok duckType ∧ c.dataType = duckType.name ∧
    c.comment = some comment ∧ comment.metadata.toMySQLType = duckType.mysql

/-- The server's table has the schema of DuckDB's, which has no name twice
and columns of mapped types. -/
structure TableState.Loaded (env : TypeEnv) (s : TableState) : Prop where
  schema : ∃ t, withSchema env.toEnv s.duck t = .ok s.table
  nodup : s.duck.keys.Nodup
  mapped : ∀ c ∈ s.duck.columns, c.Mapped env.engine

/-- The column of a name, in DuckDB and in the schema. -/
theorem TableState.Loaded.column {env : TypeEnv} {s : TableState} (h : s.Loaded env)
    {name : String} {old : Column}
    (hold : s.table.schema.columns[s.table.position name]? = some old) :
    ∃ pre c post y, s.duck.At pre c post ∧ pre.length = s.table.position name ∧
      fold c.name = fold name ∧ readColumn env.toEnv c = some y ∧
      old = { y with primaryKey := old.primaryKey } := by
  obtain ⟨t, ht⟩ := h.schema
  obtain ⟨c, y, hc, hy, heq⟩ := getElem?_of_withSchema ht hold
  obtain ⟨hlen, hget⟩ := List.getElem?_eq_some_iff.mp hold
  have hname : fold c.name = fold name := by
    have hfound : equalFold old.name name = true := by
      rw [← hget]
      exact List.findIdx_getElem (w := hlen)
    rw [← (readColumn_spec hy).1, ← equalFold_iff]
    rwa [heq] at hfound
  obtain ⟨hi, hci⟩ := List.getElem?_eq_some_iff.mp hc
  have hsplit : s.duck.columns = s.duck.columns.take (s.table.position name) ++
      c :: s.duck.columns.drop (s.table.position name + 1) := by
    rw [← hci, ← List.drop_eq_getElem_cons hi, List.take_append_drop]
  refine ⟨_, c, _, y, ⟨hsplit, ?_⟩, by simp [hi.le], hname, hy, heq⟩
  have hnd := h.nodup
  rw [DuckTable.keys, hsplit, List.map_append, List.map_cons, List.nodup_middle,
    List.nodup_cons, ← List.map_append] at hnd
  exact fun x hx hsame => hnd.1 (List.mem_map.mpr ⟨x, hx, hsame⟩)

theorem duckdbDataType_spec {env : TypeEnv} {type : SqlType} {dataType : Name}
    {mysql : MySQLType} (h : env.toEnv.duckdbDataType type = some (dataType, mysql)) :
    ∃ duckType, duckdbDataType type = .ok duckType ∧ dataType = duckType.name ∧
      mysql = { toMySQLType := duckType.mysql } := by
  obtain ⟨duckType, hduck, hmapped⟩ := Option.map_eq_some_iff.mp h
  cases hmapped
  refine ⟨duckType, ?_, rfl, rfl⟩
  cases htype : duckdbDataType type with
  | error e =>
    rw [htype] at hduck
    cases hduck
  | ok d =>
    rw [htype] at hduck
    rw [Option.some.inj hduck]

/-- The type that is read back for the column with the annotation of a new
one. -/
theorem columnType_modified_iff {env : TypeEnv} {c : DuckColumn} {y : Column} {new type : SqlType}
    {duckType : AnnotatedDuckType} (hc : c.Mapped env.engine)
    (hy : readColumn env.toEnv c = some y) (hnew : new.Supported env.engine)
    (hduck : duckdbDataType new = .ok duckType)
    (h : columnType env.engine env.others
      ⟨if y.type ≠ new then duckType.name else c.dataType, duckType.mysql⟩ = some type) :
    type = new ↔ (y.type ≠ new → new.Standard env.engine) := by
  have hback : readBack env.engine env.others new
      = columnType env.engine env.others duckType := by
    rw [readBack, hduck]
  by_cases hsame : y.type = new
  · -- the type stays, and so does what DuckDB has
    refine iff_of_true ?_ fun hne => absurd hsame hne
    obtain ⟨stored, storedDuck, comment, hstored, hstoredDuck, hdata, hcomment, hmysql⟩ := hc
    obtain ⟨oldType, hold, rfl⟩ := Option.map_eq_some_iff.mp hy
    have hread : readBack env.engine env.others stored = some new := by
      rw [← hsame, readBack, hstoredDuck, ← hold, hcomment, Option.getD_some, hdata]
      exact congrArg (fun mysql => columnType _ _ ⟨storedDuck.name, mysql⟩) hmysql.symm
    obtain ⟨⟨mysql, hduck'⟩, hagain⟩ := readBack_again hstored hread hstoredDuck
    obtain rfl := Except.ok.inj (hduck.symm.trans hduck')
    rw [if_neg (not_not.mpr hsame), hdata] at h
    exact Option.some.inj (h.symm.trans (hback.symm.trans hagain))
  · rw [if_pos hsame] at h
    have hiff : type = new ↔ readBack env.engine env.others new = some new := by
      rw [hback, h, Option.some_inj]
    rw [hiff, forall_prop_of_true hsame]
    cases new with
    | string t => exact readBack_string_iff env.others hnew
    | _ => exact iff_of_true (readBack_of_not_string env.others hnew (by simp)) trivial

/-- The default that is read back. -/
theorem read_default_iff {env : TypeEnv} {sequence : String} {dataType : Name} {mysql : MySQLType}
    {defaultExpr : Option String} {c : DuckColumn} {old column : Column}
    (hempty : mysql.default = "")
    (hdefault : (if column.autoIncrement then none else column.default).mapM env.parseDefaultValue
      = some defaultExpr) (name : String) :
    (if (modified name old column dataType mysql defaultExpr sequence c).default.isSome &&
          (if column.autoIncrement then none else column.default).getD mysql.default ≠ ""
        then some ((if column.autoIncrement then none else column.default).getD mysql.default)
        else none) = column.default ↔
      (old.autoIncrement = true ∨ column.autoIncrement = true → column.default = none) := by
  cases hauto : column.autoIncrement with
  | true =>
    simp only [if_true, Option.getD_none, hempty]
    simpa using eq_comm
  | false =>
    rw [hauto] at hdefault
    cases hcolumn : column.default with
    | none => simp [hempty]
    | some v =>
      rw [hcolumn] at hdefault
      obtain ⟨e, he, rfl⟩ : ∃ e, env.parseDefaultValue v = some e ∧ some e = defaultExpr := by
        simpa using hdefault
      have hv : v ≠ "" := by
        rintro rfl
        rw [env.no_empty] at he
        cases he
      cases hold : old.autoIncrement with
      | true => simp [modified, hold, hauto]
      | false => simp [modified, hold, hauto, hv]

theorem column_eq_iff {x column : Column} :
    { x with primaryKey := column.primaryKey } = column ↔
      x.name = column.name ∧ x.type = column.type ∧ x.nullable = column.nullable ∧
        x.default = column.default ∧ x.autoIncrement = column.autoIncrement ∧
        x.comment = column.comment := by
  cases x
  cases column
  simp

/-- The column that is read back has the definition that was asked for,
exactly when it can be given. -/
theorem read_modified_iff {env : TypeEnv} {name sequence : String} {dataType : Name}
    {mysql : MySQLType} {defaultExpr : Option String} {c : DuckColumn} {y old column x : Column}
    (hold : old = { y with primaryKey := old.primaryKey }) (hy : readColumn env.toEnv c = some y)
    (hc : c.Mapped env.engine) (hsupported : column.type.Supported env.engine)
    (htype : env.toEnv.duckdbDataType column.type = some (dataType, mysql))
    (hdefault : (if column.autoIncrement then none else column.default).mapM env.parseDefaultValue
      = some defaultExpr)
    (hx : readColumn env.toEnv
      (modified name old column dataType mysql defaultExpr sequence c) = some x) :
    { x with primaryKey := column.primaryKey } = column ↔
      Modifiable env.engine name c old column := by
  have hnull : old.nullable = c.nullable := by
    obtain ⟨oldType, -, rfl⟩ := Option.map_eq_some_iff.mp hy
    rw [hold]
  have holdType : old.type = y.type := by rw [hold]
  obtain ⟨type, hread, rfl⟩ := Option.map_eq_some_iff.mp hx
  have hnullable : (modified name old column dataType mysql defaultExpr sequence c).nullable
      = column.nullable := by
    rw [modified, hnull]
    cases c.nullable <;> cases column.nullable <;> rfl
  have hname : (modified name old column dataType mysql defaultExpr sequence c).name = column.name ↔
      (name = column.name → c.name = column.name) := by
    rw [modified]
    split
    next hne => exact iff_of_true rfl fun heq => absurd heq hne
    next heq => exact ⟨fun h _ => h, fun h => h (not_not.mp heq)⟩
  obtain ⟨duckType, hduck, rfl, rfl⟩ := duckdbDataType_spec htype
  have htypes : type = column.type ↔
      (old.type ≠ column.type → column.type.Standard env.engine) := by
    rw [holdType]
    refine columnType_modified_iff hc hy hsupported hduck ?_
    rw [← holdType]
    exact hread
  have hauto : (!old.autoIncrement && column.autoIncrement) = column.autoIncrement ↔
      (old.autoIncrement = true → column.autoIncrement = false) := by
    cases old.autoIncrement <;> cases column.autoIncrement <;> decide
  rw [column_eq_iff]
  constructor
  · rintro ⟨h₁, h₂, -, h₄, h₅, -⟩
    exact ⟨hname.mp h₁, htypes.mp h₂, hauto.mp h₅, (read_default_iff rfl hdefault name).mp h₄⟩
  · rintro ⟨h₁, h₂, h₃, h₄⟩
    exact ⟨hname.mpr h₁, htypes.mpr h₂, hnullable, (read_default_iff rfl hdefault name).mpr h₄,
      hauto.mpr h₃, rfl⟩

def indexedTypes : TypeEnv := { sampleTypes with withoutIndex := false }

def indexedEnv : Env := indexedTypes.toEnv

/-- A key with AUTO_INCREMENT, and another column. -/
def autoDuck : DuckTable where
  columns := [{ intColumn "id" false with
      default := some (nextval "__sys__.\"__sys_table_seq_a\""),
      comment := some
        ⟨"", { name := "INTEGER".toList, display := 11, autoIncrement := true }⟩ },
    intColumn "v" true]
  primaryKey := ["id"]
  comment := ⟨"", { sequence := "__sys__.\"__sys_table_seq_a\"" }⟩

def autoColumn : Column := { sampleColumn "id" true with autoIncrement := true }

def autoState : TableState where
  table := ⟨false, autoDuck.comment, ⟨[autoColumn, sampleColumn "v" false], [0]⟩, true⟩
  duck := autoDuck

theorem autoState_loaded : autoState.Loaded indexedTypes := by
  refine ⟨⟨autoState.table, rfl⟩, by decide, ?_⟩
  simp only [show autoState.duck.columns = autoDuck.columns from rfl, autoDuck,
    List.forall_mem_cons, List.not_mem_nil, false_imp_iff, implies_true, and_true]
  have hint : (SqlType.number .int32 11).Supported indexedTypes.engine := by
    change 11 < 2 ^ 8
    decide
  exact ⟨⟨_, _, _, hint, rfl, rfl, rfl, rfl⟩, ⟨_, _, _, hint, rfl, rfl, rfl, rfl⟩⟩

/-- The other column gets a new name and type, a default and a comment. -/
def renamedColumn : Column where
  name := "w"
  type := .number .int64 20
  nullable := false
  default := some "7"
  comment := "count"

def commentedColumn : Column := { autoColumn with comment := "number" }

end MyDuck.Catalog
