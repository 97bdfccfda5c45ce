/-
MyDuck.Catalog.TableTheorems — what the ALTER methods do to the columns,
to the table comment and to the key, whatever else they do.

The statements of a method differ with the definitions of the columns, but
only few of them touch the names of the columns, the table comment or the
physical key. `Plan` says so of the list of statements and of the update
of the server's copy that a method builds (`run_plans`), and `exec_spec`
carries it over to their execution.
-/
import MyDuck.Catalog.Table

namespace MyDuck.Catalog

/-! ## Column names -/

/-- A column name without regard to case. -/
abbrev Key := List Char

def DuckTable.keys (d : DuckTable) : List Key := d.columns.map (fun c => fold c.name)

def PrimaryKeySchema.keys (s : PrimaryKeySchema) : List Key := s.columns.map (fun c => fold c.name)

theorem equalFold_iff {a b : String} : equalFold a b = true ↔ fold a = fold b := by
  simp [equalFold]

theorem DuckTable.hasColumn_iff {name : String} {d : DuckTable} :
    d.hasColumn name = true ↔ fold name ∈ d.keys := by
  simp only [hasColumn, keys, List.any_eq_true, List.mem_map, equalFold_iff]

def replaceKey (old new : Key) (ks : List Key) : List Key :=
  ks.map (fun k => if k = old then new else k)

theorem replaceKey_self (k : Key) (ks : List Key) : replaceKey k k ks = ks := by
  rw [replaceKey]
  refine (List.map_congr_left fun x _ => ?_).trans (List.map_id ks)
  split
  · next h => exact h.symm
  · rfl

def Stmt.onKeys (ks : List Key) : Stmt → List Key
  | .addColumn name _ _ => ks ++ [fold name]
  | .dropColumn name => ks.filter (fun k => k ≠ fold name)
  | .rename name new => replaceKey (fold name) (fold new) ks
  | .setType _ _ | .setNotNull _ | .dropNotNull _ | .setDefault _ _ | .dropDefault _
  | .commentOnColumn _ _ | .commentOnTable _ | .addPrimaryKey _ | .createSequence _
  | .dropSequence _ => ks

def Stmt.onPrimaryKey (key : List String) : Stmt → List String
  | .addPrimaryKey name => [name]
  | .rename name new => DuckTable.renameKey name new key
  | .addColumn _ _ _ | .dropColumn _ | .setType _ _ | .setNotNull _ | .dropNotNull _
  | .setDefault _ _ | .dropDefault _ | .commentOnColumn _ _ | .commentOnTable _
  | .createSequence _ | .dropSequence _ => key

def Stmt.onComment (comment : Comment ExtraTableInfo) : Stmt → Comment ExtraTableInfo
  | .commentOnTable c => c
  | .addColumn _ _ _ | .dropColumn _ | .rename _ _ | .setType _ _ | .setNotNull _ | .dropNotNull _
  | .setDefault _ _ | .dropDefault _ | .commentOnColumn _ _ | .addPrimaryKey _
  | .createSequence _ | .dropSequence _ => comment

def Alter.onKeys (ks : List Key) : Alter → List Key
  | .add column _ _ => ks ++ [fold column.name]
  | .drop name => ks.filter (fun k => k ≠ fold name)
  | .modify name column _ _ => replaceKey (fold name) (fold column.name) ks

namespace DuckTable

variable {d d' : DuckTable}

variable {name : String} {f : DuckColumn → DuckColumn}

theorem alterColumn_spec (h : d.alterColumn name f = some d') :
    fold name ∈ d.keys ∧ d' = { d with
      columns := d.columns.map (fun c => if equalFold c.name name then f c else c) } := by
  unfold alterColumn at h
  split at h
  · next hc => exact ⟨hasColumn_iff.mp hc, (Option.some.inj h).symm⟩
  · cases h

/-- A change that keeps the name of the column. -/
theorem alterColumn_keys (h : d.alterColumn name f = some d') (hf : ∀ c, (f c).name = c.name) :
    d'.keys = d.keys := by
  obtain ⟨-, rfl⟩ := alterColumn_spec h
  simp only [keys, List.map_map]
  refine List.map_congr_left fun c _ => ?_
  simp only [Function.comp]
  split
  · rw [hf]
  · rfl

theorem renameColumn_spec {new : String} (h : d.renameColumn name new = some d') :
    (∃ d₁, d.alterColumn name (fun c => { c with name := new }) = some d₁ ∧
        d' = { d₁ with primaryKey := renameKey name new d₁.primaryKey }) ∧
      (fold new ∈ d.keys → fold name = fold new) := by
  unfold renameColumn at h
  split at h
  · cases h
  · next hc =>
    obtain ⟨d₁, h₁, rfl⟩ := Option.map_eq_some_iff.mp h
    refine ⟨⟨d₁, h₁, rfl⟩, fun hmem => ?_⟩
    rw [← hasColumn_iff] at hmem
    rw [hmem, Bool.true_and, Bool.not_eq_true', Bool.not_eq_false, equalFold_iff] at hc
    exact hc

theorem renameColumn_keys {new : String} (h : d.renameColumn name new = some d') :
    d'.keys = replaceKey (fold name) (fold new) d.keys := by
  obtain ⟨d₁, h₁, rfl⟩ := (renameColumn_spec h).1
  obtain ⟨-, rfl⟩ := alterColumn_spec h₁
  simp only [keys, replaceKey, List.map_map]
  refine List.map_congr_left fun c _ => ?_
  simp only [Function.comp, equalFold_iff]
  split <;> rfl

/-- What a statement does to the names, the physical key and the table
comment. -/
structure Ran (d : DuckTable) (st : Stmt) (d' : DuckTable) : Prop where
  keys : d'.keys = st.onKeys d.keys
  primaryKey : d'.primaryKey = st.onPrimaryKey d.primaryKey
  comment : d'.comment = st.onComment d.comment

theorem alterColumn_ran {st : Stmt} (h : d.alterColumn name f = some d')
    (hf : ∀ c, (f c).name = c.name) (hkeys : st.onKeys d.keys = d.keys)
    (hkey : st.onPrimaryKey d.primaryKey = d.primaryKey)
    (hcomment : st.onComment d.comment = d.comment) : Ran d st d' := by
  refine ⟨(alterColumn_keys h hf).trans hkeys.symm, ?_, ?_⟩
  · rw [(alterColumn_spec h).2, hkey]
  · rw [(alterColumn_spec h).2, hcomment]

theorem alterColumn_of_setType {dataType : TypeMapping.Name}
    (h : d.run (.setType name dataType) = some d') :
    d.alterColumn name (fun c => { c with dataType }) = some d' := by
  simp only [run] at h
  split at h
  · cases h
  · exact h

theorem run_ran {st : Stmt} (h : d.run st = some d') : Ran d st d' := by
  cases st with
  | addColumn name dataType dflt =>
    simp only [run] at h
    split at h
    · cases h
    · rw [← Option.some.inj h]
      exact ⟨by simp [DuckTable.keys, Stmt.onKeys], rfl, rfl⟩
  | dropColumn name =>
    simp only [run] at h
    split at h
    · rw [← Option.some.inj h]
      refine ⟨?_, rfl, rfl⟩
      simp only [DuckTable.keys, Stmt.onKeys, List.filter_map]
      congr 1
      refine List.filter_congr fun c _ => ?_
      simp [equalFold]
    · cases h
  | rename name new =>
    obtain ⟨d₁, h₁, rfl⟩ := (renameColumn_spec h).1
    refine ⟨renameColumn_keys h, ?_, ?_⟩ <;>
    · rw [(alterColumn_spec h₁).2]
      rfl
  | setType name dataType =>
    exact alterColumn_ran (alterColumn_of_setType h) (fun _ => rfl) rfl rfl rfl
  | setNotNull name | dropNotNull name | setDefault name expr | dropDefault name
  | commentOnColumn name c => exact alterColumn_ran h (fun _ => rfl) rfl rfl rfl
  | commentOnTable c => rw [← Option.some.inj h]; exact ⟨rfl, rfl, rfl⟩
  | addPrimaryKey name =>
    simp only [run] at h
    split at h
    · rw [← Option.some.inj h]; exact ⟨rfl, rfl, rfl⟩
    · cases h
  | createSequence name =>
    simp only [run] at h
    split at h
    · cases h
    · rw [← Option.some.inj h]; exact ⟨rfl, rfl, rfl⟩
  | dropSequence name => rw [← Option.some.inj h]; exact ⟨rfl, rfl, rfl⟩

theorem run_nodup {st : Stmt} (h : d.run st = some d') (hnd : d.keys.Nodup) : d'.keys.Nodup := by
  have hkeys := (run_ran h).keys
  cases st with
  | addColumn name dataType dflt =>
    simp only [run] at h
    split at h
    · cases h
    · next hc =>
      rw [hasColumn_iff] at hc
      rw [hkeys, Stmt.onKeys]
      exact List.nodup_append.mpr ⟨hnd, List.nodup_singleton _, fun k hk x hx heq =>
        hc (by rw [← List.mem_singleton.mp hx, ← heq]; exact hk)⟩
  | dropColumn name => rw [hkeys]; exact hnd.filter _
  | rename name new =>
    obtain ⟨-, hclash⟩ := renameColumn_spec h
    rw [hkeys, Stmt.onKeys]
    by_cases hsame : fold name = fold new
    · rwa [hsame, replaceKey_self]
    · have hfresh : fold new ∉ d.keys := fun hmem => hsame (hclash hmem)
      refine (List.nodup_map_iff_inj_on hnd).mpr fun x hx y hy hxy => ?_
      split_ifs at hxy with hx' hy' hy'
      · exact hx'.trans hy'.symm
      · exact absurd (hxy ▸ hy) hfresh
      · exact absurd (hxy ▸ hx) hfresh
      · exact hxy
  | setType _ _ | setNotNull _ | dropNotNull _ | setDefault _ _ | dropDefault _
  | commentOnColumn _ _ | commentOnTable _ | addPrimaryKey _ | createSequence _
  | dropSequence _ => rw [hkeys]; exact hnd

theorem exec_spec {sqls : List Stmt} (h : d.exec sqls = some d') :
    d'.keys = sqls.foldl Stmt.onKeys d.keys ∧
      d'.primaryKey = sqls.foldl Stmt.onPrimaryKey d.primaryKey ∧
      d'.comment = sqls.foldl Stmt.onComment d.comment ∧ (d.keys.Nodup → d'.keys.Nodup) := by
  induction sqls generalizing d with
  | nil =>
    obtain rfl := Option.some.inj h
    exact ⟨rfl, rfl, rfl, id⟩
  | cons st sqls ih =>
    obtain ⟨d₁, h₁, h₂⟩ := Option.bind_eq_some_iff.mp h
    obtain ⟨hkeys, hkey, hcomment, hnd⟩ := ih h₂
    have hran := run_ran h₁
    refine ⟨?_, ?_, ?_, fun h => hnd (run_nodup h₁ h)⟩
    · rw [hkeys, hran.keys, List.foldl_cons]
    · rw [hkey, hran.primaryKey, List.foldl_cons]
    · rw [hcomment, hran.comment, List.foldl_cons]

end DuckTable

/-! ## The methods -/

/-- The position of a column in the schema of the server. -/
def Table.position (name : String) (t : Table) : Nat :=
  t.schema.columns.findIdx (fun c => equalFold c.name name)

/-- The ALTER does not itself change the key. -/
def Alter.KeepsKey (t : Table) : Alter → Prop
  | .add column _ _ => column.primaryKey = false
  | .drop _ => True
  | .modify name column _ _ =>
    (t.schema.columns[t.position name]?).map Column.primaryKey = some column.primaryKey

/-- The server's copy of the key ordinals after an ALTER. -/
def Alter.ordinals (t : Table) : Alter → List Nat
  | .add column _ _ =>
    if column.primaryKey then [t.schema.columns.length] else t.comment.metadata.pkOrdinals
  | .drop _ => t.comment.metadata.pkOrdinals
  | .modify name column _ _ =>
    if column.primaryKey then [t.position name] else t.comment.metadata.pkOrdinals

/-- What the statements of an ALTER and its update of the server's copy
have in common. -/
structure Plan (a : Alter) (t : Table) (sqls : List Stmt) (update : Table → Table) : Prop where
  keys : ∀ ks, sqls.foldl Stmt.onKeys ks = a.onKeys ks
  primaryKey : a.KeepsKey t → sqls.foldl Stmt.onPrimaryKey [] = []
  comment : a.KeepsKey t → ∀ c : Comment ExtraTableInfo,
    c.metadata.pkOrdinals = t.comment.metadata.pkOrdinals →
      (sqls.foldl Stmt.onComment c).metadata.pkOrdinals = t.comment.metadata.pkOrdinals
  update : (update t).comment.metadata.pkOrdinals = a.ordinals t

/-- Statements that touch neither names nor the key nor the table
comment. -/
def Stmt.isQuiet : Stmt → Bool
  | .setType _ _ | .setNotNull _ | .dropNotNull _ | .setDefault _ _ | .dropDefault _
  | .commentOnColumn _ _ | .createSequence _ | .dropSequence _ => true
  | .addColumn _ _ _ | .dropColumn _ | .rename _ _ | .commentOnTable _ | .addPrimaryKey _ => false

section Quiet

variable {sqls : List Stmt}

theorem foldl_of_quiet {β : Type} {f : β → Stmt → β}
    (hf : ∀ st, st.isQuiet = true → ∀ x, f x st = x)
    (h : ∀ st ∈ sqls, st.isQuiet = true) (x : β) : sqls.foldl f x = x := by
  induction sqls with
  | nil => rfl
  | cons st sqls ih =>
    rw [List.foldl_cons, hf st (h st List.mem_cons_self)]
    exact ih fun st hst => h st (List.mem_cons_of_mem _ hst)

theorem onKeys_of_quiet (h : ∀ st ∈ sqls, st.isQuiet = true) (ks : List Key) :
    sqls.foldl Stmt.onKeys ks = ks :=
  foldl_of_quiet (fun st hst _ => by cases st <;> first | rfl | cases hst) h ks

theorem onPrimaryKey_of_quiet (h : ∀ st ∈ sqls, st.isQuiet = true) (key : List String) :
    sqls.foldl Stmt.onPrimaryKey key = key :=
  foldl_of_quiet (fun st hst _ => by cases st <;> first | rfl | cases hst) h key

theorem onComment_of_quiet (h : ∀ st ∈ sqls, st.isQuiet = true) (c : Comment ExtraTableInfo) :
    sqls.foldl Stmt.onComment c = c :=
  foldl_of_quiet (fun st hst _ => by cases st <;> first | rfl | cases hst) h c

end Quiet

/-- The shape of the statements of `AddColumn` and `ModifyColumn`: one part
on the names, a key if the ALTER adds one, the table comment if it
changed, and otherwise quiet ones. -/
theorem plan_of_parts {a : Alter} {t : Table} {update : Table → Table} {pre main mid : List Stmt}
    {addsKey changed : Bool} {name : String} {info : ExtraTableInfo}
    (hpre : ∀ st ∈ pre, st.isQuiet = true) (hmid : ∀ st ∈ mid, st.isQuiet = true)
    (hmain : ∀ ks, main.foldl Stmt.onKeys ks = a.onKeys ks)
    (hkey : main.foldl Stmt.onPrimaryKey [] = [])
    (hcomment : ∀ c, main.foldl Stmt.onComment c = c)
    (hadds : a.KeepsKey t → addsKey = false)
    (hinfo : a.KeepsKey t → info.pkOrdinals = t.comment.metadata.pkOrdinals)
    (hupdate : (update t).comment.metadata.pkOrdinals = a.ordinals t) :
    Plan a t (pre ++ main ++ mid ++ (if addsKey then [.addPrimaryKey name] else []) ++
      commentIfChanged changed t info) update where
  keys := fun ks => by
    simp only [List.foldl_append, onKeys_of_quiet hpre, hmain, onKeys_of_quiet hmid,
      commentIfChanged]
    cases addsKey <;> cases changed <;> rfl
  primaryKey := fun hk => by
    simp only [List.foldl_append, onPrimaryKey_of_quiet hpre, hkey, onPrimaryKey_of_quiet hmid,
      hadds hk, commentIfChanged]
    cases changed <;> rfl
  comment := fun hk c hc => by
    simp only [List.foldl_append, onComment_of_quiet hpre, hcomment, onComment_of_quiet hmid,
      hadds hk, commentIfChanged]
    cases changed with
    | true => exact hinfo hk
    | false => exact hc
  update := hupdate

theorem addColumn_plans (env : Env) (column : Column) (order : Option ColumnOrder) (uuid : String)
    (s : TableState) :
    (∃ e, addColumn env column order uuid s = .error e s) ∨
      ∃ sqls update, addColumn env column order uuid s = s.alter env sqls update ∧
        Plan (.add column order uuid) s.table sqls update := by
  unfold addColumn
  cases env.duckdbDataType column.type with
  | none => exact .inl ⟨_, rfl⟩
  | some typ =>
    cases column.default.mapM env.parseDefaultValue with
    | none => exact .inl ⟨_, rfl⟩
    | some expr =>
      refine .inr ⟨_, _, rfl, plan_of_parts ?_ ?_ (fun _ => rfl) rfl (fun _ => rfl) id
        (fun hk => ?_) rfl⟩
      · split <;> simp [Stmt.isQuiet]
      · split <;> simp [Stmt.isQuiet]
      · rw [show column.primaryKey = false from hk]
        rfl

theorem dropColumn_plans (env : Env) (name : String) (s : TableState) :
    ∃ sqls update, dropColumn env name s = s.alter env sqls update ∧
      Plan (.drop name) s.table sqls update := by
  refine ⟨_, _, rfl, ?_⟩
  cases s.table.schema.columns.any (fun c => c.autoIncrement && equalFold c.name name) with
  | true => exact ⟨fun _ => rfl, fun _ => rfl, fun _ _ _ => rfl, rfl⟩
  | false => exact ⟨fun _ => rfl, fun _ => rfl, fun _ _ hc => hc, rfl⟩

theorem modifyColumn_plans (env : Env) (name : String) (column : Column)
    (order : Option ColumnOrder) (uuid : String) (s : TableState) :
    (∃ e, modifyColumn env name column order uuid s = .error e s) ∨
      ∃ sqls update, modifyColumn env name column order uuid s = s.alter env sqls update ∧
        Plan (.modify name column order uuid) s.table sqls update := by
  unfold modifyColumn
  cases env.duckdbDataType column.type with
  | none => exact .inl ⟨_, rfl⟩
  | some typ =>
    simp only
    cases hold : s.table.schema.columns[s.table.position name]? with
    | none =>
      rw [show s.table.schema.columns.findIdx _ = s.table.position name from rfl, hold]
      exact .inl ⟨_, rfl⟩
    | some old =>
      rw [show s.table.schema.columns.findIdx _ = s.table.position name from rfl, hold]
      simp only
      cases (if column.autoIncrement = true then none else column.default).mapM
          env.parseDefaultValue with
      | none => exact .inl ⟨_, rfl⟩
      | some expr =>
        have hkeep : Alter.KeepsKey s.table (.modify name column order uuid) →
            (!old.primaryKey && column.primaryKey) = false := by
          intro hk
          simp only [Alter.KeepsKey, hold, Option.map_some, Option.some.injEq] at hk
          simp [hk]
        refine .inr ⟨_, _, rfl, plan_of_parts ?_ ?_ ?_ ?_ ?_ hkeep (fun hk => ?_) rfl⟩
        · simp only [List.forall_mem_append]
          refine ⟨⟨⟨?_, ?_⟩, ?_⟩, ?_⟩
          · split <;> simp [Stmt.isQuiet]
          · split_ifs <;> simp [Stmt.isQuiet]
          · cases expr <;> simp [Stmt.isQuiet]
          · split_ifs <;> simp [Stmt.isQuiet]
        · simp [Stmt.isQuiet]
        · intro ks
          split
          · rfl
          · next heq =>
            rw [not_not.mp heq]
            exact (replaceKey_self _ ks).symm
        · split <;> rfl
        · intro c
          split <;> rfl
        · simp only [hkeep hk]
          rfl

/-- **Every ALTER is of this kind**, or fails before it executes
anything. -/
theorem run_plans (env : Env) (a : Alter) (s : TableState) :
    (∃ e, a.run env s = .error e s) ∨
      ∃ sqls update, a.run env s = s.alter env sqls update ∧ Plan a s.table sqls update := by
  cases a with
  | add column order uuid => exact addColumn_plans env column order uuid s
  | drop name => exact .inr (dropColumn_plans env name s)
  | modify name column order uuid => exact modifyColumn_plans env name column order uuid s

/-! ## Reading the schema back -/

variable {env : Env}

theorem readColumn_spec {c : DuckColumn} {x : Column} (h : readColumn env c = some x) :
    x.name = c.name ∧ x.primaryKey = false := by
  obtain ⟨type, -, rfl⟩ := Option.map_eq_some_iff.mp h
  exact ⟨rfl, rfl⟩

/-- The columns of the schema are those of DuckDB, in the same order, and
not yet flagged as key. -/
theorem readColumns_spec {cs : List DuckColumn} {xs : List Column}
    (h : cs.mapM (readColumn env) = some xs) :
    xs.map (fun c => fold c.name) = cs.map (fun c => fold c.name) ∧
      ∀ x ∈ xs, x.primaryKey = false := by
  induction cs generalizing xs with
  | nil =>
    obtain rfl := Option.some.inj h
    exact ⟨rfl, by simp⟩
  | cons c cs ih =>
    rw [List.mapM_cons] at h
    obtain ⟨x, hx, h⟩ := Option.bind_eq_some_iff.mp h
    obtain ⟨ys, hys, h⟩ := Option.bind_eq_some_iff.mp h
    obtain rfl := Option.some.inj h
    obtain ⟨hname, hkey⟩ := readColumn_spec hx
    obtain ⟨hnames, hkeys⟩ := ih hys
    refine ⟨by rw [List.map_cons, List.map_cons, hname, hnames], ?_⟩
    intro y hy
    rcases List.mem_cons.mp hy with rfl | hy
    · exact hkey
    · exact hkeys y hy

theorem setPrimaryKeyColumns_keys (columns : List Column) (ordinals : List Nat) :
    (setPrimaryKeyColumns columns ordinals).map (fun c => fold c.name)
      = columns.map (fun c => fold c.name) := by
  refine List.ext_getElem? fun i => ?_
  rw [setPrimaryKeyColumns, List.getElem?_map, List.getElem?_mapIdx, List.getElem?_map,
    Option.map_map]
  refine congrArg (Option.map · columns[i]?) (funext fun c => ?_)
  simp only [Function.comp]
  split <;> rfl

/-- Without flags and without ordinals there is no key. -/
theorem newPrimaryKeySchema_nil {columns : List Column} (h : ∀ c ∈ columns, c.primaryKey = false) :
    newPrimaryKeySchema columns [] = ⟨columns, []⟩ := by
  have hnone : columns.zipIdx.filter (fun c => c.1.primaryKey) = [] := by
    refine List.filter_eq_nil_iff.mpr fun c hc => ?_
    rw [h c.1 (List.fst_mem_of_mem_zipIdx hc)]
    decide
  rw [newPrimaryKeySchema, if_pos rfl, hnone, List.map_nil]

theorem setPrimaryKeyColumns_nil (columns : List Column) :
    setPrimaryKeyColumns columns [] = columns := by
  refine List.ext_getElem? fun i => ?_
  simp [setPrimaryKeyColumns]

theorem setPrimaryKeyColumns_flag {columns : List Column} {ordinals : List Nat} {i : Nat}
    {c : Column} (hflags : ∀ c ∈ columns, c.primaryKey = false)
    (h : (setPrimaryKeyColumns columns ordinals)[i]? = some c) :
    c.primaryKey = decide (i ∈ ordinals) := by
  rw [setPrimaryKeyColumns, List.getElem?_mapIdx] at h
  obtain ⟨x, hx, rfl⟩ := Option.map_eq_some_iff.mp h
  split
  · next hi => simp [hi]
  · next hi =>
    rw [hflags x (List.mem_of_getElem? hx)]
    simp [hi]

/-- The schema the server reads has the columns of DuckDB. -/
theorem getPKSchema_keys {d : DuckTable} {schema : PrimaryKeySchema}
    (h : getPKSchema env d = some schema) : schema.keys = d.keys := by
  obtain ⟨columns, hcs, rfl⟩ := Option.map_eq_some_iff.mp h
  exact (setPrimaryKeyColumns_keys _ _).trans (readColumns_spec hcs).1

theorem withSchema_keys {d : DuckTable} {t t' : Table} (h : withSchema env d t = .ok t') :
    t'.schema.keys = d.keys := by
  unfold withSchema at h
  cases hs : getPKSchema env d with
  | none => simp [hs] at h
  | some schema =>
    have hkeys := getPKSchema_keys hs
    simp only [hs] at h
    split_ifs at h
    · rw [← Outcome.ok.inj h]
      exact (setPrimaryKeyColumns_keys _ _).trans hkeys
    · rw [← Outcome.ok.inj h]
      exact hkeys

/-- A schema whose key is the one of the table comment. -/
structure Logical (d : DuckTable) (t : Table) : Prop where
  keys : t.schema.keys = d.keys
  ordinals : t.schema.pkOrdinals = t.comment.metadata.pkOrdinals
  range : ∀ i ∈ t.comment.metadata.pkOrdinals, i < d.keys.length
  flags : ∀ i c, t.schema.columns[i]? = some c →
    c.primaryKey = decide (i ∈ t.comment.metadata.pkOrdinals)

/-- **Reading back a table without a physical key**, in the mode without an
index: an unreadable type is an error, an ordinal out of range a panic. -/
theorem withSchema_logical {d : DuckTable} (t : Table) (hwi : env.withoutIndex = true)
    (hkey : d.primaryKey = []) :
    (∃ e, withSchema env d t = .error e t) ∨
      ((∀ i ∈ t.comment.metadata.pkOrdinals, i < d.keys.length) ∧
        ∃ t', withSchema env d t = .ok t' ∧ t'.comment = t.comment ∧ Logical d t') ∨
      (¬ (∀ i ∈ t.comment.metadata.pkOrdinals, i < d.keys.length) ∧
        withSchema env d t = .panic) := by
  have hord : d.primaryKeyOrdinals = [] := by rw [DuckTable.primaryKeyOrdinals, hkey]; rfl
  cases hcs : d.columns.mapM (readColumn env) with
  | none =>
    left
    exact ⟨.unsupportedType, by simp only [withSchema, getPKSchema, hcs, Option.map_none]⟩
  | some columns =>
    right
    obtain ⟨hnames, hflags⟩ := readColumns_spec hcs
    have hlen : columns.length = d.keys.length := by
      rw [DuckTable.keys, ← hnames, List.length_map]
    have hschema : getPKSchema env d = some ⟨columns, []⟩ := by
      rw [getPKSchema, hcs, Option.map_some, hord, setPrimaryKeyColumns_nil,
        newPrimaryKeySchema_nil hflags]
    simp only [withSchema, hschema, hwi, and_self, if_true, List.all_eq_true, decide_eq_true_eq,
      hlen]
    by_cases hrange : ∀ i ∈ t.comment.metadata.pkOrdinals, i < d.keys.length
    · left
      refine ⟨hrange, _, if_pos hrange, rfl, ?_⟩
      refine ⟨(setPrimaryKeyColumns_keys _ _).trans hnames, ?_, hrange, ?_⟩
      · by_cases hnil : t.comment.metadata.pkOrdinals = []
        · simp only [hnil, setPrimaryKeyColumns_nil, newPrimaryKeySchema_nil hflags]
        · simp only [newPrimaryKeySchema, if_neg hnil]
      · exact fun i c hc => setPrimaryKeyColumns_flag hflags hc
    · right
      exact ⟨hrange, if_neg hrange⟩

/-- The end of a method that succeeds: the statements are executed, and the
schema is read back. -/
theorem alter_ok {sqls : List Stmt} {update : Table → Table} {s s' : TableState}
    (h : s.alter env sqls update = .ok s') :
    s.duck.exec sqls = some s'.duck ∧ withSchema env s'.duck (update s.table) = .ok s'.table := by
  rw [TableState.alter] at h
  cases hexec : s.duck.exec sqls with
  | none => simp [hexec] at h
  | some d =>
    simp only [hexec] at h
    cases hschema : withSchema env d (update s.table) with
    | ok t =>
      simp only [hschema] at h
      obtain rfl := Outcome.ok.inj h
      exact ⟨rfl, hschema⟩
    | error e t | panic => simp [hschema] at h

/-- An ALTER that succeeds, as far as the columns are concerned. -/
theorem run_ok_keys {a : Alter} {s s' : TableState} (h : a.run env s = .ok s') :
    s'.duck.keys = a.onKeys s.duck.keys ∧ s'.table.schema.keys = s'.duck.keys ∧
      (s.duck.keys.Nodup → s'.duck.keys.Nodup) := by
  rcases run_plans env a s with ⟨e, he⟩ | ⟨sqls, update, hrun, hplan⟩
  · rw [he] at h
    cases h
  · rw [hrun] at h
    obtain ⟨hexec, hschema⟩ := alter_ok h
    obtain ⟨hkeys, -, -, hnd⟩ := DuckTable.exec_spec hexec
    exact ⟨hkeys.trans (hplan.keys _), withSchema_keys hschema, hnd⟩

end MyDuck.Catalog
