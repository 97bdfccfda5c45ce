/-
MyDuck.Catalog.LogicalKeyTheorems — the primary key of a table without a
physical index, along ALTER statements that do not change it.

The key is a list of positions, kept in the table comment and in the
server's copy of it. `DropColumn` moves columns but renumbers nothing, and
`ModifyColumn` of a key column sets the server's copy to that column
alone. `logical_key_iff` says that the key keeps naming its columns, in
range and with both copies equal, in every state, exactly when every
column that is dropped stands behind all key columns and every key column
that is modified is the whole key.
-/
import MyDuck.Catalog.ColumnOrderTheorems

namespace MyDuck.Catalog

/-! ## The key of a table -/

/-- The columns the key ordinals name, in key order. -/
def PrimaryKeySchema.keyColumns (s : PrimaryKeySchema) : List (Option Key) :=
  s.pkOrdinals.map (fun i => s.keys[i]?)

/-- The names of the key columns after an ALTER that does not change the
key: a renamed column is the same column. -/
def Alter.onKey (key : List Key) : Alter → List Key
  | .modify name column _ _ => replaceKey (fold name) (fold column.name) key
  | .add _ _ _ | .drop _ => key

/-- The schema of the server names the columns of the key, with ordinals in
range, and the ordinals in memory are the persisted ones. -/
structure KeyKept (s : TableState) (key : List Key) : Prop where
  columns : s.table.schema.keyColumns = key.map some
  range : ∀ i ∈ s.table.schema.pkOrdinals, i < s.table.schema.columns.length
  schema : s.table.schema.pkOrdinals = s.duck.comment.metadata.pkOrdinals
  memory : s.table.comment.metadata.pkOrdinals = s.duck.comment.metadata.pkOrdinals

/-- A dropped column stands behind all key columns, and a key column that
is modified is the whole key. -/
def Alter.SparesKey (t : Table) : Alter → Prop
  | .add _ _ _ => True
  | .drop name => ∀ i ∈ t.schema.pkOrdinals, i < t.position name
  | .modify name column _ _ => column.primaryKey = true → t.schema.pkOrdinals = [t.position name]

/-- A table without a physical key, read back. -/
structure Readback (s : TableState) : Prop where
  nodup : s.duck.keys.Nodup
  primaryKey : s.duck.primaryKey = []
  logical : Logical s.duck s.table

/-- The column that the ALTER drops or modifies is there. -/
def Alter.Finds (cols : List Key) : Alter → Prop
  | .add _ _ _ => True
  | .drop name => fold name ∈ cols
  | .modify name _ _ _ => fold name ∈ cols

/-! ## Positions -/

theorem position_eq {t : Table} {name : String} {pre post : List Key}
    (hkeys : t.schema.keys = pre ++ fold name :: post) (hpre : fold name ∉ pre) :
    t.position name = pre.length := by
  have hmap : t.position name = t.schema.keys.findIdx (fun k => decide (k = fold name)) := by
    rw [Table.position, PrimaryKeySchema.keys, List.findIdx_map]
    rfl
  have hnone : pre.findIdx (fun k => decide (k = fold name)) = pre.length :=
    List.findIdx_eq_length_of_false fun k hk => by
      simpa using fun heq : k = fold name => hpre (heq ▸ hk)
  rw [hmap, hkeys, List.findIdx_append, hnone, if_neg (lt_irrefl _), List.findIdx_cons]
  simp

/-- What is named by ordinals that name whole columns is in range. -/
theorem lt_of_named {ordinals : List Nat} {cols key : List Key}
    (h : ordinals.map (fun i => cols[i]?) = key.map some) : ∀ i ∈ ordinals, i < cols.length := by
  intro i hi
  have hmem : cols[i]? ∈ key.map some := h ▸ List.mem_map.mpr ⟨i, hi, rfl⟩
  obtain ⟨k, -, hk⟩ := List.mem_map.mp hmem
  exact (List.getElem?_eq_some_iff.mp hk.symm).1

theorem named_of_range {ordinals : List Nat} {cols : List Key}
    (h : ∀ i ∈ ordinals, i < cols.length) :
    ordinals.map (fun i => cols[i]?) = (ordinals.filterMap (fun i => cols[i]?)).map some := by
  rw [List.map_filterMap_some_eq_filter_map_isSome, eq_comm, List.filter_eq_self]
  intro k hk
  obtain ⟨i, hi, rfl⟩ := List.mem_map.mp hk
  simpa using h i hi

/-! ## One ALTER -/

section Step

variable {s : TableState} {key : List Key}

/-- The server's columns, through the position of a name. -/
theorem Readback.position (h : Readback s) {name : String} {pre post : List Key}
    (hkeys : s.duck.keys = pre ++ fold name :: post) (hpre : fold name ∉ pre) :
    s.table.position name = pre.length :=
  position_eq (h.logical.keys.trans hkeys) hpre

/-- Dropping a column leaves the ordinals of the key right exactly when it
stands behind all key columns. -/
theorem drop_spares_iff (h : Readback s)
    (hkey : s.table.comment.metadata.pkOrdinals.map (fun i => s.duck.keys[i]?) = key.map some)
    {name : String} (hname : fold name ∈ s.duck.keys) :
    s.table.comment.metadata.pkOrdinals.map
        (fun i => (s.duck.keys.filter (fun k => k ≠ fold name))[i]?) = key.map some ↔
      ∀ i ∈ s.table.comment.metadata.pkOrdinals, i < s.table.position name := by
  obtain ⟨pre, post, hcols, hpre, hpost⟩ := split_at_name h.nodup hname
  have hrest : s.duck.keys.filter (fun k => k ≠ fold name) = pre ++ post := by
    rw [hcols, filter_ne_append hpre hpost]
  rw [h.position hcols hpre, hrest, ← hkey, List.map_inj_left]
  constructor
  · intro hall i hi
    by_contra hlt
    -- the next column moved into its place
    have hnext : (pre ++ post)[i]? = s.duck.keys[i + 1]? := by
      have hge : pre.length ≤ i := not_lt.mp hlt
      rw [hcols, List.getElem?_append_right hge,
        List.getElem?_append_right (hge.trans (Nat.le_succ i)), Nat.succ_sub hge,
        List.getElem?_cons_succ]
    have hsame : s.duck.keys[i + 1]? = s.duck.keys[i]? := hnext.symm.trans (hall i hi)
    have hin : i + 1 < s.duck.keys.length := by
      rw [List.getElem?_eq_getElem (lt_of_named hkey i hi)] at hsame
      exact (List.getElem?_eq_some_iff.mp hsame).1
    exact List.nodup_iff_getElem?_ne_getElem?.mp h.nodup i (i + 1) (Nat.lt_succ_self i) hin
      hsame.symm
  · intro hall i hi
    rw [hcols, List.getElem?_append_left (hall i hi), List.getElem?_append_left (hall i hi)]

/-- The names of the key columns after a modification. -/
theorem modify_named {ordinals : List Nat} {cols : List Key} {old new : Key}
    (hkey : ordinals.map (fun i => cols[i]?) = key.map some) :
    ordinals.map (fun i => (replaceKey old new cols)[i]?) = (replaceKey old new key).map some := by
  have hstep : ∀ i ∈ ordinals, (replaceKey old new cols)[i]?
      = (cols[i]?).map (fun k => if k = old then new else k) := fun i _ => by
    rw [replaceKey, List.getElem?_map]
  rw [List.map_congr_left hstep, ← Function.comp_def, ← List.map_map, hkey, replaceKey,
    List.map_map, List.map_map]
  rfl

/-- **One ALTER on the key ordinals**: the server's copy keeps the ordinals
and they keep naming the columns of the key, exactly when the ALTER spares
the key. -/
theorem spares_iff (h : Readback s) {a : Alter} (hk : a.KeepsKey s.table)
    (hfinds : a.Finds s.duck.keys)
    (hkey : s.table.comment.metadata.pkOrdinals.map (fun i => s.duck.keys[i]?) = key.map some) :
    (a.ordinals s.table = s.table.comment.metadata.pkOrdinals ∧
      s.table.comment.metadata.pkOrdinals.map (fun i => (a.onKeys s.duck.keys)[i]?)
        = (a.onKey key).map some) ↔ a.SparesKey s.table := by
  cases a with
  | add column order uuid =>
    refine ⟨fun _ => trivial,
      fun _ => ⟨if_neg (by rw [show column.primaryKey = false from hk]; decide), ?_⟩⟩
    refine (List.map_congr_left fun i hi => ?_).trans hkey
    exact List.getElem?_append_left (lt_of_named hkey i hi)
  | drop name =>
    rw [Alter.SparesKey, h.logical.ordinals, ← drop_spares_iff h hkey hfinds]
    exact ⟨fun hboth => hboth.2, fun hcols => ⟨rfl, hcols⟩⟩
  | modify name column order uuid =>
    rw [Alter.SparesKey, h.logical.ordinals, Alter.ordinals]
    cases hflag : column.primaryKey with
    | true =>
      refine ⟨fun hboth _ => ?_, fun hone => ⟨?_, modify_named hkey⟩⟩
      · simpa using hboth.1.symm
      · simpa using (hone rfl).symm
    | false =>
      exact ⟨fun _ hf => absurd hf (by decide), fun _ => ⟨by simp, modify_named hkey⟩⟩

/-- An ALTER that meets no error finds its column. -/
theorem finds_of_run {env : Env} {a : Alter} (h : Readback s) (hk : a.KeepsKey s.table)
    (hrun : ∀ e s', a.run env s ≠ .error e s') : a.Finds s.duck.keys := by
  cases a with
  | add column order uuid => trivial
  | drop name =>
    by_contra hnone
    have hhas : s.duck.hasColumn name = false :=
      Bool.eq_false_iff.mpr fun hc => hnone (DuckTable.hasColumn_iff.mp hc)
    refine hrun .duckDB s ?_
    simp only [Alter.run, dropColumn, TableState.alter, DuckTable.exec, List.foldlM_cons,
      DuckTable.run, hhas]
    rfl
  | modify name column order uuid =>
    obtain ⟨c, hc, -⟩ := Option.map_eq_some_iff.mp hk
    have hlt := (List.getElem?_eq_some_iff.mp hc).1
    obtain ⟨x, hx, heq⟩ := List.findIdx_lt_length.mp hlt
    rw [Alter.Finds, ← h.logical.keys, ← equalFold_iff.mp heq]
    exact List.mem_map_of_mem hx

/-- What an ALTER that meets no error does: it ends in a table that is read
back, or in a panic when the ordinals are out of range. -/
theorem run_readback {env : Env} {a : Alter} (hwi : env.withoutIndex = true) (h : Readback s)
    (hk : a.KeepsKey s.table) (hrun : ∀ e s', a.run env s ≠ .error e s') :
    (∃ s', a.run env s = .ok s' ∧ Readback s' ∧ s'.duck.keys = a.onKeys s.duck.keys ∧
      s'.table.comment.metadata.pkOrdinals = a.ordinals s.table ∧
      (s.table.comment.metadata.pkOrdinals = s.duck.comment.metadata.pkOrdinals →
        s'.duck.comment.metadata.pkOrdinals = s.table.comment.metadata.pkOrdinals)) ∨
      (a.run env s = .panic ∧
        ¬ ∀ i ∈ a.ordinals s.table, i < (a.onKeys s.duck.keys).length) := by
  rcases run_plans env a s with ⟨e, he⟩ | ⟨sqls, update, heq, hplan⟩
  · exact absurd he (hrun e s)
  · rw [heq, TableState.alter] at hrun ⊢
    cases hexec : s.duck.exec sqls with
    | none => exact absurd (by simp only [hexec]) (hrun .duckDB s)
    | some d =>
      obtain ⟨hkeys, hphys, hcomment, hnd⟩ := DuckTable.exec_spec hexec
      rw [hplan.keys] at hkeys
      rw [h.primaryKey, hplan.primaryKey hk] at hphys
      simp only [hexec] at hrun ⊢
      rcases withSchema_logical (update s.table) hwi hphys with
        ⟨e, he⟩ | ⟨-, t, ht, hc, hlog⟩ | ⟨hrange, hpanic⟩
      · exact absurd (by simp only [he]) (hrun e ⟨update s.table, d⟩)
      · left
        refine ⟨⟨t, d⟩, by simp only [ht], ⟨hnd h.nodup, hphys, hlog⟩, hkeys, ?_, fun hsame => ?_⟩
        · exact (congrArg (fun c => c.metadata.pkOrdinals) hc).trans hplan.update
        · exact (congrArg (fun c => c.metadata.pkOrdinals) hcomment).trans
            (hplan.comment hk s.duck.comment hsame.symm)
      · right
        refine ⟨by simp only [hpanic], ?_⟩
        rwa [hplan.update, hkeys] at hrange

end Step

/-! ## Runs -/

/-- A table and the columns of its key. There is no table after a panic. -/
structure KeyRun where
  state : Option TableState
  key : List Key

namespace KeyRun

def step (env : Env) (v : KeyRun) (a : Alter) : KeyRun :=
  ⟨v.state.bind (fun s => (a.run env s).state?), a.onKey v.key⟩

/-- The dropped column is no key column. -/
def DropsOther (key : List Key) : Alter → Prop
  | .drop name => fold name ∉ key
  | .add _ _ _ | .modify _ _ _ _ => True

/-- The ALTER meets no error and does not itself change the key. -/
def Succeeds (env : Env) (v : KeyRun) (a : Alter) : Prop :=
  ∀ s, v.state = some s →
    (∀ e s', a.run env s ≠ .error e s') ∧ a.KeepsKey s.table ∧ DropsOther v.key a

/-- There is a table, and its key is kept. -/
def Kept (v : KeyRun) : Prop := ∃ s, v.state = some s ∧ KeyKept s v.key

def Inv (v : KeyRun) : Prop := ∀ s, v.state = some s → Readback s

def Spares (v : KeyRun) (a : Alter) : Prop := ∀ s, v.state = some s → a.SparesKey s.table

/-- The table as it is loaded, with the columns its comment names. -/
def start (d : DuckTable) (t : Table) : KeyRun :=
  ⟨some ⟨t, d⟩, d.comment.metadata.pkOrdinals.filterMap (fun i => d.keys[i]?)⟩

theorem step_of_run {env : Env} {v : KeyRun} {a : Alter} {s : TableState}
    (hs : v.state = some s) : (v.step env a).state = (a.run env s).state? := by
  rw [step, hs, Option.bind_some]

theorem Inv.step {env : Env} {v : KeyRun} {a : Alter} (hwi : env.withoutIndex = true)
    (h : v.Inv) (ha : v.Succeeds env a) : (v.step env a).Inv := by
  intro s' hs'
  obtain ⟨s, hs, -⟩ := Option.bind_eq_some_iff.mp hs'
  obtain ⟨hrun, hk, -⟩ := ha s hs
  rw [step_of_run hs] at hs'
  rcases run_readback hwi (h s hs) hk hrun with ⟨s₁, hok, hread, -⟩ | ⟨hpanic, -⟩
  · rw [hok, Outcome.state?_ok, Option.some.injEq] at hs'
    exact hs' ▸ hread
  · rw [hpanic] at hs'
    cases hs'

/-- The key of a table that was read back, through the server's copy of
the ordinals. -/
theorem keyKept_iff {s : TableState} {key : List Key} (h : Readback s) :
    KeyKept s key ↔
      s.table.comment.metadata.pkOrdinals = s.duck.comment.metadata.pkOrdinals ∧
        s.table.comment.metadata.pkOrdinals.map (fun i => s.duck.keys[i]?) = key.map some := by
  have hcols : s.table.schema.keyColumns
      = s.table.comment.metadata.pkOrdinals.map (fun i => s.duck.keys[i]?) := by
    rw [PrimaryKeySchema.keyColumns, h.logical.ordinals, h.logical.keys]
  have hlen : s.table.schema.columns.length = s.duck.keys.length := by
    rw [← h.logical.keys, PrimaryKeySchema.keys, List.length_map]
  constructor
  · exact fun hkept => ⟨hkept.memory, hcols ▸ hkept.columns⟩
  · rintro ⟨hmem, hkey⟩
    refine ⟨hcols.trans hkey, ?_, h.logical.ordinals.trans hmem, hmem⟩
    rw [h.logical.ordinals, hlen]
    exact h.logical.range

/-- One ALTER keeps the key exactly when it spares it. -/
theorem Inv.kept_iff {env : Env} {v : KeyRun} {a : Alter} (hwi : env.withoutIndex = true)
    (h : v.Inv) (hg : v.Kept) (ha : v.Succeeds env a) : (v.step env a).Kept ↔ v.Spares a := by
  obtain ⟨s, hs, hkept⟩ := hg
  obtain ⟨hrun, hk, -⟩ := ha s hs
  obtain ⟨hmem, hkey⟩ := (keyKept_iff (h s hs)).mp hkept
  have hspares : v.Spares a ↔ a.SparesKey s.table :=
    ⟨fun hall => hall s hs, fun hsp s' hs' => Option.some.inj (hs.symm.trans hs') ▸ hsp⟩
  have hiff := spares_iff (h s hs) hk (finds_of_run (h s hs) hk hrun) hkey
  rw [hspares, ← hiff]
  rcases run_readback hwi (h s hs) hk hrun with
    ⟨s', hok, hread, hkeys, hords, hcomment⟩ | ⟨hpanic, hrange⟩
  · have hstate : (v.step env a).state = some s' := by rw [step_of_run hs, hok]; rfl
    have hkept' : (v.step env a).Kept ↔ KeyKept s' (a.onKey v.key) :=
      ⟨fun ⟨s₁, hs₁, hk₁⟩ => Option.some.inj (hstate.symm.trans hs₁) ▸ hk₁,
        fun hk₁ => ⟨s', hstate, hk₁⟩⟩
    rw [hkept', keyKept_iff hread, hords, hcomment hmem, hkeys]
    exact and_congr_right fun heq => by rw [heq]
  · have hstate : (v.step env a).state = none := by rw [step_of_run hs, hpanic]; rfl
    refine ⟨fun ⟨s', hs', _⟩ => absurd (hstate.symm.trans hs') (by simp), fun ⟨hords, hcols⟩ => ?_⟩
    exact absurd (fun i hi => lt_of_named hcols i (hords ▸ hi)) hrange

/-- A table that can be loaded starts with its key kept. -/
theorem start_spec {env : Env} {d : DuckTable} {t : Table} (hwi : env.withoutIndex = true)
    (hphys : d.primaryKey = []) (hnd : d.keys.Nodup) (hload : load env d = .ok t) :
    (start d t).Inv ∧ (start d t).Kept := by
  rcases withSchema_logical
      { comment := d.comment, schema := ⟨[], []⟩, hasPrimaryKey := decide (d.primaryKey ≠ []) }
      hwi hphys with ⟨e, he⟩ | ⟨hrange, t', ht', hc, hlog⟩ | ⟨-, hpanic⟩
  · exact absurd (hload.symm.trans he) (by simp)
  · obtain rfl : t' = t := Outcome.ok.inj (ht'.symm.trans hload)
    have hread : Readback ⟨t', d⟩ := ⟨hnd, hphys, hlog⟩
    refine ⟨fun s hs => Option.some.inj hs ▸ hread, ⟨t', d⟩, rfl, (keyKept_iff hread).mpr ?_⟩
    simp only [hc, start, true_and]
    exact named_of_range hrange
  · exact absurd (hload.symm.trans hpanic) (by simp)

end KeyRun

/-- **Logical keys.** For a table without a physical key that the server
can load, and ALTER statements that succeed and do not themselves change
the key, the key names the same columns in the same order in every state,
with ordinals in range that are the persisted ones, exactly when every
dropped column stands behind all key columns and every key column that is
modified is the whole key. -/
theorem logical_key_iff (env : Env) (hwi : env.withoutIndex = true) (d : DuckTable)
    (hphys : d.primaryKey = []) (hnd : d.keys.Nodup) (t : Table) (hload : load env d = .ok t)
    (as : List Alter) (has : Along (KeyRun.step env) (KeyRun.Succeeds env) (KeyRun.start d t) as) :
    (∀ bs, bs <+: as → (run (KeyRun.step env) (KeyRun.start d t) bs).Kept) ↔
      Along (KeyRun.step env) KeyRun.Spares (KeyRun.start d t) as := by
  obtain ⟨hinv, hkept⟩ := KeyRun.start_spec hwi hphys hnd hload
  exact Along.good_iff (fun _ _ h ha => h.step hwi ha) (fun _ _ h hg ha => h.kept_iff hwi hg ha)
    hinv hkept has

instance (t : Table) (a : Alter) : Decidable (a.KeepsKey t) :=
  match a with
  | .add _ _ _ => inferInstanceAs (Decidable (_ = _))
  | .drop _ => isTrue trivial
  | .modify _ _ _ _ => inferInstanceAs (Decidable (_ = _))

instance (t : Table) (a : Alter) : Decidable (a.SparesKey t) :=
  match a with
  | .add _ _ _ => isTrue trivial
  | .drop _ => inferInstanceAs (Decidable (∀ _ ∈ _, _ < _))
  | .modify _ _ _ _ => inferInstanceAs (Decidable (_ = true → _ = _))

instance (key : List Key) (a : Alter) : Decidable (KeyRun.DropsOther key a) :=
  match a with
  | .add _ _ _ => isTrue trivial
  | .drop _ => inferInstanceAs (Decidable (¬ _ ∈ _))
  | .modify _ _ _ _ => isTrue trivial

/-- An ALTER that returns normally. -/
theorem KeyRun.succeeds_of_ok {env : Env} {v : KeyRun} {a : Alter} {s s' : TableState}
    (hs : v.state = some s) (hok : a.run env s = .ok s') (hk : a.KeepsKey s.table)
    (hd : KeyRun.DropsOther v.key a) : v.Succeeds env a := by
  intro s₁ hs₁
  obtain rfl : s = s₁ := Option.some.inj (hs.symm.trans hs₁)
  exact ⟨fun e s' he => absurd (hok.symm.trans he) (by simp), hk, hd⟩

theorem KeyRun.spares_of_state {v : KeyRun} {a : Alter} {s : TableState} (hs : v.state = some s)
    (h : a.SparesKey s.table) : v.Spares a :=
  fun _ hs' => Option.some.inj (hs.symm.trans hs') ▸ h

/-- A column is added, the last but one is dropped, and the one key column
is renamed. -/
def sparingAlters : List Alter :=
  [.add (sampleColumn "c" false) none "", .drop "w", .modify "id" (sampleColumn "key" true) none ""]

theorem logical_key_iff_sample :
    Along (KeyRun.step sampleEnv) (KeyRun.Succeeds sampleEnv) (KeyRun.start sampleDuck sampleTable)
        sparingAlters ∧
      ∀ bs, bs <+: sparingAlters →
        (run (KeyRun.step sampleEnv) (KeyRun.start sampleDuck sampleTable) bs).Kept := by
  have hok : Along (KeyRun.step sampleEnv) (KeyRun.Succeeds sampleEnv)
      (KeyRun.start sampleDuck sampleTable) sparingAlters :=
    ⟨KeyRun.succeeds_of_ok rfl rfl (by decide) (by decide),
      KeyRun.succeeds_of_ok rfl rfl (by decide) (by decide),
      KeyRun.succeeds_of_ok rfl rfl (by decide) (by decide), trivial⟩
  refine ⟨hok, (logical_key_iff sampleEnv rfl sampleDuck rfl (by decide) sampleTable load_sampleDuck
    sparingAlters hok).mpr ?_⟩
  exact ⟨KeyRun.spares_of_state rfl (by decide), KeyRun.spares_of_state rfl (by decide),
    KeyRun.spares_of_state rfl (by decide), trivial⟩

/-- Four columns; the key is the second and the third. -/
def compositeDuck : DuckTable where
  columns := ["v", "k1", "k2", "w"].map (intColumn · true)
  comment := ⟨"", { pkOrdinals := [1, 2], replicated := true }⟩

def compositeTable : Table where
  comment := ⟨"", { pkOrdinals := [1, 2], replicated := true }⟩
  schema := ⟨[sampleColumn "v" false, { sampleColumn "k1" true with nullable := true },
    { sampleColumn "k2" true with nullable := true }, sampleColumn "w" false], [1, 2]⟩
  hasPrimaryKey := false

/-- Dropping the first column moves the key to the columns behind it;
changing the first key column makes it the whole key, in memory only; and
dropping the two other columns leaves ordinals out of range. -/
theorem key_ordinals_not_renumbered :
    load sampleEnv compositeDuck = .ok compositeTable ∧
      (∀ a ∈ [Alter.drop "v", .modify "k1" (sampleColumn "k1" true) none ""],
        (KeyRun.start compositeDuck compositeTable).Succeeds sampleEnv a) ∧
      (run (KeyRun.step sampleEnv) (KeyRun.start compositeDuck compositeTable)
        [.drop "v"]).state.map (fun s => s.table.schema.keyColumns)
          = some [some (fold "k2"), some (fold "w")] ∧
      (run (KeyRun.step sampleEnv) (KeyRun.start compositeDuck compositeTable)
        [.modify "k1" (sampleColumn "k1" true) none ""]).state.map
          (fun s => (s.table.schema.keyColumns, s.duck.comment.metadata.pkOrdinals))
          = some ([some (fold "k1")], [1, 2]) ∧
      Along (KeyRun.step sampleEnv) (KeyRun.Succeeds sampleEnv)
        (KeyRun.start compositeDuck compositeTable) [.drop "w", .drop "v"] ∧
      (run (KeyRun.step sampleEnv) (KeyRun.start compositeDuck compositeTable)
        [.drop "w", .drop "v"]).state = none := by
  refine ⟨rfl, ?_, rfl, rfl, ⟨KeyRun.succeeds_of_ok rfl rfl (by decide) (by decide), ?_, trivial⟩,
    rfl⟩
  · simp only [List.forall_mem_cons, List.not_mem_nil, false_imp_iff, implies_true, and_true]
    exact ⟨KeyRun.succeeds_of_ok rfl rfl (by decide) (by decide),
      KeyRun.succeeds_of_ok rfl rfl (by decide) (by decide)⟩
  · intro s hs
    obtain rfl := Option.some.inj hs
    exact ⟨nofun, by decide, by decide⟩

end MyDuck.Catalog
