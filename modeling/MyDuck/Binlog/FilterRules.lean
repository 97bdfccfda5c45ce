/-
MyDuck.Binlog.FilterRules — the rules of the replication filters, and
what a CHANGE REPLICATION FILTER that fails leaves behind
(`binlog_replica_filtering.go`, `binlog_replica_controller.go`).

`FilterMaps` is the filter configuration as the source keeps it, with the
tables in a map of maps; `Represents` connects it with the sets of
MyDuck.Binlog.Filters. `Configured` is what was asked for: the names of
the last call of each kind. `filter_rules_iff` compares the answer for a
table with the rules for these names. They differ for a database without a
table to replicate: the outer map does not know it, and its tables are let
through. `filter_options_iff` says when a statement that fails has changed
nothing: the options in front of the one that is refused stay applied, and
so they have to repeat the names that were in force.
-/
import MyDuck.Binlog.Filters

namespace MyDuck.Binlog

/-! ## The maps -/

/-- `map[string]map[string]struct{}`. -/
abbrev TableFilter := Finmap fun _ : FilterName => Finset FilterName

abbrev FilterMaps := Filters TableFilter

section Maps

variable (toLower : String → FilterName)

/-- A table goes into the map of its database, which is made for its first
table. -/
def TableFilter.add (m : TableFilter) (urt : UnresolvedTable) : TableFilter :=
  let table := toLower urt.name
  let db := toLower urt.database
  m.insert db (insert table ((m.lookup db).getD ∅))

def tableFilter (urts : List UnresolvedTable) : TableFilter :=
  urts.foldl (TableFilter.add toLower) ∅

/-- The map knows the database, and does not have the table. -/
def TableFilter.leavesOut (m : TableFilter) (db table : FilterName) : Bool :=
  if m.keys.Nonempty then
    match m.lookup db with
    | some tables => decide (table ∉ tables)
    | none => false
  else false

def TableFilter.has (m : TableFilter) (db table : FilterName) : Bool :=
  if m.keys.Nonempty then
    match m.lookup db with
    | some tables => decide (table ∈ tables)
    | none => false
  else false

/-- Whether the row events of a table are skipped. -/
def FilterMaps.isTableFilteredOut (fc : FilterMaps) (tableMap : UnresolvedTable) : Bool :=
  let table := toLower tableMap.name
  let db := toLower tableMap.database
  let byDatabase :=
    if fc.doDatabases.Nonempty then decide (db ∉ fc.doDatabases)
    else if fc.ignoreDatabases.Nonempty then decide (db ∈ fc.ignoreDatabases)
    else false
  byDatabase || fc.doTables.leavesOut db table || fc.ignoreTables.has db table

/-! ## What a map lists -/

variable {toLower}

/-- The map lists a table of a database. -/
def TableFilter.Lists (m : TableFilter) (db table : FilterName) : Prop :=
  ∃ tables, m.lookup db = some tables ∧ table ∈ tables

theorem tableFilter_append (urts : List UnresolvedTable) (urt : UnresolvedTable) :
    tableFilter toLower (urts ++ [urt]) = (tableFilter toLower urts).add toLower urt := by
  simp [tableFilter]

theorem lookup_tableFilter_isSome (urts : List UnresolvedTable) (db : FilterName) :
    ((tableFilter toLower urts).lookup db).isSome = true ↔
      ∃ urt ∈ urts, toLower urt.database = db := by
  induction urts using List.reverseRecOn with
  | nil => simp [tableFilter]
  | append_singleton urts urt ih =>
    rw [tableFilter_append, TableFilter.add]
    by_cases hdb : db = toLower urt.database
    · subst hdb
      rw [Finmap.lookup_insert]
      simp
    · rw [Finmap.lookup_insert_of_ne _ hdb, ih]
      have hne : ¬ toLower urt.database = db := fun h => hdb h.symm
      simp [hne, or_and_right, exists_or]

theorem lists_tableFilter (urts : List UnresolvedTable) (db table : FilterName) :
    (tableFilter toLower urts).Lists db table ↔
      ∃ urt ∈ urts, toLower urt.database = db ∧ toLower urt.name = table := by
  induction urts using List.reverseRecOn with
  | nil => simp [tableFilter, TableFilter.Lists]
  | append_singleton urts urt ih =>
    rw [tableFilter_append, TableFilter.Lists, TableFilter.add]
    rw [TableFilter.Lists] at ih
    by_cases hdb : db = toLower urt.database
    · subst hdb
      have hold : table ∈ ((tableFilter toLower urts).lookup (toLower urt.database)).getD ∅ ↔
          ∃ u ∈ urts, toLower u.database = toLower urt.database ∧ toLower u.name = table := by
        rw [← ih]
        cases (tableFilter toLower urts).lookup (toLower urt.database) <;> simp
      simp only [Finmap.lookup_insert, Option.some.injEq, exists_eq_left', Finset.mem_insert, hold]
      constructor
      · rintro (rfl | ⟨u, hu, hkey⟩)
        · exact ⟨urt, by simp, rfl, rfl⟩
        · exact ⟨u, by simp [hu], hkey⟩
      · rintro ⟨u, hu, hkey⟩
        rcases List.mem_append.mp hu with hu | hu
        · exact .inr ⟨u, hu, hkey⟩
        · obtain rfl := List.mem_singleton.mp hu
          exact .inl hkey.2.symm
    · rw [Finmap.lookup_insert_of_ne _ hdb, ih]
      have hne : ¬ toLower urt.database = db := fun h => hdb h.symm
      simp [hne, or_and_right, exists_or]

/-- A map is empty only if it has no database. -/
theorem keys_nonempty_of_lookup {m : TableFilter} {db : FilterName}
    (h : (m.lookup db).isSome = true) : m.keys.Nonempty :=
  ⟨db, Finmap.mem_keys.mpr (Finmap.lookup_isSome.mp h)⟩

theorem TableFilter.leavesOut_eq_false (m : TableFilter) (db table : FilterName) :
    m.leavesOut db table = false ↔ ((m.lookup db).isSome = true → m.Lists db table) := by
  rw [TableFilter.leavesOut, TableFilter.Lists]
  cases hlookup : m.lookup db with
  | none => simp
  | some tables =>
    have hne : m.keys.Nonempty := keys_nonempty_of_lookup (by rw [hlookup]; rfl)
    simp [hne]

theorem TableFilter.has_eq_false (m : TableFilter) (db table : FilterName) :
    m.has db table = false ↔ ¬ m.Lists db table := by
  rw [TableFilter.has, TableFilter.Lists]
  cases hlookup : m.lookup db with
  | none => simp
  | some tables =>
    have hne : m.keys.Nonempty := keys_nonempty_of_lookup (by rw [hlookup]; rfl)
    simp [hne]

/-- **What the answer for a table says**, without the tests for empty
maps. -/
theorem FilterMaps.isTableFilteredOut_eq_false (fc : FilterMaps) (t : UnresolvedTable) :
    FilterMaps.isTableFilteredOut toLower fc t = false ↔
      (fc.doDatabases.Nonempty → toLower t.database ∈ fc.doDatabases) ∧
      (¬ fc.doDatabases.Nonempty → toLower t.database ∉ fc.ignoreDatabases) ∧
      ((fc.doTables.lookup (toLower t.database)).isSome = true →
        fc.doTables.Lists (toLower t.database) (toLower t.name)) ∧
      ¬ fc.ignoreTables.Lists (toLower t.database) (toLower t.name) := by
  rw [FilterMaps.isTableFilteredOut, Bool.or_eq_false_iff, Bool.or_eq_false_iff,
    TableFilter.leavesOut_eq_false, TableFilter.has_eq_false]
  by_cases hdb : fc.doDatabases.Nonempty
  · simp [hdb, and_assoc]
  · by_cases hignored : fc.ignoreDatabases.Nonempty
    · simp [hdb, hignored, and_assoc]
    · rw [Finset.not_nonempty_iff_eq_empty] at hignored
      simp [hdb, hignored]

end Maps

/-! ## The rules -/

def FilterMaps.call (toLower : String → FilterName) (fc : FilterMaps) (k : FilterCall) :
    FilterMaps :=
  Filters.call toLower (tableFilter toLower) fc k

/-- The names of the last calls. -/
structure Configured where
  doDatabases : List String := []
  ignoreDatabases : List String := []
  doTables : List UnresolvedTable := []
  ignoreTables : List UnresolvedTable := []
  deriving DecidableEq, Repr

/-- A list with a table that is not qualified is refused. -/
def Configured.call (c : Configured) : FilterCall → Configured
  | .setDoDatabases databases => { c with doDatabases := databases }
  | .setIgnoreDatabases databases => { c with ignoreDatabases := databases }
  | .setDoTables urts => if Qualified urts then { c with doTables := urts } else c
  | .setIgnoreTables urts => if Qualified urts then { c with ignoreTables := urts } else c

section Rules

variable (toLower : String → FilterName)

/-- Equal without regard to case. -/
def SameName (a b : String) : Prop := toLower a = toLower b

def SameTable (a b : UnresolvedTable) : Prop :=
  SameName toLower a.database b.database ∧ SameName toLower a.name b.name

namespace Configured

variable (c : Configured) (t : UnresolvedTable)

/-- The rules for databases let the table through. -/
def PassesDatabases : Prop :=
  (c.doDatabases ≠ [] → ∃ db ∈ c.doDatabases, SameName toLower db t.database) ∧
    (c.doDatabases = [] → ∀ db ∈ c.ignoreDatabases, ¬ SameName toLower db t.database)

def PassesDoTables : Prop := c.doTables ≠ [] → ∃ u ∈ c.doTables, SameTable toLower u t

def PassesIgnoreTables : Prop := ∀ u ∈ c.ignoreTables, ¬ SameTable toLower u t

/-- The table is to be replicated. -/
def Replicates : Prop :=
  c.PassesDatabases toLower t ∧ c.PassesDoTables toLower t ∧ c.PassesIgnoreTables toLower t

/-- Tables to replicate are configured, none of them in the database of the
table. -/
def OtherDatabasesOnly : Prop :=
  c.doTables ≠ [] ∧ ∀ u ∈ c.doTables, ¬ SameName toLower u.database t.database

end Configured

variable {toLower}

/-- The maps hold the names of the last calls. -/
structure FiltersHold (toLower : String → FilterName) (c : Configured) (fc : FilterMaps) :
    Prop where
  doDatabases : fc.doDatabases = databaseSet toLower c.doDatabases
  ignoreDatabases : fc.ignoreDatabases = databaseSet toLower c.ignoreDatabases
  doTables : fc.doTables = tableFilter toLower c.doTables
  ignoreTables : fc.ignoreTables = tableFilter toLower c.ignoreTables

/-- **One call** keeps the maps and the names together. -/
theorem FiltersHold.call {c : Configured} {fc : FilterMaps} (h : FiltersHold toLower c fc)
    (k : FilterCall) :
    FiltersHold toLower (c.call k) (FilterMaps.call toLower fc k) := by
  cases k with
  | setDoDatabases databases => exact ⟨rfl, h.ignoreDatabases, h.doTables, h.ignoreTables⟩
  | setIgnoreDatabases databases => exact ⟨h.doDatabases, rfl, h.doTables, h.ignoreTables⟩
  | setDoTables urts =>
    rcases verify_cases urts with ⟨hq, hok⟩ | ⟨hq, e, herror⟩
    · simp only [Configured.call, if_pos hq, FilterMaps.call, Filters.call, Filters.set,
        Filters.setDoTables, hok]
      exact ⟨h.doDatabases, h.ignoreDatabases, rfl, h.ignoreTables⟩
    · simp only [Configured.call, if_neg hq, FilterMaps.call, Filters.call, Filters.set,
        Filters.setDoTables, herror]
      exact h
  | setIgnoreTables urts =>
    rcases verify_cases urts with ⟨hq, hok⟩ | ⟨hq, e, herror⟩
    · simp only [Configured.call, if_pos hq, FilterMaps.call, Filters.call, Filters.set,
        Filters.setIgnoreTables, hok]
      exact ⟨h.doDatabases, h.ignoreDatabases, h.doTables, rfl⟩
    · simp only [Configured.call, if_neg hq, FilterMaps.call, Filters.call, Filters.set,
        Filters.setIgnoreTables, herror]
      exact h

/-- **A sequence of calls** does. -/
theorem filtersHold_run (calls : List FilterCall) :
    FiltersHold toLower (run Configured.call {} calls)
      (run (FilterMaps.call toLower) .new calls) := by
  induction calls using List.reverseRecOn with
  | nil => exact ⟨rfl, rfl, rfl, rfl⟩
  | append_singleton calls k ih =>
    rw [run_append, run_append]
    exact ih.call k

theorem databaseSet_nonempty (databases : List String) :
    (databaseSet toLower databases).Nonempty ↔ databases ≠ [] := by
  rw [databaseSet, List.toFinset_nonempty_iff]
  simp

/-- What is let through: the rules, but a list of tables to replicate says
nothing about the databases it does not name. -/
theorem FiltersHold.isTableFilteredOut_eq_false {c : Configured} {fc : FilterMaps}
    (h : FiltersHold toLower c fc) (t : UnresolvedTable) :
    FilterMaps.isTableFilteredOut toLower fc t = false ↔
      c.PassesDatabases toLower t ∧
        (c.OtherDatabasesOnly toLower t ∨ c.PassesDoTables toLower t) ∧
          c.PassesIgnoreTables toLower t := by
  have hdatabase : ∀ databases : List String,
      toLower t.database ∈ databaseSet toLower databases ↔
        ∃ db ∈ databases, SameName toLower db t.database := by
    intro databases
    simp [databaseSet, SameName]
  have hlists : ∀ urts : List UnresolvedTable,
      (tableFilter toLower urts).Lists (toLower t.database) (toLower t.name) ↔
        ∃ u ∈ urts, SameTable toLower u t := fun urts => lists_tableFilter urts _ _
  have hknown : ((tableFilter toLower c.doTables).lookup (toLower t.database)).isSome = true ↔
      ∃ u ∈ c.doTables, SameName toLower u.database t.database :=
    lookup_tableFilter_isSome c.doTables _
  rw [FilterMaps.isTableFilteredOut_eq_false, h.doDatabases, h.ignoreDatabases, h.doTables,
    h.ignoreTables, hlists, hlists, hknown, hdatabase, hdatabase, databaseSet_nonempty]
  have htables : ((∃ u ∈ c.doTables, SameName toLower u.database t.database) →
      ∃ u ∈ c.doTables, SameTable toLower u t) ↔
      c.OtherDatabasesOnly toLower t ∨ c.PassesDoTables toLower t := by
    rw [Configured.OtherDatabasesOnly, Configured.PassesDoTables]
    constructor
    · intro himp
      by_cases hsome : ∃ u ∈ c.doTables, SameName toLower u.database t.database
      · exact .inr fun _ => himp hsome
      · by_cases hnil : c.doTables = []
        · exact .inr fun hne => absurd hnil hne
        · exact .inl ⟨hnil, by simpa using hsome⟩
    · rintro (⟨-, hno⟩ | hpass) ⟨u, hu, hsame⟩
      · exact absurd hsame (hno u hu)
      · exact hpass (List.ne_nil_of_mem hu)
  rw [htables, Configured.PassesDatabases, Configured.PassesIgnoreTables]
  simp only [Decidable.not_not, not_exists, not_and, and_assoc, ne_eq]

end Rules

/-- **The filter rules.** After any sequence of calls the answer for a
table is that of the rules, exactly when tables to replicate are not
configured for other databases only, or another rule filters the table out
anyway. -/
theorem filter_rules_iff (toLower : String → FilterName) (calls : List FilterCall)
    (t : UnresolvedTable) :
    (FilterMaps.isTableFilteredOut toLower (run (FilterMaps.call toLower) .new calls) t = false ↔
        (run Configured.call {} calls).Replicates toLower t) ↔
      ¬ ((run Configured.call {} calls).OtherDatabasesOnly toLower t ∧
        (run Configured.call {} calls).PassesDatabases toLower t ∧
        (run Configured.call {} calls).PassesIgnoreTables toLower t) := by
  rw [(filtersHold_run calls).isTableFilteredOut_eq_false t, Configured.Replicates]
  generalize run Configured.call {} calls = c
  have hnot : c.OtherDatabasesOnly toLower t → ¬ c.PassesDoTables toLower t := by
    rintro ⟨hne, hno⟩ hpass
    obtain ⟨u, hu, hsame⟩ := hpass hne
    exact hno u hu hsame.1
  tauto

/-- A table to replicate of database `a` lets database `b` through. -/
theorem other_database_replicated :
    FilterMaps.isTableFilteredOut Folding.ascii.lower
        (run (FilterMaps.call Folding.ascii.lower) .new [.setDoTables [⟨"a", "t"⟩]])
        ⟨"b", "t"⟩ = false ∧
      ¬ (run Configured.call {} [.setDoTables [⟨"a", "t"⟩]]).Replicates Folding.ascii.lower
        ⟨"b", "t"⟩ := by
  have hconfigured : run Configured.call {} [.setDoTables [⟨"a", "t"⟩]]
      = { doTables := [⟨"a", "t"⟩] } := by decide
  refine ⟨by decide, fun h => ?_⟩
  rw [hconfigured] at h
  obtain ⟨u, hu, hsame⟩ := h.2.1 (by simp)
  obtain rfl : u = ⟨"a", "t"⟩ := by simpa using hu
  exact absurd hsame.1 (by unfold SameName; decide)

/-! ## CHANGE REPLICATION FILTER -/

/-- `SetReplicationFilterOptions` on the maps. -/
def FilterMaps.setReplicationFilterOptions (f : Folding) (fc : FilterMaps)
    (options : List ReplicationOption) : FilterMaps × Option FilterError :=
  Filters.setOptions (tableFilter f.lower) f fc options

/-- **All or nothing.** A CHANGE REPLICATION FILTER that fails leaves the
filters as they were, exactly when the options in front of the first one
that is refused, the last one of each kind, repeat the names in force. The
answers for all tables are then as they were. -/
theorem filter_options_iff (f : Folding) (fc : FilterMaps) (options : List ReplicationOption) :
    let after := FilterMaps.setReplicationFilterOptions f fc options
    let repeats := (∀ o ∈ options, o.Accepted f.upper) ∨
      fc.Repeats f.lower (tableFilter f.lower) (acceptedCalls f.upper options)
    ((after.2 ≠ none → after.1 = fc) ↔ repeats) ∧
      (repeats → after.2 ≠ none → ∀ t, FilterMaps.isTableFilteredOut f.lower after.1 t
        = FilterMaps.isTableFilteredOut f.lower fc t) := by
  intro after repeats
  have hiff : (after.2 ≠ none → after.1 = fc) ↔ repeats := by
    have hsnd : after.2 = none ↔ ∀ o ∈ options, o.Accepted f.upper :=
      (Filters.setOptions_spec f fc options).2
    have hfst : after.1 = fc ↔
        fc.Repeats f.lower (tableFilter f.lower) (acceptedCalls f.upper options) :=
      Filters.setOptions_eq_self_iff
    rw [Ne, hsnd, hfst]
    exact or_iff_not_imp_left.symm
  refine ⟨hiff, fun hrepeats hfails t => ?_⟩
  rw [hiff.mpr hrepeats hfails]

/-- One database to replicate, then an option that does not exist: the
statement fails, and the tables of the other databases are filtered out. -/
theorem failed_options_applied :
    let after := FilterMaps.setReplicationFilterOptions .ascii .new
      [⟨"REPLICATE_DO_DB", .tableNames [⟨"", "a"⟩]⟩, ⟨"REPLICATE_ONLY", .string "a"⟩]
    after.2 = some (.unsupportedOption "REPLICATE_ONLY") ∧
      FilterMaps.isTableFilteredOut Folding.ascii.lower .new ⟨"b", "t"⟩ = false ∧
      FilterMaps.isTableFilteredOut Folding.ascii.lower after.1 ⟨"b", "t"⟩ = true := by
  decide

/-! ## The maps and the sets -/

/-- The map of maps has the pairs of the set. -/
structure TableFilter.Keeps (m : TableFilter) (s : Finset (FilterName × FilterName)) : Prop where
  known : ∀ db, (m.lookup db).isSome = true ↔ ∃ k ∈ s, k.1 = db
  lists : ∀ db table, m.Lists db table ↔ (db, table) ∈ s

theorem keeps_tableFilter (toLower : String → FilterName) (urts : List UnresolvedTable) :
    (tableFilter toLower urts).Keeps (tableSet toLower urts) where
  known db := by
    rw [lookup_tableFilter_isSome]
    simp [tableSet, UnresolvedTable.key]
  lists db table := by
    rw [lists_tableFilter]
    simp [tableSet, UnresolvedTable.key]

/-- The filters as the source keeps them, and as the sets of the controller
model. -/
structure FilterMaps.Represents (fc : FilterMaps) (c : FilterConfiguration) : Prop where
  doDatabases : fc.doDatabases = c.doDatabases
  ignoreDatabases : fc.ignoreDatabases = c.ignoreDatabases
  doTables : fc.doTables.Keeps c.doTables
  ignoreTables : fc.ignoreTables.Keeps c.ignoreTables

namespace FilterMaps.Represents

variable {toLower : String → FilterName} {fc : FilterMaps} {c : FilterConfiguration}

/-- Both give the same answer for a table. -/
theorem isTableFilteredOut_eq (h : FilterMaps.Represents fc c) (t : UnresolvedTable) :
    FilterMaps.isTableFilteredOut toLower fc t
      = FilterConfiguration.isTableFilteredOut toLower c t := by
  rw [← Bool.not_inj_iff, Bool.eq_iff_iff, Bool.not_eq_true', Bool.not_eq_true',
    FilterMaps.isTableFilteredOut_eq_false, FilterConfiguration.isTableFilteredOut,
    Bool.or_eq_false_iff, Bool.or_eq_false_iff, decide_eq_false_iff_not, decide_eq_false_iff_not,
    h.doDatabases, h.ignoreDatabases, h.doTables.known, h.doTables.lists, h.ignoreTables.lists]
  by_cases hdb : c.doDatabases.Nonempty <;>
    simp [hdb, UnresolvedTable.key, and_assoc]

/-- **One call** fails on both with the same error, or keeps them
together. -/
theorem set (toLower : String → FilterName) (h : FilterMaps.Represents fc c) (k : FilterCall) :
    (∃ e, Filters.set toLower (tableFilter toLower) fc k = .error e ∧
        Filters.set toLower (tableSet toLower) c k = .error e) ∨
      ∃ fc' c', Filters.set toLower (tableFilter toLower) fc k = .ok fc' ∧
        Filters.set toLower (tableSet toLower) c k = .ok c' ∧ FilterMaps.Represents fc' c' := by
  cases k with
  | setDoDatabases databases =>
    exact .inr ⟨_, _, rfl, rfl, rfl, h.ignoreDatabases, h.doTables, h.ignoreTables⟩
  | setIgnoreDatabases databases =>
    exact .inr ⟨_, _, rfl, rfl, h.doDatabases, rfl, h.doTables, h.ignoreTables⟩
  | setDoTables urts =>
    simp only [Filters.set, Filters.setDoTables]
    cases verifyAllTablesAreQualified urts with
    | error e => exact .inl ⟨e, rfl, rfl⟩
    | ok u =>
      exact .inr ⟨_, _, rfl, rfl, h.doDatabases, h.ignoreDatabases,
        keeps_tableFilter toLower urts, h.ignoreTables⟩
  | setIgnoreTables urts =>
    simp only [Filters.set, Filters.setIgnoreTables]
    cases verifyAllTablesAreQualified urts with
    | error e => exact .inl ⟨e, rfl, rfl⟩
    | ok u =>
      exact .inr ⟨_, _, rfl, rfl, h.doDatabases, h.ignoreDatabases, h.doTables,
        keeps_tableFilter toLower urts⟩

/-- **CHANGE REPLICATION FILTER** on the maps is that on the sets. -/
theorem setOptions (f : Folding) (h : FilterMaps.Represents fc c) (os : List ReplicationOption) :
    FilterMaps.Represents (FilterMaps.setReplicationFilterOptions f fc os).1
        (c.setOptions (tableSet f.lower) f os).1 ∧
      (FilterMaps.setReplicationFilterOptions f fc os).2
        = (c.setOptions (tableSet f.lower) f os).2 := by
  unfold FilterMaps.setReplicationFilterOptions
  induction os generalizing fc c with
  | nil => exact ⟨h, rfl⟩
  | cons o os ih =>
    rw [Filters.setOptions, Filters.setOptions]
    cases o.toCall f.upper with
    | error e => exact ⟨h, rfl⟩
    | ok k =>
      simp only [bind, Except.bind]
      rcases h.set f.lower k with ⟨e, hfc, hc⟩ | ⟨fc', c', hfc, hc, h'⟩
      · rw [hfc, hc]
        exact ⟨h, rfl⟩
      · rw [hfc, hc]
        exact ih h'

end FilterMaps.Represents

/-- **The maps filter as the sets do**, however names are folded. After any
statements, accepted or not, they let the same tables through, and refuse
the next statement with the same error. -/
theorem filter_maps_refine_sets (f : Folding) (stmts : List (List ReplicationOption)) :
    let fc : FilterMaps :=
      run (fun fc os => (FilterMaps.setReplicationFilterOptions f fc os).1) .new stmts
    let c : FilterConfiguration :=
      run (fun c os => (c.setOptions (tableSet f.lower) f os).1) .new stmts
    (∀ t, FilterMaps.isTableFilteredOut f.lower fc t
        = FilterConfiguration.isTableFilteredOut f.lower c t) ∧
      ∀ os, (FilterMaps.setReplicationFilterOptions f fc os).2
        = (c.setOptions (tableSet f.lower) f os).2 := by
  have hempty : FilterMaps.Represents .new .new :=
    ⟨rfl, rfl, keeps_tableFilter f.lower [], keeps_tableFilter f.lower []⟩
  have hrun : ∀ {fc : FilterMaps} {c : FilterConfiguration}, FilterMaps.Represents fc c →
      FilterMaps.Represents
        (run (fun fc os => (FilterMaps.setReplicationFilterOptions f fc os).1) fc stmts)
        (run (fun c os => (c.setOptions (tableSet f.lower) f os).1) c stmts) := by
    induction stmts with
    | nil => exact id
    | cons os stmts ih => exact fun h => ih (h.setOptions f os).1
  exact ⟨(hrun hempty).isTableFilteredOut_eq, fun os => ((hrun hempty).setOptions f os).2⟩

end MyDuck.Binlog
