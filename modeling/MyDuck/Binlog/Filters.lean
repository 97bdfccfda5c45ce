/-
MyDuck.Binlog.Filters — replication filters, and which ones the applier
consults (`binlog_replica_filtering.go`, `binlog_replica_controller.go`).

`Filters` has the four lists of a filter configuration; how a list of
tables is kept is a parameter, and so is how names are folded. An option of
a CHANGE REPLICATION FILTER stands for a call of one of the setters. What a
statement leaves are the filters with the last accepted option of each kind
in their place (`setOptions_eq_self_iff` says when these are the ones there
were).

The controller and its applier share the filters through a pointer that
is copied once, when the controller is made. The model keeps the filter
configurations that were ever allocated in a heap, and the two pointers
as positions in it.

`Watched` puts the filters that were configured next to the controller:
the last ones set since the last RESET REPLICA ALL, none if there are
none. `filters_in_force_iff` says for which histories the applier
consults these in every state.
-/
import MyDuck.Base.Run

namespace MyDuck.Binlog

/-! ## Options -/

/-- A name as the filters keep it. -/
abbrev FilterName := List Char

/-- `strings.ToLower` and `strings.ToUpper`. -/
structure Folding where
  lower : String → FilterName
  upper : String → FilterName

/-- What they do to ASCII text. -/
def Folding.ascii : Folding where
  lower name := name.toList.map Char.toLower
  upper name := name.toList.map Char.toUpper

structure UnresolvedTable where
  database : String
  name : String
  deriving DecidableEq, Repr

inductive OptionValue where
  | tableNames (urts : List UnresolvedTable)
  | string (s : String)
  | integer (n : Int)
  deriving DecidableEq, Repr

structure ReplicationOption where
  name : String
  value : OptionValue
  deriving DecidableEq, Repr

inductive FilterError where
  | expectedDatabases (option : String)
  | expectedTables (option : String)
  | notQualified (table : String)
  | unsupportedOption (option : String)
  deriving DecidableEq, Repr

/-- `getOptionValueAsDatabaseNames`: a list of databases is parsed as a list
of tables. -/
def getOptionValueAsDatabaseNames (o : ReplicationOption) : Except FilterError (List String) :=
  match o.value with
  | .tableNames urts => .ok (urts.map UnresolvedTable.name)
  | _ => .error (.expectedDatabases o.name)

def getOptionValueAsTableNames (o : ReplicationOption) :
    Except FilterError (List UnresolvedTable) :=
  match o.value with
  | .tableNames urts => .ok urts
  | _ => .error (.expectedTables o.name)

def verifyAllTablesAreQualified : List UnresolvedTable → Except FilterError Unit
  | [] => .ok ()
  | urt :: urts =>
    if urt.database = "" then .error (.notQualified urt.name) else verifyAllTablesAreQualified urts

def Qualified (urts : List UnresolvedTable) : Prop := ∀ urt ∈ urts, urt.database ≠ ""

instance (urts : List UnresolvedTable) : Decidable (Qualified urts) :=
  inferInstanceAs (Decidable (∀ urt ∈ urts, _))

theorem verify_cases (urts : List UnresolvedTable) :
    (Qualified urts ∧ verifyAllTablesAreQualified urts = .ok ()) ∨
      (¬ Qualified urts ∧ ∃ e, verifyAllTablesAreQualified urts = .error e) := by
  induction urts with
  | nil => exact .inl ⟨by simp [Qualified], rfl⟩
  | cons urt urts ih =>
    rw [verifyAllTablesAreQualified, Qualified, List.forall_mem_cons]
    by_cases h : urt.database = ""
    · exact .inr ⟨fun hq => hq.1 h, _, if_pos h⟩
    · rw [if_neg h]
      exact ih.imp (fun hok => ⟨⟨h, hok.1⟩, hok.2⟩) fun hno => ⟨fun hq => hno.1 hq.2, hno.2⟩

inductive FilterCall where
  | setDoDatabases (databases : List String)
  | setIgnoreDatabases (databases : List String)
  | setDoTables (urts : List UnresolvedTable)
  | setIgnoreTables (urts : List UnresolvedTable)
  deriving DecidableEq, Repr

/-- The call that an option stands for: the switch of
`SetReplicationFilterOptions`. -/
def ReplicationOption.toCall (toUpper : String → FilterName) (o : ReplicationOption) :
    Except FilterError FilterCall :=
  if toUpper o.name = "REPLICATE_DO_DB".toList then
    (getOptionValueAsDatabaseNames o).map .setDoDatabases
  else if toUpper o.name = "REPLICATE_IGNORE_DB".toList then
    (getOptionValueAsDatabaseNames o).map .setIgnoreDatabases
  else if toUpper o.name = "REPLICATE_DO_TABLE".toList then
    (getOptionValueAsTableNames o).map .setDoTables
  else if toUpper o.name = "REPLICATE_IGNORE_TABLE".toList then
    (getOptionValueAsTableNames o).map .setIgnoreTables
  else .error (.unsupportedOption o.name)

/-! ## The filters -/

/-- `filterConfiguration`. -/
@[ext]
structure Filters (T : Type) where
  doDatabases : Finset FilterName
  ignoreDatabases : Finset FilterName
  doTables : T
  ignoreTables : T
  deriving DecidableEq

def Filters.new {T : Type} [EmptyCollection T] : Filters T := ⟨∅, ∅, ∅, ∅⟩

def databaseSet (toLower : String → FilterName) (names : List String) : Finset FilterName :=
  (names.map toLower).toFinset

namespace Filters

variable {T : Type} (toLower : String → FilterName) (tables : List UnresolvedTable → T)

def setDoDatabases (databases : List String) (fc : Filters T) : Filters T :=
  { fc with doDatabases := databaseSet toLower databases }

def setIgnoreDatabases (databases : List String) (fc : Filters T) : Filters T :=
  { fc with ignoreDatabases := databaseSet toLower databases }

def setDoTables (urts : List UnresolvedTable) (fc : Filters T) : Except FilterError (Filters T) :=
  (verifyAllTablesAreQualified urts).map fun _ => { fc with doTables := tables urts }

def setIgnoreTables (urts : List UnresolvedTable) (fc : Filters T) :
    Except FilterError (Filters T) :=
  (verifyAllTablesAreQualified urts).map fun _ => { fc with ignoreTables := tables urts }

def set (fc : Filters T) : FilterCall → Except FilterError (Filters T)
  | .setDoDatabases databases => .ok (fc.setDoDatabases toLower databases)
  | .setIgnoreDatabases databases => .ok (fc.setIgnoreDatabases toLower databases)
  | .setDoTables urts => fc.setDoTables tables urts
  | .setIgnoreTables urts => fc.setIgnoreTables tables urts

/-- A call that fails changes nothing. -/
def call (fc : Filters T) (k : FilterCall) : Filters T :=
  (fc.set toLower tables k).toOption.getD fc

/-- `SetReplicationFilterOptions`: the options one after the other. What the
options in front of a failing one have set stays set. -/
def setOptions (f : Folding) (fc : Filters T) :
    List ReplicationOption → Filters T × Option FilterError
  | [] => (fc, none)
  | o :: os =>
    match o.toCall f.upper >>= fc.set f.lower tables with
    | .ok fc' => fc'.setOptions f os
    | .error e => (fc, some e)

end Filters

/-! ## What the accepted options leave -/

/-- The tables that are passed are qualified. -/
def FilterCall.Accepted : FilterCall → Prop
  | .setDoTables urts => Qualified urts
  | .setIgnoreTables urts => Qualified urts
  | _ => True

instance (k : FilterCall) : Decidable k.Accepted :=
  match k with
  | .setDoTables urts => inferInstanceAs (Decidable (Qualified urts))
  | .setIgnoreTables urts => inferInstanceAs (Decidable (Qualified urts))
  | .setDoDatabases _ => isTrue trivial
  | .setIgnoreDatabases _ => isTrue trivial

/-- The option has one of the four names and a list of tables, and these are
qualified where they are to be. -/
def ReplicationOption.Accepted (toUpper : String → FilterName) (o : ReplicationOption) : Prop :=
  ∃ k, o.toCall toUpper = .ok k ∧ k.Accepted

/-- The calls of the options in front of the first one that is refused. -/
def acceptedCalls (toUpper : String → FilterName) : List ReplicationOption → List FilterCall
  | [] => []
  | o :: os =>
    match o.toCall toUpper with
    | .ok k => if k.Accepted then k :: acceptedCalls toUpper os else []
    | .error _ => []

def FilterCall.doDatabases? : FilterCall → Option (List String)
  | .setDoDatabases databases => some databases
  | _ => none

def FilterCall.ignoreDatabases? : FilterCall → Option (List String)
  | .setIgnoreDatabases databases => some databases
  | _ => none

def FilterCall.doTables? : FilterCall → Option (List UnresolvedTable)
  | .setDoTables urts => if Qualified urts then some urts else none
  | _ => none

def FilterCall.ignoreTables? : FilterCall → Option (List UnresolvedTable)
  | .setIgnoreTables urts => if Qualified urts then some urts else none
  | _ => none

namespace Filters

variable {T : Type} (toLower : String → FilterName) (tables : List UnresolvedTable → T)

/-- The last call of each kind repeats the names that are in force. -/
structure Repeats (calls : List FilterCall) (fc : Filters T) : Prop where
  doDatabases : ∀ databases ∈ calls.reverse.findSome? FilterCall.doDatabases?,
    databaseSet toLower databases = fc.doDatabases
  ignoreDatabases : ∀ databases ∈ calls.reverse.findSome? FilterCall.ignoreDatabases?,
    databaseSet toLower databases = fc.ignoreDatabases
  doTables : ∀ urts ∈ calls.reverse.findSome? FilterCall.doTables?, tables urts = fc.doTables
  ignoreTables : ∀ urts ∈ calls.reverse.findSome? FilterCall.ignoreTables?,
    tables urts = fc.ignoreTables

theorem set_cases (fc : Filters T) (k : FilterCall) :
    (k.Accepted ∧ fc.set toLower tables k = .ok (fc.call toLower tables k)) ∨
      (¬ k.Accepted ∧ ∃ e, fc.set toLower tables k = .error e) := by
  cases k with
  | setDoDatabases databases | setIgnoreDatabases databases => exact .inl ⟨trivial, rfl⟩
  | setDoTables urts =>
    refine (verify_cases urts).imp ?_ ?_
    · rintro ⟨hq, hok⟩
      exact ⟨hq, by simp [call, set, setDoTables, hok, Except.map, Except.toOption]⟩
    · rintro ⟨hq, e, herror⟩
      exact ⟨hq, e, by simp [set, setDoTables, herror, Except.map]⟩
  | setIgnoreTables urts =>
    refine (verify_cases urts).imp ?_ ?_
    · rintro ⟨hq, hok⟩
      exact ⟨hq, by simp [call, set, setIgnoreTables, hok, Except.map, Except.toOption]⟩
    · rintro ⟨hq, e, herror⟩
      exact ⟨hq, e, by simp [set, setIgnoreTables, herror, Except.map]⟩

variable {toLower tables}

/-- **The last call of each kind wins.** -/
theorem run_call_eq (fc : Filters T) (calls : List FilterCall) :
    run (call toLower tables) fc calls = {
      doDatabases := ((calls.reverse.findSome? FilterCall.doDatabases?).map
        (databaseSet toLower)).getD fc.doDatabases
      ignoreDatabases := ((calls.reverse.findSome? FilterCall.ignoreDatabases?).map
        (databaseSet toLower)).getD fc.ignoreDatabases
      doTables := ((calls.reverse.findSome? FilterCall.doTables?).map tables).getD fc.doTables
      ignoreTables :=
        ((calls.reverse.findSome? FilterCall.ignoreTables?).map tables).getD fc.ignoreTables } := by
  induction calls using List.reverseRecOn with
  | nil => rfl
  | append_singleton calls k ih =>
    rw [run_append, run_cons, run_nil, ih, List.reverse_append, List.reverse_singleton,
      List.singleton_append]
    simp only [List.findSome?_cons]
    cases k with
    | setDoDatabases databases => rfl
    | setIgnoreDatabases databases => rfl
    | setDoTables urts =>
      rcases verify_cases urts with ⟨hq, hok⟩ | ⟨hq, e, herror⟩
      · simp only [FilterCall.doTables?, if_pos hq, call, set, setDoTables, hok]
        rfl
      · simp only [FilterCall.doTables?, if_neg hq, call, set, setDoTables, herror]
        rfl
    | setIgnoreTables urts =>
      rcases verify_cases urts with ⟨hq, hok⟩ | ⟨hq, e, herror⟩
      · simp only [FilterCall.ignoreTables?, if_pos hq, call, set, setIgnoreTables, hok]
        rfl
      · simp only [FilterCall.ignoreTables?, if_neg hq, call, set, setIgnoreTables, herror]
        rfl

theorem getD_map_eq_iff {α β : Type} {x : Option α} {g : α → β} {y : β} :
    (x.map g).getD y = y ↔ ∀ a ∈ x, g a = y := by
  cases x <;> simp

theorem run_call_eq_self_iff {fc : Filters T} {calls : List FilterCall} :
    run (call toLower tables) fc calls = fc ↔ fc.Repeats toLower tables calls := by
  rw [run_call_eq, Filters.ext_iff, getD_map_eq_iff, getD_map_eq_iff, getD_map_eq_iff,
    getD_map_eq_iff]
  exact ⟨fun h => ⟨h.1, h.2.1, h.2.2.1, h.2.2.2⟩, fun h =>
    ⟨h.doDatabases, h.ignoreDatabases, h.doTables, h.ignoreTables⟩⟩

/-- **A statement** applies the options in front of the first one that is
refused, and fails if there is such a one. -/
theorem setOptions_spec (f : Folding) (fc : Filters T) (os : List ReplicationOption) :
    (fc.setOptions tables f os).1 = run (call f.lower tables) fc (acceptedCalls f.upper os) ∧
      ((fc.setOptions tables f os).2 = none ↔ ∀ o ∈ os, o.Accepted f.upper) := by
  induction os generalizing fc with
  | nil => exact ⟨rfl, by simp [setOptions]⟩
  | cons o os ih =>
    rw [setOptions, acceptedCalls, List.forall_mem_cons, ReplicationOption.Accepted]
    cases o.toCall f.upper with
    | error e => simp [bind, Except.bind]
    | ok k =>
      rw [show (Except.ok k >>= fc.set f.lower tables) = fc.set f.lower tables k from rfl]
      rcases fc.set_cases f.lower tables k with ⟨hq, hok⟩ | ⟨hq, e, herror⟩
      · rw [hok]
        dsimp only
        rw [if_pos hq]
        refine ⟨(ih _).1, (ih _).2.trans ?_⟩
        simp [hq]
      · rw [herror]
        simp [hq]

theorem setOptions_eq_self_iff {f : Folding} {fc : Filters T} {os : List ReplicationOption} :
    (fc.setOptions tables f os).1 = fc ↔
      fc.Repeats f.lower tables (acceptedCalls f.upper os) := by
  rw [(setOptions_spec f fc os).1, run_call_eq_self_iff]

end Filters

/-! ## The filters as sets -/

/-- Tables are kept with their databases. -/
abbrev FilterConfiguration := Filters (Finset (FilterName × FilterName))

def UnresolvedTable.key (toLower : String → FilterName) (urt : UnresolvedTable) :
    FilterName × FilterName :=
  (toLower urt.database, toLower urt.name)

def tableSet (toLower : String → FilterName) (urts : List UnresolvedTable) :
    Finset (FilterName × FilterName) :=
  (urts.map (UnresolvedTable.key toLower)).toFinset

/-- Whether the row events of a table are skipped. A list of tables to
replicate says nothing about databases it does not name. -/
def FilterConfiguration.isTableFilteredOut (toLower : String → FilterName)
    (fc : FilterConfiguration) (t : UnresolvedTable) : Bool :=
  let db := toLower t.database
  let byDatabase :=
    if fc.doDatabases.Nonempty then decide (db ∉ fc.doDatabases)
    else decide (db ∈ fc.ignoreDatabases)
  let notListed := decide ((∃ k ∈ fc.doTables, k.1 = db) ∧ t.key toLower ∉ fc.doTables)
  byDatabase || notListed || decide (t.key toLower ∈ fc.ignoreTables)

/-! ## The controller -/

/-- The part of the controller that is about filters. -/
structure ReplicaController where
  /-- Every filter configuration that was allocated. -/
  heap : List FilterConfiguration
  filters : Nat
  applierFilters : Nat
  running : Bool
  deriving DecidableEq

def ReplicaController.new : ReplicaController := ⟨[.new], 0, 0, false⟩

/-- The filters the applier consults for the next row event. -/
def ReplicaController.consulted (c : ReplicaController) : FilterConfiguration :=
  c.heap.getD c.applierFilters .new

inductive Operation where
  | changeReplicationFilter (options : List ReplicationOption)
  /-- Whether the stored source configuration could be deleted is asked for
  RESET REPLICA ALL only. -/
  | resetReplica (all deleted : Bool)
  /-- Whether the applier came up. -/
  | startReplica (up : Bool)
  | stopReplica
  deriving DecidableEq, Repr

namespace ReplicaController

variable (f : Folding)

/-- `SetReplicationFilterOptions` on the filters of the controller. -/
def change (c : ReplicaController) (options : List ReplicationOption) :
    FilterConfiguration × Option FilterError :=
  (c.heap.getD c.filters .new).setOptions (tableSet f.lower) f options

/-- A RESET REPLICA ALL that does not fail. -/
def resetsAll (c : ReplicaController) : Operation → Bool
  | .resetReplica all deleted => !c.running && all && deleted
  | _ => false

/-- RESET REPLICA ALL gives the controller new filters. -/
def step (c : ReplicaController) (op : Operation) : ReplicaController :=
  match op with
  | .changeReplicationFilter options =>
    { c with heap := c.heap.set c.filters (c.change f options).1 }
  | .resetReplica _ _ =>
    if c.resetsAll op then { c with heap := c.heap ++ [.new], filters := c.heap.length } else c
  | .startReplica up => { c with running := c.running || up }
  | .stopReplica => { c with running := false }

structure Valid (c : ReplicaController) : Prop where
  applier : c.applierFilters < c.heap.length
  filters : c.filters < c.heap.length

variable {f} {c : ReplicaController}

theorem Valid.step (h : c.Valid) (op : Operation) : (c.step f op).Valid := by
  cases op with
  | changeReplicationFilter options =>
    exact ⟨by simpa [ReplicaController.step] using h.applier,
      by simpa [ReplicaController.step] using h.filters⟩
  | resetReplica all deleted =>
    have happlier := h.applier
    simp only [ReplicaController.step]
    split
    · exact ⟨by simp; omega, by simp⟩
    · exact h
  | startReplica up | stopReplica => exact ⟨h.applier, h.filters⟩

/-- Filters that are changed reach the applier when it shares them. -/
theorem consulted_change (h : c.Valid) (options : List ReplicationOption) :
    (c.step f (.changeReplicationFilter options)).consulted
      = if c.filters = c.applierFilters then (c.change f options).1 else c.consulted := by
  have hfilters := h.filters
  simp only [step, consulted, List.getD_eq_getElem?_getD]
  split
  · rename_i heq
    simp [← heq, List.getElem?_set_self hfilters]
  · rename_i hne
    rw [List.getElem?_set_ne hne]

/-- New filters do not reach it. -/
theorem consulted_reset (h : c.Valid) (all deleted : Bool) :
    (c.step f (.resetReplica all deleted)).consulted = c.consulted := by
  have happlier := h.applier
  simp only [step, consulted, List.getD_eq_getElem?_getD]
  split
  · rw [List.getElem?_append_left happlier]
  · rfl

end ReplicaController

/-! ## The filters that were configured -/

structure Watched where
  controller : ReplicaController
  configured : FilterConfiguration
  deriving DecidableEq

namespace Watched

def start : Watched := ⟨.new, .new⟩

variable (f : Folding)

/-- The filters configured after an operation. One that fails configures
nothing. -/
def configure (v : Watched) (op : Operation) : FilterConfiguration :=
  match op with
  | .changeReplicationFilter options =>
    if (v.controller.change f options).2 = none then
      (v.configured.setOptions (tableSet f.lower) f options).1
    else v.configured
  | op => if v.controller.resetsAll op then .new else v.configured

def step (v : Watched) (op : Operation) : Watched := ⟨v.controller.step f op, v.configure f op⟩

/-- The applier consults the filters that were configured. -/
def InForce (v : Watched) : Prop := v.controller.consulted = v.configured

/-- RESET REPLICA ALL comes while no filters are configured. A CHANGE
REPLICATION FILTER with an option that is refused in front of it, and one
that is accepted behind it, repeats the names in force by the options that
are accepted. -/
def KeepsFilters (v : Watched) (op : Operation) : Prop :=
  match op with
  | .changeReplicationFilter options =>
    (v.controller.filters = v.controller.applierFilters ↔
        ¬ ∀ o ∈ options, o.Accepted f.upper) →
      v.configured.Repeats f.lower (tableSet f.lower) (acceptedCalls f.upper options)
  | op => v.controller.resetsAll op = true → v.configured = .new

variable {f}

theorem inForce_step_iff {v : Watched} (hv : v.controller.Valid) (h : v.InForce) (op : Operation) :
    (v.step f op).InForce ↔ v.KeepsFilters f op := by
  have hsame : v.controller.consulted = v.configured := h
  cases op with
  | changeReplicationFilter options =>
    have hok : (v.controller.change f options).2 = none ↔ ∀ o ∈ options, o.Accepted f.upper :=
      (Filters.setOptions_spec f _ options).2
    simp only [InForce, step, configure, KeepsFilters, ReplicaController.consulted_change hv,
      ← Filters.setOptions_eq_self_iff, ← hok]
    by_cases hshared : v.controller.filters = v.controller.applierFilters
    · have hown : v.controller.change f options
          = v.configured.setOptions (tableSet f.lower) f options := by
        rw [ReplicaController.change, hshared]
        exact congrArg (fun fc : FilterConfiguration => fc.setOptions (tableSet f.lower) f options)
          hsame
      rw [hown]
      by_cases hnone : (v.configured.setOptions (tableSet f.lower) f options).2 = none <;>
        simp [hshared, hnone]
    · by_cases hnone : (v.controller.change f options).2 = none <;>
        simp [hshared, hnone, hsame, eq_comm]
  | resetReplica all deleted =>
    simp only [InForce, step, configure, KeepsFilters, ReplicaController.consulted_reset hv, hsame]
    by_cases hreset : v.controller.resetsAll (.resetReplica all deleted) = true <;> simp [hreset]
  | startReplica up | stopReplica => exact iff_of_true h nofun

/-- **The filters in force.** In every state of a history the applier
consults the filters that were configured, exactly when every RESET
REPLICA ALL finds no filters, none are changed behind one, and a CHANGE
REPLICATION FILTER that fails in front of it has changed none. -/
theorem filters_in_force_iff (f : Folding) (ops : List Operation) :
    (∀ prior, prior <+: ops → (run (step f) start prior).InForce) ↔
      Along (step f) (KeepsFilters f) start ops := by
  have hinv : ∀ (v : Watched) (op : Operation), v.controller.Valid → True →
      (v.step f op).controller.Valid := fun _ op hv _ => hv.step op
  have hstart : start.controller.Valid := ⟨by decide, by decide⟩
  exact Along.good_iff hinv (fun _ op hv h _ => inForce_step_iff hv h op) hstart rfl
    (Along.of_forall (fun _ _ => trivial) start ops)

/-- A CHANGE REPLICATION FILTER for one database. -/
def onlyDatabase (name : String) : Operation :=
  .changeReplicationFilter [⟨"REPLICATE_DO_DB", .tableNames [⟨"", name⟩]⟩]

/-- The filters of the applier survive RESET REPLICA ALL, and those set
behind it do not reach the applier. -/
theorem reset_all_leaves_filters :
    let kept := run (step .ascii) start [onlyDatabase "a", .resetReplica true true]
    let unseen := run (step .ascii) start [.resetReplica true true, onlyDatabase "a"]
    kept.configured = .new ∧
      kept.controller.consulted = { Filters.new with
        doDatabases := databaseSet Folding.ascii.lower ["a"] } ∧
      FilterConfiguration.isTableFilteredOut Folding.ascii.lower kept.controller.consulted
        ⟨"b", "t"⟩ = true ∧
      unseen.configured = { Filters.new with
        doDatabases := databaseSet Folding.ascii.lower ["a"] } ∧
      unseen.controller.consulted = .new := by
  decide

end Watched

end MyDuck.Binlog
