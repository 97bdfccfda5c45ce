/-
MyDuck.Catalog.Table — a table of the catalog, catalog/table.go: the
three ALTER methods `AddColumn`, `DropColumn` and `ModifyColumn`, and
`withSchema`, which reads the schema back.

A table exists twice. DuckDB has its columns, its physical primary key and
its comments (`DuckTable`); the server has a copy of the table comment and
a schema built from the columns (`Table`). In the mode without an index
DuckDB has no primary key, and the key is kept by position, as
`PkOrdinals` in the table comment.

The methods build a list of SQL statements, execute it, update the copy
and read the schema back. DuckDB is modelled by what the statements do to
a `DuckTable`: a new column goes to the end, no statement moves a column,
and the type of a column of the physical key cannot be changed. A list of
statements that fails leaves nothing behind.

The mapping of types is a parameter (`Env`), as most of the results do not
depend on it; `TypeEnv.toEnv` has the one of catalog/type_mapping.go. Names
are folded as ASCII text.
-/
import MyDuck.Base.Session
import MyDuck.Catalog.TypeMapping

namespace MyDuck.Catalog

open TypeMapping (SqlType Name Engine)

/-! ## Names and types -/

/-- Column names are compared without regard to case. -/
def fold (name : String) : List Char := name.toList.map Char.toLower

def equalFold (a b : String) : Bool := decide (fold a = fold b)

/-- `MySQLType`: the annotation of the type, with the fields of the column. -/
structure MySQLType extends TypeMapping.MySQLType where
  default : String := ""
  autoIncrement : Bool := false
  deriving DecidableEq, Repr

/-- `sql.Column`. The default is its text. -/
structure Column where
  name : String
  type : SqlType
  nullable : Bool := true
  default : Option String := none
  autoIncrement : Bool := false
  primaryKey : Bool := false
  comment : String := ""
  deriving DecidableEq, Repr

/-- `sql.ColumnOrder`, the FIRST or AFTER of an ALTER. -/
inductive ColumnOrder where
  | first
  | after (name : String)
  deriving DecidableEq, Repr

/-- The comment of a table or a column: a text, and what the server keeps
about it. -/
structure Comment (α : Type) where
  text : String := ""
  metadata : α
  deriving DecidableEq, Repr

structure ExtraTableInfo where
  pkOrdinals : List Nat := []
  replicated : Bool := false
  sequence : String := ""
  deriving DecidableEq, Repr

/-- What the table is embedded in: the mapping of types, the parser of
default values, and whether replication runs without an index. -/
structure Env where
  duckdbDataType : SqlType → Option (Name × MySQLType)
  mysqlDataType : Name → MySQLType → Option SqlType
  parseDefaultValue : String → Option String
  withoutIndex : Bool

/-- What is left of it with the mapping of catalog/type_mapping.go. `others`
is what DuckDB reports as the precision and scale of a type other than
DECIMAL. An empty text is not a default. -/
structure TypeEnv where
  engine : Engine
  others : Nat × Nat
  parseDefaultValue : String → Option String
  withoutIndex : Bool
  no_empty : parseDefaultValue "" = none

def TypeEnv.toEnv (env : TypeEnv) : Env where
  duckdbDataType := fun type => (TypeMapping.duckdbDataType type).toOption.map
    fun duckType => (duckType.name, { toMySQLType := duckType.mysql })
  mysqlDataType := fun dataType mysql =>
    TypeMapping.columnType env.engine env.others ⟨dataType, mysql.toMySQLType⟩
  parseDefaultValue := env.parseDefaultValue
  withoutIndex := env.withoutIndex

/-! ## The table in DuckDB -/

structure DuckColumn where
  name : String
  dataType : Name
  nullable : Bool := true
  default : Option String := none
  comment : Option (Comment MySQLType) := none
  deriving DecidableEq, Repr

/-- A table of DuckDB with the sequences of its schema. `primaryKey` names
the columns of the physical primary key. -/
structure DuckTable where
  columns : List DuckColumn
  primaryKey : List String := []
  comment : Comment ExtraTableInfo
  sequences : List String := []
  deriving DecidableEq, Repr

inductive Stmt where
  | addColumn (name : String) (dataType : Name) (default : Option String)
  | dropColumn (name : String)
  | setType (name : String) (dataType : Name)
  | setNotNull (name : String)
  | dropNotNull (name : String)
  | setDefault (name expr : String)
  | dropDefault (name : String)
  | rename (name new : String)
  | commentOnColumn (name : String) (comment : Comment MySQLType)
  | commentOnTable (comment : Comment ExtraTableInfo)
  | addPrimaryKey (name : String)
  | createSequence (name : String)
  | dropSequence (name : String)
  deriving DecidableEq, Repr

namespace DuckTable

def hasColumn (name : String) (d : DuckTable) : Bool :=
  d.columns.any (fun c => equalFold c.name name)

/-- The column is one of the physical primary key. -/
def isKey (name : String) (d : DuckTable) : Bool := d.primaryKey.any (equalFold · name)

def alterColumn (name : String) (f : DuckColumn → DuckColumn) (d : DuckTable) : Option DuckTable :=
  if d.hasColumn name then
    some { d with columns := d.columns.map (fun c => if equalFold c.name name then f c else c) }
  else none

/-- The names of the key columns after a rename. -/
def renameKey (name new : String) (primaryKey : List String) : List String :=
  primaryKey.map (fun k => if equalFold k name then new else k)

/-- A column of a new name may not be there yet, a rename of a column to
itself apart. The key follows. -/
def renameColumn (name new : String) (d : DuckTable) : Option DuckTable :=
  if d.hasColumn new && !equalFold name new then none
  else (d.alterColumn name (fun c => { c with name := new })).map
    (fun d => { d with primaryKey := renameKey name new d.primaryKey })

/-- One statement; `none` is an error. A column of the key can neither be
dropped nor change its type. -/
def run (d : DuckTable) : Stmt → Option DuckTable
  | .addColumn name dataType default =>
    if d.hasColumn name then none
    else some { d with columns := d.columns ++ [{ name, dataType, default }] }
  | .dropColumn name =>
    if d.hasColumn name && !d.isKey name && decide (1 < d.columns.length) then
      some { d with columns := d.columns.filter (fun c => !equalFold c.name name) }
    else none
  | .setType name dataType =>
    if d.isKey name then none else d.alterColumn name (fun c => { c with dataType })
  | .setNotNull name => d.alterColumn name (fun c => { c with nullable := false })
  | .dropNotNull name => d.alterColumn name (fun c => { c with nullable := true })
  | .setDefault name expr => d.alterColumn name (fun c => { c with default := some expr })
  | .dropDefault name => d.alterColumn name (fun c => { c with default := none })
  | .rename name new => d.renameColumn name new
  | .commentOnColumn name comment =>
    d.alterColumn name (fun c => { c with comment := some comment })
  | .commentOnTable comment => some { d with comment }
  | .addPrimaryKey name =>
    if d.primaryKey = [] ∧ d.hasColumn name = true then some { d with primaryKey := [name] }
    else none
  | .createSequence name =>
    if name ∈ d.sequences then none else some { d with sequences := d.sequences ++ [name] }
  | .dropSequence name => some { d with sequences := d.sequences.filter (· ≠ name) }

/-- `adapter.Exec` of a list of statements. -/
def exec (d : DuckTable) (sqls : List Stmt) : Option DuckTable := sqls.foldlM run d

/-- `getPrimaryKeyOrdinals`: the positions of the physical key columns. -/
def primaryKeyOrdinals (d : DuckTable) : List Nat :=
  d.primaryKey.map (fun k => d.columns.findIdx (fun c => equalFold c.name k))

end DuckTable

/-! ## The table of the server -/

structure PrimaryKeySchema where
  columns : List Column
  pkOrdinals : List Nat
  deriving DecidableEq, Repr

/-- `sql.NewPrimaryKeySchema`: without ordinals they are read off the flags
of the columns. -/
def newPrimaryKeySchema (columns : List Column) (pkOrdinals : List Nat) : PrimaryKeySchema :=
  ⟨columns, if pkOrdinals = [] then
    (columns.zipIdx.filter (fun c => c.1.primaryKey)).map Prod.snd else pkOrdinals⟩

def setPrimaryKeyColumns (columns : List Column) (ordinals : List Nat) : List Column :=
  columns.mapIdx (fun i c => if i ∈ ordinals then { c with primaryKey := true } else c)

/-- `catalog.Table`. `temporary` says that its database is the temporary
catalog. -/
structure Table where
  temporary : Bool := false
  comment : Comment ExtraTableInfo
  schema : PrimaryKeySchema
  hasPrimaryKey : Bool
  deriving DecidableEq, Repr

inductive AlterError where
  | unsupportedType
  | badDefault
  | columnNotFound (name : String)
  | duckDB
  deriving DecidableEq, Repr

def readColumn (env : Env) (c : DuckColumn) : Option Column :=
  let comment := c.comment.getD { metadata := {} }
  (env.mysqlDataType c.dataType comment.metadata).map fun type =>
    { name := c.name, type, nullable := c.nullable,
      default := if c.default.isSome && comment.metadata.default ≠ "" then
        some comment.metadata.default else none,
      autoIncrement := comment.metadata.autoIncrement, comment := comment.text }

def getPKSchema (env : Env) (d : DuckTable) : Option PrimaryKeySchema :=
  (d.columns.mapM (readColumn env)).map fun columns =>
    newPrimaryKeySchema (setPrimaryKeyColumns columns d.primaryKeyOrdinals) d.primaryKeyOrdinals

/-- `withSchema`: read the schema back. Without a physical key, and without
an index, the key of the table comment stands in; an ordinal that is not a
position of a column is an index out of range. -/
def withSchema (env : Env) (d : DuckTable) (t : Table) : Outcome AlterError Table :=
  match getPKSchema env d with
  | none => .error .unsupportedType t
  | some schema =>
    if schema.pkOrdinals = [] ∧ env.withoutIndex = true then
      let ordinals := t.comment.metadata.pkOrdinals
      if ordinals.all (fun i => decide (i < schema.columns.length)) then
        .ok { t with
          schema := newPrimaryKeySchema (setPrimaryKeyColumns schema.columns ordinals) ordinals }
      else .panic
    else .ok { t with schema := schema }

/-- The table as a statement finds it: `findTables` and `withSchema`. -/
def load (env : Env) (d : DuckTable) : Outcome AlterError Table :=
  withSchema env d
    { comment := d.comment, schema := ⟨[], []⟩, hasPrimaryKey := decide (d.primaryKey ≠ []) }

/-! ## ALTER -/

structure TableState where
  table : Table
  duck : DuckTable
  deriving DecidableEq, Repr

/-- The end of every method: the statements are executed, the server's
copy of the comment is updated, and the schema is read back. -/
def TableState.alter (env : Env) (sqls : List Stmt) (update : Table → Table) (s : TableState) :
    Outcome AlterError TableState :=
  match s.duck.exec sqls with
  | none => .error .duckDB s
  | some d =>
    match withSchema env d (update s.table) with
    | .ok t => .ok ⟨t, d⟩
    | .error e t => .error e ⟨t, d⟩
    | .panic => .panic

def fullSequenceName (temporary : Bool) (uuid : String) : String :=
  if temporary then "temp.main.\"__sys_table_seq_" ++ uuid ++ "\""
  else "__sys__.\"__sys_table_seq_" ++ uuid ++ "\""

def nextval (sequence : String) : String := "nextval('" ++ sequence ++ "')"

/-- The statement that writes the table comment, if it changed. -/
def commentIfChanged (changed : Bool) (t : Table) (info : ExtraTableInfo) : List Stmt :=
  if changed then [.commentOnTable ⟨t.comment.text, info⟩] else []

/-- The change of the server's copy of the metadata. -/
def Table.withInfo (f : ExtraTableInfo → ExtraTableInfo) (t : Table) : Table :=
  { t with comment := { t.comment with metadata := f t.comment.metadata } }

/-- `AddColumn`. The order is ignored, as DuckDB has no way to give it. -/
def addColumn (env : Env) (column : Column) (_order : Option ColumnOrder) (uuid : String)
    (s : TableState) : Outcome AlterError TableState :=
  let t := s.table
  match env.duckdbDataType column.type with
  | none => .error .unsupportedType s
  | some (dataType, mysql) =>
    match column.default.mapM env.parseDefaultValue with
    | none => .error .badDefault s
    | some defaultExpr =>
      -- a default wins over AUTO_INCREMENT, which then gets no sequence
      let withSequence := column.default.isNone && column.autoIncrement
      let sequence := if withSequence then fullSequenceName t.temporary uuid else ""
      let mysql := { mysql with
        default := column.default.getD mysql.default, autoIncrement := withSequence }
      let info := { t.comment.metadata with
        sequence := if column.autoIncrement then sequence else t.comment.metadata.sequence,
        pkOrdinals := if column.primaryKey then [t.schema.columns.length]
          else t.comment.metadata.pkOrdinals }
      let sqls :=
        (if withSequence then [.createSequence sequence] else []) ++
        [.addColumn column.name dataType
          (if withSequence then some (nextval sequence) else defaultExpr)] ++
        ((if column.nullable then [] else [.setNotNull column.name]) ++
          [.commentOnColumn column.name ⟨column.comment, mysql⟩]) ++
        (if column.primaryKey then [.addPrimaryKey column.name] else []) ++
        commentIfChanged (column.autoIncrement || column.primaryKey) t info
      s.alter env sqls (fun t =>
        { t.withInfo (fun _ => info) with hasPrimaryKey := t.hasPrimaryKey || column.primaryKey })

def dropColumn (env : Env) (columnName : String) (s : TableState) :
    Outcome AlterError TableState :=
  let t := s.table
  let autoIncrement := t.schema.columns.any
    (fun c => c.autoIncrement && equalFold c.name columnName)
  let sqls := .dropColumn columnName ::
    if autoIncrement then
      [.dropSequence t.comment.metadata.sequence,
        .commentOnTable ⟨t.comment.text, { t.comment.metadata with sequence := "" }⟩]
    else []
  s.alter env sqls (fun t =>
    if autoIncrement then t.withInfo (fun m => { m with sequence := "" }) else t)

/-- `ModifyColumn`, which also renames. The order is ignored. The copy of
the key is set to the column whenever the new definition has the key flag;
the table comment gets a new key only when the flag is new. -/
def modifyColumn (env : Env) (columnName : String) (column : Column)
    (_order : Option ColumnOrder) (uuid : String) (s : TableState) :
    Outcome AlterError TableState :=
  let t := s.table
  match env.duckdbDataType column.type with
  | none => .error .unsupportedType s
  | some (dataType, mysql) =>
    let oldColumnIndex := t.schema.columns.findIdx (fun c => equalFold c.name columnName)
    match t.schema.columns[oldColumnIndex]? with
    | none => .error (.columnNotFound columnName) s
    | some oldColumn =>
      let newDefault := if column.autoIncrement then none else column.default
      match newDefault.mapM env.parseDefaultValue with
      | none => .error .badDefault s
      | some defaultExpr =>
        let addsAuto := !oldColumn.autoIncrement && column.autoIncrement
        let dropsAuto := oldColumn.autoIncrement && !column.autoIncrement
        let addsKey := !oldColumn.primaryKey && column.primaryKey
        let sequence := fullSequenceName t.temporary uuid
        let mysql := { mysql with
          default := newDefault.getD mysql.default, autoIncrement := addsAuto }
        let newSequence :=
          if addsAuto then sequence else if dropsAuto then "" else t.comment.metadata.sequence
        let info := { t.comment.metadata with
          sequence := newSequence,
          pkOrdinals := if addsKey then [oldColumnIndex] else t.comment.metadata.pkOrdinals }
        let sqls :=
          (if oldColumn.type ≠ column.type then [.setType columnName dataType] else []) ++
          (if oldColumn.nullable && !column.nullable then [.setNotNull columnName]
            else if !oldColumn.nullable && column.nullable then [.dropNotNull columnName]
            else []) ++
          (defaultExpr.map (.setDefault columnName)).toList ++
          (if addsAuto then [.createSequence sequence, .setDefault columnName (nextval sequence)]
            else if dropsAuto then [.dropDefault columnName] else []) ++
          (if columnName ≠ column.name then [.rename columnName column.name] else []) ++
          [.commentOnColumn column.name ⟨column.comment, mysql⟩] ++
          (if addsKey then [.addPrimaryKey column.name] else []) ++
          commentIfChanged (addsAuto || dropsAuto || addsKey) t info
        s.alter env sqls (fun t =>
          { t.withInfo (fun m => { m with
              sequence := newSequence,
              pkOrdinals := if column.primaryKey then [oldColumnIndex] else m.pkOrdinals }) with
            hasPrimaryKey := t.hasPrimaryKey || column.primaryKey })

/-- The clauses of an ALTER TABLE on columns. A rename is a `modifyColumn`
to the same definition under another name. -/
inductive Alter where
  | add (column : Column) (order : Option ColumnOrder) (uuid : String)
  | drop (name : String)
  | modify (name : String) (column : Column) (order : Option ColumnOrder) (uuid : String)
  deriving DecidableEq, Repr

def Alter.run (env : Env) (a : Alter) (s : TableState) : Outcome AlterError TableState :=
  match a with
  | .add column order uuid => addColumn env column order uuid s
  | .drop name => dropColumn env name s
  | .modify name column order uuid => modifyColumn env name column order uuid s

end MyDuck.Catalog
