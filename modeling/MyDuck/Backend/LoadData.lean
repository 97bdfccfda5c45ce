/-
MyDuck.Backend.LoadData — LOAD DATA from a file of the server,
backend/loaddata.go.

`buildServerSideLoadData` lets a file through when its directory is the one
of `secure_file_priv`, or when the text of its absolute path begins with
the text of that directory. The path then goes into the text of a DuckDB
statement as it was given, between single quotes.

`load_data_iff` says when this reads nothing but what was asked for, below
the directory. The comparison of texts lets in a sibling of the directory
with a longer name, the comparison of directories the path `dir/..`, and a
failing `Getwd` every absolute path; a quote in the path ends the literal.

The file system is a tree without links. Texts are read by characters, not
bytes. `strings.ToLower` and `strconv.IsPrint` are parameters. A string
literal of DuckDB that continues on another line is two tokens here; it is
not the given path either way.
-/
import MyDuck.Base.Path
import MyDuck.Base.SqlTokens
import MyDuck.Catalog.TypeMapping

namespace MyDuck.LoadData

open Paths Sql
open Strings (singleQuote doubleQuote backslash)

abbrev Text := List Char

/-! ## The file system -/

structure Os where
  tree : Tree
  cwd : Place
  getwdFails : Bool := false

inductive FileError where
  | stat (path : Text)
  | getwd
  | secureFilePriv
  deriving DecidableEq, Repr

namespace Os

variable (os : Os)

/-- `os.Stat`: without links the place is the identity of a file. -/
def stat (path : Text) : Except FileError (List Name) :=
  match os.tree.walk os.cwd.names path with
  | some place => .ok place
  | none => .error (.stat path)

/-- `filepath.Abs`. -/
def abs (path : Text) : Except FileError Text :=
  if isAbs path = false ∧ os.getwdFails = true then .error .getwd
  else .ok (Paths.abs (text os.cwd.names) path)

/-- `isUnderSecureFileDir`. The error of the second `filepath.Abs` is not
looked at: the path is empty then. -/
def isUnderSecureFileDir (secureFileDir : Option Text) (fileStr : Text) : Except FileError Unit :=
  match secureFileDir with
  | none => .ok ()
  | some dir =>
    if dir = [] then .ok ()
    else
      (os.stat dir).bind fun sStat =>
      (os.stat (Paths.dir fileStr)).bind fun fStat =>
      if sStat = fStat then .ok ()
      else
        (os.abs fileStr).bind fun fileAbsPath =>
        let secureFileDirAbsPath := (os.abs dir).toOption.getD []
        if secureFileDirAbsPath.isPrefixOf fileAbsPath then .ok () else .error .secureFilePriv

end Os

/-! ## The statement -/

/-- What the statement reads of `plan.LoadData`. -/
structure Load where
  file : Text
  isIgnore : Bool := false
  isReplace : Bool := false
  colNames : List Text := []
  fieldsTerminatedBy : Text := "\t".toList
  fieldsEnclosedBy : Text := []
  fieldsEscapedBy : Text := []
  linesTerminatedBy : Text := "\n".toList
  ignoreNum : Int := 0
  deriving DecidableEq, Repr

structure Column where
  name : Text
  source : Text
  primaryKey : Bool := false
  type : TypeMapping.SqlType
  deriving DecidableEq, Repr

/-- The table: `stored` has whether it is replicated and whether it has a
primary key, for a table of the catalog. -/
structure Table where
  database : Text
  name : Text
  schema : List Column
  stored : Option (Bool × Bool)
  deriving DecidableEq, Repr

inductive LoadError where
  | variableNotFound
  | cannotOpen (e : FileError)
  | columnNotFound (table column : Text)
  | type (e : TypeMapping.MappingError)
  deriving DecidableEq, Repr

structure Env where
  os : Os
  lower : Text → Text
  isPrint : Char → Bool

def quoteIdentifierANSI (identifier : Text) : Text :=
  doubleQuote :: (escape doubleQuote identifier ++ [doubleQuote])

def connectIdentifiersANSI (identifiers : List Text) : Text :=
  ['.'].intercalate (identifiers.map quoteIdentifierANSI)

def inQuotes (s : Text) : Text := singleQuote :: (s ++ [singleQuote])

/-- As many lower-case hexadecimal digits. -/
def hexDigits (width n : Nat) : Text :=
  (List.range width).reverse.map fun i => Nat.digitChar (n / 16 ^ i % 16)

/-- `strconv.QuoteRune`. -/
def quoteRune (isPrint : Char → Bool) (r : Char) : Text :=
  inQuotes <|
    if r = singleQuote ∨ r = backslash then [backslash, r]
    else if isPrint r then [r]
    else backslash ::
      match r.toNat with
      | 7 => ['a']
      | 8 => ['b']
      | 12 => ['f']
      | 10 => ['n']
      | 13 => ['r']
      | 9 => ['t']
      | 11 => ['v']
      | n =>
        if n < 0x20 ∨ n = 0x7f then 'x' :: hexDigits 2 n
        else if n < 0x10000 then 'u' :: hexDigits 4 n
        else 'U' :: hexDigits 8 n

def singleQuotedDuckChar (isPrint : Char → Bool) : Text → Text
  | [] => inQuotes []
  | r :: _ => if r = backslash then inQuotes [backslash] else quoteRune isPrint r

def columnTypeHint (col : Column) : Except LoadError Text :=
  match TypeMapping.duckdbDataType col.type with
  | .error e => .error (.type e)
  | .ok dt =>
    let name :=
      match col.type with
      | .enum _ _ => "VARCHAR".toList
      | _ => dt.name
    .ok (quoteIdentifierANSI col.name ++ ": ".toList ++ inQuotes name)

variable (env : Env)

/-- `schema.IndexOf`, with the column found. -/
def findColumn (dst : Table) (col : Text) : Except LoadError Column :=
  match dst.schema.find? fun c =>
      env.lower c.name = env.lower col ∧ env.lower c.source = env.lower dst.name with
  | some c => .ok c
  | none => .error (.columnNotFound dst.name col)

/-- `columnTypeHints`: for all columns, or for those named. -/
def columnTypeHints (dst : Table) (colNames : List Text) : Except LoadError Text :=
  let hints : Except LoadError (List Text) :=
    if colNames = [] then dst.schema.mapM columnTypeHint
    else colNames.mapM fun col => (findColumn env dst col).bind columnTypeHint
  hints.map fun hs => "\x7b".toList ++ ", ".toList.intercalate hs ++ "\x7d".toList

/-- Whether the statement leaves conflicts to DuckDB. -/
def keyless (dst : Table) : Bool :=
  if dst.schema.any (·.primaryKey) then
    match dst.stored with
    | some (replicated, hasPrimaryKey) => replicated || !hasPrimaryKey
    | none => false
  else true

/-- The statement up to the table. -/
def insertInto (dst : Table) (load : Load) : Text :=
  if load.isIgnore = true ∧ keyless dst = false then "INSERT OR IGNORE INTO ".toList
  else if load.isReplace = true ∧ keyless dst = false then "INSERT OR REPLACE INTO ".toList
  else "INSERT INTO ".toList

/-- The columns, as far as they are named. -/
def columnList : List Text → Text
  | [] => []
  | col :: cols =>
    " (".toList ++ quoteIdentifierANSI col ++
      cols.flatMap (fun c => ", ".toList ++ quoteIdentifierANSI c) ++ ")".toList

/-- The options of `read_csv` that depend on the statement, up to the types
of the columns. -/
def formatOptions (load : Load) : Text :=
  ", new_line = ".toList ++
  (if load.linesTerminatedBy.length = 1 then
    singleQuotedDuckChar env.isPrint load.linesTerminatedBy
    else inQuotes [backslash, 'r', backslash, 'n']) ++
  ", sep = ".toList ++ singleQuotedDuckChar env.isPrint load.fieldsTerminatedBy ++
  ", quote = ".toList ++ singleQuotedDuckChar env.isPrint load.fieldsEnclosedBy ++
  ", escape = ".toList ++
  (if load.fieldsEscapedBy = [backslash] then inQuotes []
    else singleQuotedDuckChar env.isPrint load.fieldsEscapedBy) ++
  ", allow_quoted_nulls = false, nullstr = ".toList ++
  (if load.fieldsEnclosedBy ≠ [] ∨ load.fieldsEscapedBy = [] then inQuotes "NULL".toList
    else inQuotes [backslash, 'N']) ++
  (if 0 < load.ignoreNum then ", skip = ".toList ++ (toString load.ignoreNum).toList else []) ++
  ", columns = ".toList

def csvOptions (load : Load) : Text :=
  ", auto_detect = false, header = false, null_padding = true".toList ++ formatOptions env load

/-- `executeLoadData`: the statement that is executed. -/
def executeLoadData (dst : Table) (load : Load) (filePath : Text) : Except LoadError Text :=
  (columnTypeHints env dst load.colNames).map fun hints =>
    insertInto dst load ++ connectIdentifiersANSI [dst.database, dst.name] ++
      columnList load.colNames ++ " FROM read_csv(".toList ++ inQuotes filePath ++
      csvOptions env load ++ hints ++ ")".toList

/-- `buildServerSideLoadData`; the first argument is what is found for
`secure_file_priv`. -/
def buildServerSideLoadData (secureFilePriv : Option (Option Text)) (dst : Table) (load : Load) :
    Except LoadError Text :=
  match secureFilePriv with
  | none => .error .variableNotFound
  | some secureFileDir =>
    match env.os.isUnderSecureFileDir secureFileDir load.file with
    | .error e => .error (.cannotOpen e)
    | .ok () => executeLoadData env dst load load.file

/-! ## What is let through -/

namespace Os

variable {os : Os} {dir file path : Text}

/-- The names of the directory are in front of those of the file. -/
def Inside (os : Os) (dir file : Text) : Prop :=
  (os.cwd.follow dir).names <+: (os.cwd.follow file).names

instance (os : Os) (dir file : Text) : Decidable (os.Inside dir file) :=
  inferInstanceAs (Decidable (_ <+: _))

/-- All that the path passes is there. -/
def Found (os : Os) (path : Text) : Prop := (os.tree.walk os.cwd.names path).isSome = true

/-- The absolute path can be found. -/
def Known (os : Os) (path : Text) : Prop := isAbs path = true ∨ os.getwdFails = false

/-- The file is an entry of the directory itself. -/
def SameDirectory (os : Os) (dir file : Text) : Prop :=
  os.cwd.follow dir = os.cwd.follow (Paths.dir file)

/-- The file is in a directory beside this one whose name is longer, or is
such a file. -/
def BesideLonger (os : Os) (dir file : Text) : Prop :=
  Sibling (os.cwd.follow dir).names (os.cwd.follow file).names

/-- When the check of the path fails. -/
def Refused (os : Os) (dir file : Text) : Prop :=
  ¬ os.Found dir ∨ ¬ os.Found (Paths.dir file) ∨
    (¬ os.SameDirectory dir file ∧
      (¬ os.Known file ∨ (os.Known dir ∧ ¬ os.Inside dir file ∧ ¬ os.BesideLonger dir file)))

theorem stat_of_found (h : os.Found path) : os.stat path = .ok (os.cwd.follow path).names := by
  obtain ⟨place, hplace⟩ := Option.isSome_iff_exists.mp h
  rw [stat, hplace, Tree.walk_eq_resolve hplace]
  rfl

theorem stat_of_not_found (h : ¬ os.Found path) : os.stat path = .error (.stat path) := by
  rw [Found, Option.not_isSome_iff_eq_none] at h
  rw [stat, h]

theorem abs_of_known (h : os.Known path) :
    os.abs path = .ok (text (os.cwd.follow path).names) := by
  have hnot : ¬ (isAbs path = false ∧ os.getwdFails = true) := by
    rcases h with h | h <;> simp [h]
  rw [abs, if_neg hnot, abs_eq_text os.cwd.real]
  rfl

theorem abs_of_not_known (h : ¬ os.Known path) : os.abs path = .error .getwd := by
  rw [Known, not_or, Bool.not_eq_true, Bool.not_eq_false] at h
  rw [abs, if_pos h]

/-- The comparison of the texts, once the file's is known. -/
theorem isPrefixOf_abs_iff (os : Os) (dir file : Text) :
    ((os.abs dir).toOption.getD []).isPrefixOf (text (os.cwd.follow file).names) = true ↔
      (os.Known dir → os.Inside dir file ∨ os.BesideLonger dir file) := by
  by_cases hdir : os.Known dir
  · rw [abs_of_known hdir, List.isPrefixOf_iff_prefix]
    simp only [Except.toOption, Option.getD_some, hdir, true_imp_iff]
    exact text_isPrefix_iff (os.cwd.follow dir).real (os.cwd.follow file).real
  · simp [abs_of_not_known hdir, hdir, Except.toOption]

/-- **What the check lets through.** -/
theorem isUnderSecureFileDir_iff (os : Os) (hdir : dir ≠ []) (file : Text) :
    os.isUnderSecureFileDir (some dir) file = .ok () ↔ ¬ os.Refused dir file := by
  rw [isUnderSecureFileDir, Refused]
  simp only [if_neg hdir]
  by_cases hfound : os.Found dir
  swap
  · simp [stat_of_not_found hfound, hfound, Except.bind]
  by_cases hfile : os.Found (Paths.dir file)
  swap
  · simp [stat_of_found hfound, stat_of_not_found hfile, hfile, Except.bind]
  rw [stat_of_found hfound, stat_of_found hfile]
  by_cases hsame : os.SameDirectory dir file
  · have hnames : (os.cwd.follow dir).names = (os.cwd.follow (Paths.dir file)).names :=
      congrArg Place.names hsame
    simp [Except.bind, hnames, hfound, hfile, hsame]
  · have hnames : (os.cwd.follow dir).names ≠ (os.cwd.follow (Paths.dir file)).names :=
      fun h => hsame (Place.ext h)
    by_cases hknown : os.Known file
    · have htexts := isPrefixOf_abs_iff os dir file
      by_cases hbelow : os.Known dir → os.Inside dir file ∨ os.BesideLonger dir file
      · simp only [Except.bind, if_neg hnames, abs_of_known hknown, if_pos (htexts.mpr hbelow)]
        tauto
      · simp only [Except.bind, if_neg hnames, abs_of_known hknown,
          if_neg fun h => hbelow (htexts.mp h)]
        simp only [reduceCtorEq, false_iff, not_not]
        tauto
    · simp [Except.bind, hnames, abs_of_not_known hknown, hknown, hsame]

end Os

/-! ## What is read -/

/-- The name of the function, as a token. -/
def readCsv : Text := "read_csv".toList

theorem skips_quoteIdentifierANSI (name : Text) :
    Skips readCsv .plain (quoteIdentifierANSI name) (.closing doubleQuote name) :=
  skips_escape rfl readCsv name

theorem skips_insertInto (dst : Table) (load : Load) :
    Skips readCsv .plain (insertInto dst load) .plain := by
  unfold insertInto
  split_ifs <;> decide

theorem skips_connectIdentifiersANSI (database name : Text) :
    Skips readCsv .plain (connectIdentifiersANSI [database, name]) (.closing doubleQuote name) := by
  have hdot : Skips readCsv .plain ['.'] .plain := by decide
  have htext : connectIdentifiersANSI [database, name] =
      quoteIdentifierANSI database ++ ['.'] ++ quoteIdentifierANSI name := by
    simp [connectIdentifiersANSI, List.intercalate_cons_cons]
  rw [htext]
  exact ((skips_quoteIdentifierANSI database).append (hdot.closing (by decide) database)).append
    (skips_quoteIdentifierANSI name)

theorem skips_moreColumns (cols : List Text) (name : Text) :
    ∃ last, Skips readCsv (.closing doubleQuote name)
      (cols.flatMap fun c => ", ".toList ++ quoteIdentifierANSI c) (.closing doubleQuote last) := by
  induction cols generalizing name with
  | nil => exact ⟨name, by simp [Skips, feed]⟩
  | cons col cols ih =>
    obtain ⟨last, hlast⟩ := ih col
    have hcomma : Skips readCsv .plain ", ".toList .plain := by decide
    exact ⟨last, ((hcomma.closing (by decide) name).append
      (skips_quoteIdentifierANSI col)).append hlast⟩

/-- The columns and the FROM behind them. -/
theorem skips_columnList_from (cols : List Text) (name : Text) :
    Skips readCsv (.closing doubleQuote name) (columnList cols ++ " FROM ".toList) .plain := by
  have hfrom : Skips readCsv .plain " FROM ".toList .plain := by decide
  cases cols with
  | nil => exact hfrom.closing (by decide) name
  | cons col cols =>
    have hopen : Skips readCsv .plain " (".toList .plain := by decide
    have hclose : Skips readCsv .plain ")".toList .plain := by decide
    obtain ⟨last, hlast⟩ := skips_moreColumns cols col
    exact ((((hopen.closing (by decide) name).append (skips_quoteIdentifierANSI col)).append
      hlast).append (hclose.closing (by decide) last)).append hfrom

/-- The call is found, whatever comes behind it. -/
theorem firstArgument_readCsv (rest : Text) :
    firstArgument readCsv (tokens ("read_csv(".toList ++ singleQuote :: rest)) =
      (lex (.inside singleQuote []) rest).head? := by
  have hcall : feed .plain ("read_csv(".toList ++ [singleQuote]) =
      ([.word readCsv, .symbol '('], .inside singleQuote []) := by decide
  rw [tokens, ← List.singleton_append, ← List.append_assoc, lex_append, hcall]
  simp [firstArgument]

theorem exists_cons_of_head? {c : Char} {front : Text} (h : front.head? = some c) (rest : Text) :
    ∃ more, front ++ rest = c :: more := by
  obtain ⟨more, rfl⟩ := List.head?_eq_some_iff.mp h
  exact ⟨more ++ rest, rfl⟩

theorem csvOptions_eq_cons (load : Load) : ∃ rest, csvOptions env load = ',' :: rest :=
  exists_cons_of_head? (by decide) (formatOptions env load)

/-- **The file that is read** is the given one exactly when its path has no
quote. -/
theorem executeLoadData_reads_iff {env : Env} {dst : Table} {load : Load} {filePath sql : Text}
    (h : executeLoadData env dst load filePath = .ok sql) :
    firstArgument readCsv (tokens sql) = some (.quoted singleQuote filePath) ↔
      singleQuote ∉ filePath := by
  obtain ⟨options, hoptions⟩ := csvOptions_eq_cons env load
  have hcall : " FROM read_csv(".toList = " FROM ".toList ++ "read_csv(".toList := by decide
  have hfront := ((skips_insertInto dst load).append
    (skips_connectIdentifiersANSI dst.database dst.name)).append
    (skips_columnList_from load.colNames dst.name)
  unfold executeLoadData at h
  cases hhints : columnTypeHints env dst load.colNames with
  | error e =>
    rw [hhints] at h
    cases h
  | ok hints =>
    rw [hhints] at h
    cases h
    have hrest := hfront.firstArgument_eq ("read_csv(".toList ++ singleQuote ::
      (filePath ++ singleQuote :: ',' :: (options ++ hints ++ ")".toList)))
    rw [hoptions, hcall, inQuotes]
    simp only [List.append_assoc, List.cons_append, List.nil_append] at hrest ⊢
    rw [tokens, hrest, ← tokens, firstArgument_readCsv, head?_lex_inside_iff]
    exact literal_raw_iff (by decide) _ _

/-! ## Loads that read what they should -/

/-- The statement that is executed reads the given file, and that is inside
the directory. -/
def ReadsOnlyBelow (dir : Text) (dst : Table) (load : Load) : Prop :=
  ∀ sql, buildServerSideLoadData env (some (some dir)) dst load = .ok sql →
    env.os.Inside dir load.file ∧
      firstArgument readCsv (tokens sql) = some (.quoted singleQuote load.file)

variable {env}

theorem buildServerSideLoadData_ok_iff {dir : Text} (hdir : dir ≠ []) {dst : Table} {load : Load}
    {sql : Text} :
    buildServerSideLoadData env (some (some dir)) dst load = .ok sql ↔
      ¬ env.os.Refused dir load.file ∧ executeLoadData env dst load load.file = .ok sql := by
  have hiff := env.os.isUnderSecureFileDir_iff hdir load.file
  unfold buildServerSideLoadData
  cases hcheck : env.os.isUnderSecureFileDir (some dir) load.file with
  | error e =>
    have hrefused : ¬ ¬ env.os.Refused dir load.file := fun h => by
      rw [hcheck] at hiff
      cases hiff.mpr h
    simp [hrefused, hcheck]
  | ok u => simp [hiff.mp hcheck, hcheck]

/-- **A load reads only what it should** exactly when its path is refused,
or a column cannot be described, or the path is inside and has no quote. -/
theorem load_data_iff (env : Env) {dir : Text} (hdir : dir ≠ []) (dst : Table) (load : Load) :
    ReadsOnlyBelow env dir dst load ↔
      env.os.Refused dir load.file ∨ (∃ e, columnTypeHints env dst load.colNames = .error e) ∨
        (env.os.Inside dir load.file ∧ singleQuote ∉ load.file) := by
  constructor
  · intro h
    by_cases hrefused : env.os.Refused dir load.file
    · exact .inl hrefused
    cases hhints : columnTypeHints env dst load.colNames with
    | error e => exact .inr (.inl ⟨e, rfl⟩)
    | ok hints =>
      have hsql : ∃ sql, executeLoadData env dst load load.file = .ok sql := by
        rw [executeLoadData, hhints]
        exact ⟨_, rfl⟩
      obtain ⟨sql, hsql⟩ := hsql
      obtain ⟨hinside, hreads⟩ := h sql ((buildServerSideLoadData_ok_iff hdir).mpr ⟨hrefused, hsql⟩)
      exact .inr (.inr ⟨hinside, (executeLoadData_reads_iff hsql).mp hreads⟩)
  · intro h sql hsql
    obtain ⟨hlet, hexec⟩ := (buildServerSideLoadData_ok_iff hdir).mp hsql
    rcases h with hrefused | ⟨e, he⟩ | ⟨hinside, hquote⟩
    · exact absurd hrefused hlet
    · rw [executeLoadData, he] at hexec
      cases hexec
    · exact ⟨hinside, (executeLoadData_reads_iff hexec).mpr hquote⟩

/-- Two directories beside each other. -/
def sampleTree : Tree := fun place =>
  if place = [] ∨ place = ["secure".toList] ∨ place = ["secure-evil".toList] then some .directory
  else none

def sampleEnv : Env where
  os := { tree := sampleTree, cwd := .root }
  lower := id
  isPrint := fun c => 0x20 ≤ c.toNat

def sampleTable : Table where
  database := "db".toList
  name := "t".toList
  schema := [⟨"a".toList, "t".toList, true, .date⟩]
  stored := none

def sampleLoad (file : Text) : Load := { file }

theorem load_data_iff_inside :
    ReadsOnlyBelow sampleEnv "/secure".toList sampleTable (sampleLoad "/secure/a.csv".toList) :=
  (load_data_iff sampleEnv (by decide) sampleTable _).mpr (.inr (.inr ⟨by decide, by decide⟩))

/-- The file that is read, if a statement is executed. -/
def fileRead (r : Except LoadError Text) : Option Token :=
  r.toOption.bind fun sql => firstArgument readCsv (tokens sql)

theorem fileRead_eq_some {r : Except LoadError Text} {t : Token} (h : fileRead r = some t) :
    ∃ sql, r = .ok sql ∧ firstArgument readCsv (tokens sql) = some t := by
  cases r with
  | error e => cases h
  | ok sql => exact ⟨sql, rfl, h⟩

/-- With `/secure` as the directory, a file in `/secure-evil` is read, and
for one whose name has a quote another one is. -/
theorem load_data_escapes :
    (fileRead (buildServerSideLoadData sampleEnv (some (some "/secure".toList)) sampleTable
        (sampleLoad "/secure-evil/a.csv".toList)) =
          some (.quoted singleQuote "/secure-evil/a.csv".toList) ∧
      ¬ ReadsOnlyBelow sampleEnv "/secure".toList sampleTable
        (sampleLoad "/secure-evil/a.csv".toList)) ∧
    (fileRead (buildServerSideLoadData sampleEnv (some (some "/secure".toList)) sampleTable
        (sampleLoad "/secure/a'b.csv".toList)) = some (.quoted singleQuote "/secure/a".toList) ∧
      ¬ ReadsOnlyBelow sampleEnv "/secure".toList sampleTable
        (sampleLoad "/secure/a'b.csv".toList)) := by
  have hevil : fileRead (buildServerSideLoadData sampleEnv (some (some "/secure".toList))
      sampleTable (sampleLoad "/secure-evil/a.csv".toList)) =
        some (.quoted singleQuote "/secure-evil/a.csv".toList) := by decide +kernel
  have hquote : fileRead (buildServerSideLoadData sampleEnv (some (some "/secure".toList))
      sampleTable (sampleLoad "/secure/a'b.csv".toList)) =
        some (.quoted singleQuote "/secure/a".toList) := by decide +kernel
  refine ⟨⟨hevil, fun h => ?_⟩, hquote, fun h => ?_⟩
  · obtain ⟨sql, hsql, -⟩ := fileRead_eq_some hevil
    exact absurd (h sql hsql).1 (by decide)
  · obtain ⟨sql, hsql, hread⟩ := fileRead_eq_some hquote
    exact absurd (hread.symm.trans (h sql hsql).2) (by decide)

end MyDuck.LoadData
