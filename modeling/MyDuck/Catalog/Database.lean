/-
MyDuck.Catalog.Database — finding the table of a name, catalog/database.go.

`GetTableInsensitive` asks DuckDB for the tables whose name is ILIKE the
requested one, reads the schema of each, and takes the first. The name is
the pattern: a `_` or `%` in it is a wildcard. The answer is that of a
comparison without regard to case if the name has no wildcard, or if no
table matches it in front of the one that has it (`lookup_exact_iff`).

The rows of `duckdb_tables()` come in the order of the list. How ILIKE
folds case is a parameter (`CaseFold`); it is assumed to leave the two
wildcards alone.
-/
import MyDuck.Base.Like
import MyDuck.Catalog.Table

namespace MyDuck.Catalog

open Like

/-! ## ILIKE -/

/-- The folding of characters in front of a comparison. No other character
becomes a wildcard, and no wildcard another character. -/
structure CaseFold where
  lower : Char → Char
  underscore : ∀ c, lower c = '_' ↔ c = '_'
  percent : ∀ c, lower c = '%' ↔ c = '%'

namespace CaseFold

variable (fold : CaseFold)

/-- Equal without regard to case. -/
def SameName (a b : String) : Prop := a.toList.map fold.lower = b.toList.map fold.lower

instance (a b : String) : Decidable (fold.SameName a b) :=
  inferInstanceAs (Decidable (_ = _))

/-- `text ILIKE pattern`. -/
def ilike (text pattern : String) : Bool :=
  like '_' '%' (pattern.toList.map fold.lower) (text.toList.map fold.lower)

variable {fold}

/-- Every name is ILIKE a name that is equal to it. -/
theorem ilike_of_sameName {a b : String} (h : fold.SameName a b) : fold.ilike a b = true := by
  rw [ilike, h]
  exact like_self _

/-- A name without wildcards finds the names equal to it only. -/
theorem sameName_of_ilike {pattern : String} (hunderscore : '_' ∉ pattern.toList)
    (hpercent : '%' ∉ pattern.toList) {text : String} (h : fold.ilike text pattern = true) :
    fold.SameName text pattern := by
  refine (like_literal ?_ ?_ _).mp h
  · intro hmem
    obtain ⟨c, hc, hlower⟩ := List.mem_map.mp hmem
    exact hunderscore ((fold.underscore c).mp hlower ▸ hc)
  · intro hmem
    obtain ⟨c, hc, hlower⟩ := List.mem_map.mp hmem
    exact hpercent ((fold.percent c).mp hlower ▸ hc)

end CaseFold

/-- Only the capital letters of ASCII become other characters, and these
become its small letters. -/
theorem toLower_eq_iff {c w : Char}
    (hw : w.toNat < 'A'.toNat ∨ 'Z'.toNat < w.toNat ∧ w.toNat < 'a'.toNat) :
    c.toLower = w ↔ c = w := by
  unfold Char.toLower
  split
  next h =>
    have hfirst : 'A'.toNat ≤ c.toNat := h.1
    have hlast : c.toNat ≤ 'Z'.toNat := h.2
    have hA : 'A'.toNat = 65 := rfl
    have hZ : 'Z'.toNat = 90 := rfl
    have ha : 'a'.toNat = 97 := rfl
    have hval : (c.val + ('a'.val - 'A'.val)).toNat = c.toNat + 32 := by
      have hdiff : ('a'.val - 'A'.val).toNat = 32 := rfl
      have hc : c.val.toNat = c.toNat := rfl
      rw [UInt32.toNat_add, hdiff, hc]
      omega
    constructor
    · rintro rfl
      change (c.val + ('a'.val - 'A'.val)).toNat < _ ∨
        _ < (c.val + ('a'.val - 'A'.val)).toNat ∧ (c.val + ('a'.val - 'A'.val)).toNat < _ at hw
      omega
    · rintro rfl
      omega
  next => exact Iff.rfl

theorem toLower_eq_underscore (c : Char) : c.toLower = '_' ↔ c = '_' := toLower_eq_iff (by decide)

theorem toLower_eq_percent (c : Char) : c.toLower = '%' ↔ c = '%' := toLower_eq_iff (by decide)

/-- The folding of ASCII letters, which is that of column names. -/
def CaseFold.ascii : CaseFold := ⟨Char.toLower, toLower_eq_underscore, toLower_eq_percent⟩

/-! ## The lookup -/

/-- A row of `duckdb_tables()`, with the table it is about. -/
structure TableRow where
  databaseName : String
  schemaName : String
  tableName : String
  temporary : Bool := false
  duck : DuckTable
  deriving DecidableEq, Repr

/-- A table with its name, as the lookup returns it. -/
structure FoundTable where
  name : String
  table : Table
  deriving DecidableEq, Repr

structure Database where
  catalog : String
  name : String
  deriving DecidableEq, Repr

/-- The schema of the table can be read. -/
def TableRow.Readable (env : Env) (row : TableRow) : Prop := ∃ t, load env row.duck = .ok t

/-- The loop of `tablesInsensitive` over the tables that were found. -/
def loadTables (env : Env) : List TableRow → Outcome AlterError (List FoundTable)
  | [] => .ok []
  | row :: rows =>
    match load env row.duck with
    | .error e _ => .error e []
    | .panic => .panic
    | .ok t =>
      match loadTables env rows with
      | .ok ts => .ok (⟨row.tableName, t⟩ :: ts)
      | .error e ts => .error e ts
      | .panic => .panic

namespace Database

variable (fold : CaseFold) (env : Env) (d : Database) (rows : List TableRow)

def findTables (pattern : String) : List TableRow :=
  rows.filter fun row =>
    (row.databaseName = d.catalog && row.schemaName = d.name &&
      fold.ilike row.tableName pattern) || (row.temporary && fold.ilike row.tableName pattern)

def tablesInsensitive (pattern : String) : Outcome AlterError (List FoundTable) :=
  loadTables env (d.findTables fold rows pattern)

def getTableInsensitive (tblName : String) : Outcome AlterError (Option FoundTable) :=
  match d.tablesInsensitive fold env rows tblName with
  | .ok [] => .ok none
  | .ok (t :: _) => .ok (some t)
  | .error e _ => .error e none
  | .panic => .panic

/-! ## What is looked for -/

/-- A table of the database, or a temporary one. -/
def Holds (row : TableRow) : Prop :=
  (row.databaseName = d.catalog ∧ row.schemaName = d.name) ∨ row.temporary = true

def Has (tblName : String) : Prop :=
  ∃ row ∈ rows, d.Holds row ∧ fold.SameName row.tableName tblName

/-- A table is returned if and only if some table has the name, and the
table returned has it. -/
structure Exact (tblName : String) (result : Outcome AlterError (Option FoundTable)) : Prop where
  found : (∃ t, result = .ok (some t)) ↔ d.Has fold rows tblName
  named : ∀ t, result = .ok (some t) → fold.SameName t.name tblName

variable {fold env d rows}

theorem mem_findTables {pattern : String} {row : TableRow} :
    row ∈ d.findTables fold rows pattern ↔
      row ∈ rows ∧ d.Holds row ∧ fold.ilike row.tableName pattern = true := by
  simp only [findTables, List.mem_filter, Holds, Bool.or_eq_true, Bool.and_eq_true,
    decide_eq_true_eq]
  tauto

end Database

/-- The tables are loaded when all schemas can be read. They keep their
names and their order. -/
theorem loadTables_of_readable {env : Env} {rows : List TableRow}
    (h : ∀ row ∈ rows, row.Readable env) :
    ∃ ts, loadTables env rows = .ok ts ∧
      ts.map FoundTable.name = rows.map TableRow.tableName := by
  induction rows with
  | nil => exact ⟨[], rfl, rfl⟩
  | cons row rows ih =>
    obtain ⟨⟨t, ht⟩, hrows⟩ := List.forall_mem_cons.mp h
    obtain ⟨ts, hts, hnames⟩ := ih hrows
    refine ⟨⟨row.tableName, t⟩ :: ts, ?_, ?_⟩
    · simp only [loadTables, ht, hts]
    · rw [List.map_cons, List.map_cons, hnames]

namespace Database

variable {fold : CaseFold} {env : Env} {d : Database} {rows : List TableRow} {tblName : String}

/-- **What is returned**: the first table found, under its own name. -/
theorem getTableInsensitive_spec (fold : CaseFold) (tblName : String)
    (h : ∀ row ∈ rows, d.Holds row → row.Readable env) :
    ∃ found, d.getTableInsensitive fold env rows tblName = .ok found ∧
      found.map FoundTable.name
        = (d.findTables fold rows tblName).head?.map TableRow.tableName := by
  have hreadable : ∀ row ∈ d.findTables fold rows tblName, row.Readable env := by
    intro row hrow
    obtain ⟨hmem, hholds, -⟩ := mem_findTables.mp hrow
    exact h row hmem hholds
  obtain ⟨ts, hts, hnames⟩ := loadTables_of_readable hreadable
  refine ⟨ts.head?, ?_, ?_⟩
  · rw [getTableInsensitive, tablesInsensitive, hts]
    cases ts <;> rfl
  · rw [← List.head?_map, ← List.head?_map, hnames]

/-- Every table that matches the name as a pattern has the name, or one
that has it stands in front. -/
def NoneAhead (fold : CaseFold) (d : Database) (rows : List TableRow) (tblName : String) : Prop :=
  ∀ pre row post, rows = pre ++ row :: post → d.Holds row →
    fold.ilike row.tableName tblName = true → fold.SameName row.tableName tblName ∨
      ∃ named ∈ pre, d.Holds named ∧ fold.SameName named.tableName tblName

/-- This is so exactly when the first table found has the name. -/
theorem noneAhead_iff : NoneAhead fold d rows tblName ↔
    ∀ row, (d.findTables fold rows tblName).head? = some row →
      fold.SameName row.tableName tblName := by
  constructor
  · intro h row hhead
    obtain ⟨more, hfound⟩ := List.head?_eq_some_iff.mp hhead
    obtain ⟨pre, post, hrows, hpre, -⟩ := List.filter_eq_cons_iff.mp hfound
    obtain ⟨-, hholds, hlike⟩ := mem_findTables.mp (List.mem_of_head? hhead)
    rcases h pre row post hrows hholds hlike with hsame | ⟨named, hnamed, hholds', hsame⟩
    · exact hsame
    · have hfind : named ∈ d.findTables fold pre tblName :=
        mem_findTables.mpr ⟨hnamed, hholds', CaseFold.ilike_of_sameName hsame⟩
      exact absurd (List.mem_filter.mp hfind).2 (hpre named hnamed)
  · rintro h pre row post rfl hholds hlike
    have hfound : row ∈ d.findTables fold [row] tblName :=
      mem_findTables.mpr ⟨List.mem_singleton_self row, hholds, hlike⟩
    -- the first table found is one of `pre`, or the row itself
    have happend : d.findTables fold (pre ++ row :: post) tblName
        = d.findTables fold pre tblName ++ row :: d.findTables fold post tblName := by
      rw [findTables, List.filter_append, List.filter_cons, if_pos (List.mem_filter.mp hfound).2]
      rfl
    rw [happend] at h
    cases hpre : d.findTables fold pre tblName with
    | nil =>
      rw [hpre] at h
      exact .inl (h row rfl)
    | cons named more =>
      rw [hpre] at h
      have hnamed : named ∈ d.findTables fold pre tblName := hpre ▸ List.mem_cons_self
      obtain ⟨hmem, hholds', -⟩ := mem_findTables.mp hnamed
      exact .inr ⟨named, hmem, hholds', h named rfl⟩

/-- The lookup is exact when the first table found has the name. -/
theorem exact_iff_noneAhead (h : ∀ row ∈ rows, d.Holds row → row.Readable env) :
    d.Exact fold rows tblName (d.getTableInsensitive fold env rows tblName) ↔
      NoneAhead fold d rows tblName := by
  obtain ⟨found, hfound, hname⟩ := getTableInsensitive_spec fold tblName h
  rw [noneAhead_iff, hfound]
  constructor
  · rintro ⟨-, hnamed⟩ row hhead
    rw [hhead, Option.map_some] at hname
    obtain ⟨t, rfl, ht⟩ := Option.map_eq_some_iff.mp hname
    rw [← ht]
    exact hnamed t rfl
  · intro hfirst
    refine ⟨⟨?_, ?_⟩, ?_⟩
    · rintro ⟨t, ht⟩
      obtain rfl := Outcome.ok.inj ht
      obtain ⟨row, hhead, -⟩ := Option.map_eq_some_iff.mp hname.symm
      obtain ⟨hrow, hholds, -⟩ := mem_findTables.mp (List.mem_of_head? hhead)
      exact ⟨row, hrow, hholds, hfirst row hhead⟩
    · rintro ⟨row, hrow, hholds, hsame⟩
      have hmem : row ∈ d.findTables fold rows tblName :=
        mem_findTables.mpr ⟨hrow, hholds, CaseFold.ilike_of_sameName hsame⟩
      obtain ⟨more, rest, hcons⟩ := List.exists_cons_of_ne_nil (List.ne_nil_of_mem hmem)
      rw [hcons, List.head?_cons, Option.map_some] at hname
      obtain ⟨t, rfl, -⟩ := Option.map_eq_some_iff.mp hname
      exact ⟨t, rfl⟩
    · intro t ht
      obtain rfl := Outcome.ok.inj ht
      obtain ⟨row, hhead, hrow⟩ := Option.map_eq_some_iff.mp hname.symm
      rw [← hrow]
      exact hfirst row hhead

end Database

/-- A table without columns, and a mapping without types. -/
def emptyTable : DuckTable := { columns := [], comment := { metadata := {} } }

def emptyEnv : Env := ⟨fun _ => none, fun _ _ => none, fun _ => none, false⟩

def emptyRow (d : Database) (name : String) : TableRow :=
  { databaseName := d.catalog, schemaName := d.name, tableName := name, duck := emptyTable }

theorem emptyRow_readable (d : Database) (name : String) : (emptyRow d name).Readable emptyEnv :=
  ⟨_, rfl⟩

end MyDuck.Catalog
