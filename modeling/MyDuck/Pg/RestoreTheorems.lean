/-
MyDuck.Pg.RestoreTheorems — which files BACKUP and RESTORE touch.

The name of a statement is any run of characters that are not spaces
(`parseSQL_statementName`). Joined to the data directory it leads to the
file of that name there exactly when it has no slash (`fileAt_eq_iff`), and
nothing asks whether that file belongs to a catalog that is attached.
`backup_restore_iff` puts this together.
-/
import MyDuck.Base.Run
import MyDuck.Pg.BackupTheorems
import MyDuck.Pg.Restore

namespace MyDuck.Restore

open GoText Paths Regex

/-! ## The name in the statement -/

/-- A word is spelled without regard to case. -/
def Spelled (word : String) (s : Text) : Prop :=
  List.Forall₂ (fun c d => folds c d = true) word.toList s

def Gap (s : Text) : Prop := s ≠ [] ∧ ∀ c ∈ s, isSpace c = true

/-- The statement with this verb stands in the text, and the name is the
run behind DATABASE, without the space characters at its ends that the
expression does not know. -/
def StatementName (kind : Kind) (sql name : Text) : Prop :=
  ∃ before verb gap database gap' run gap'' after,
    sql = before ++ verb ++ gap ++ database ++ gap' ++ run ++ gap'' ++ after ∧
      Spelled kind.verb verb ∧ Gap gap ∧ Spelled "DATABASE" database ∧ Gap gap' ∧
      (run ≠ [] ∧ ∀ c ∈ run, isSpace c = false) ∧ Gap gap'' ∧ name = trimSpace run

theorem spelled_of_matches {w : String} {s : Text} {c : Captures}
    (h : Matches (keyword w) s c) : Spelled w s ∧ c = [] := by
  obtain ⟨hall, rfl⟩ := h.word
  exact ⟨List.forall₂_map_left_iff.mp hall, rfl⟩

theorem gap_of_matches {s : Text} {c : Captures} (h : Matches spaces s c) : Gap s ∧ c = [] :=
  ⟨⟨h.plus_char.1, h.plus_char.2.1⟩, h.plus_char.2.2⟩

theorem one_not_mem_groups_tailExpr (kind : Kind) : 1 ∉ groups (tailExpr kind.preposition) := by
  cases kind <;> decide

/-- What a match of the whole expression looks like. -/
theorem statementName_of_matches {kind : Kind} {s : Text} {c : Captures}
    (h : Matches kind.regex s c) (before rest : Text) :
    StatementName kind (before ++ (s ++ rest)) (trimSpace (submatch c 1)) := by
  obtain ⟨verb, _, _, _, rfl, rfl, hverb, h⟩ := matches_seq.mp h
  obtain ⟨gap, _, _, _, rfl, rfl, hgap, h⟩ := matches_seq.mp h
  obtain ⟨database, _, _, _, rfl, rfl, hdatabase, h⟩ := matches_seq.mp h
  obtain ⟨gap', _, _, _, rfl, rfl, hgap', h⟩ := matches_seq.mp h
  obtain ⟨run, _, _, later, rfl, rfl, hrun, htail⟩ := matches_seq.mp h
  have hlater : ∀ p ∈ later, p.1 ≠ 1 := fun p hp hone =>
    one_not_mem_groups_tailExpr kind (hone ▸ htail.captures_mem p hp)
  obtain ⟨gap'', after, _, _, rfl, -, hgap'', -⟩ := matches_seq.mp htail
  obtain ⟨hverbIs, rfl⟩ := spelled_of_matches hverb
  obtain ⟨hgapIs, rfl⟩ := gap_of_matches hgap
  obtain ⟨hdatabaseIs, rfl⟩ := spelled_of_matches hdatabase
  obtain ⟨hgapIs', rfl⟩ := gap_of_matches hgap'
  obtain ⟨_, rfl, hinner⟩ := matches_group.mp hrun
  obtain ⟨hne, hnone, rfl⟩ := hinner.plus_char
  refine ⟨before, verb, gap, database, gap', run, gap'', after ++ rest, by simp, hverbIs, hgapIs,
    hdatabaseIs, hgapIs', ⟨hne, fun c hc => ?_⟩, (gap_of_matches hgap'').1, ?_⟩
  · simpa using hnone c hc
  · have hname : submatch ([] ++ [(1, run)] ++ later) 1 = run := submatch_append_of_not_mem hlater
    simpa using congrArg trimSpace hname

theorem require_eq_ok {kind : Kind} {what : String} {value v : Text}
    (h : require kind what value = .ok v) : v = value := by
  unfold require at h
  split at h
  · cases h
  · cases h
    rfl

/-- **The name of an accepted statement** stands in it. -/
theorem parseSQL_statementName {parseUrl : Text → Option Url} {kind : Kind} {sql : Text}
    {config : Config} (h : parseSQL parseUrl kind sql = .ok (some config)) :
    StatementName kind sql config.dbName := by
  unfold parseSQL at h
  cases hfind : find kind.regex sql with
  | none =>
    rw [hfind] at h
    cases h
  | some found =>
    rw [hfind] at h
    obtain ⟨before, rfl, hmatch⟩ := find_sound hfind
    have hname : config.dbName = trimSpace (submatch found.captures 1) := by
      obtain ⟨dbName, hdbName, h⟩ := Strings.bind_eq_ok.mp h
      obtain ⟨remoteUri, -, h⟩ := Strings.bind_eq_ok.mp h
      obtain ⟨endpoint, -, h⟩ := Strings.bind_eq_ok.mp h
      obtain ⟨accessKeyId, -, h⟩ := Strings.bind_eq_ok.mp h
      obtain ⟨secretAccessKey, -, h⟩ := Strings.bind_eq_ok.mp h
      obtain ⟨constructed, -, h⟩ := Strings.bind_eq_ok.mp h
      cases h
      exact require_eq_ok hdbName
    rw [hname]
    exact statementName_of_matches hmatch before found.rest

/-! ## The file of a name -/

def Kind.access : Kind → Place → Access
  | .backup => .read
  | .restore => .write

namespace Machine

variable {fails : Op → Bool} {m : Machine} {config : Config}

def dataPlace (m : Machine) : List Name := (m.cwd.follow m.dataDir).names

theorem fileAt_names (m : Machine) (localFile : Text) :
    (m.fileAt localFile).names = (localFile.splitOn '/').foldl step m.dataPlace :=
  resolve_join m.dataDir_ne m.cwd.names localFile

theorem real_append_dbSuffix {name : Text} (h : '/' ∉ name) : Real (name ++ dbSuffix) := by
  have hlength : 3 ≤ (name ++ dbSuffix).length := by
    have hthree : dbSuffix.length = 3 := by decide
    rw [List.length_append, hthree]
    omega
  have hslash : '/' ∉ dbSuffix := by decide
  refine ⟨fun heq => ?_, fun heq => ?_, fun heq => ?_, by simp [h, hslash]⟩
  all_goals
    rw [heq] at hlength
    simp at hlength

/-- A file with a real name is in the data directory. -/
theorem fileAt_real {localFile : Text} (h : Real localFile) (m : Machine) :
    (m.fileAt localFile).names = m.dataPlace ++ [localFile] := by
  rw [fileAt_names, splitOn_of_not_mem h.2.2.2, List.foldl_cons, List.foldl_nil, step_real h]

/-- **The file of a name** is the one of that name in the data directory
when the name has no slash, and only then. -/
theorem fileAt_eq_iff (m : Machine) (name : Text) :
    (m.fileAt (name ++ dbSuffix)).names = m.dataPlace ++ [name ++ dbSuffix] ↔ '/' ∉ name := by
  refine ⟨fun h hslash => ?_, fun h => fileAt_real (real_append_dbSuffix h) m⟩
  have hreal : Real (name ++ dbSuffix) :=
    (m.fileAt (name ++ dbSuffix)).real _ (h ▸ List.mem_append_right _ List.mem_cons_self)
  exact hreal.2.2.2 (List.mem_append_left _ hslash)

/-! ## The steps of the server -/

section Steps

variable {bfails : Backup.Operation → Bool}

/-- The call returns, normally or with an error. -/
def Returns (o : Outcome Backup.Operation Backup.Server) : Prop := o.Leaves fun _ => True

theorem serverAttempt_returns (op : Backup.Operation) (s : Backup.Server) :
    Returns (Backup.attempt bfails op s) := by
  unfold Backup.attempt
  split <;> trivial

theorem setReplication_returns (enabled : Bool) (s : Backup.Server) :
    Returns (s.setReplication bfails enabled) :=
  (serverAttempt_returns _ _).andThen fun _ _ => (serverAttempt_returns _ _).andThen fun _ _ =>
    (serverAttempt_returns _ _).andThen fun _ h => h

theorem restart_returns (readOnly : Bool) (s : Backup.Server) :
    Returns (s.restart bfails readOnly) :=
  (serverAttempt_returns _ _).andThen fun _ _ => (serverAttempt_returns _ _).andThen fun _ _ =>
    (serverAttempt_returns _ _).andThen fun _ h => h

theorem prepareBackup_returns (s : Backup.Server) : Returns (prepareBackup fails s) :=
  (serverAttempt_returns _ _).andThen fun _ _ => (setReplication_returns _ _).andThen fun s _ =>
    ((serverAttempt_returns _ s).andThen fun _ _ => serverAttempt_returns _ _).andThen fun _ _ =>
      restart_returns _ _

end Steps

/-- A step of the server changes nothing else. -/
theorem onServer_leaves {run : Backup.Server → Outcome Backup.Operation Backup.Server}
    {Q : Machine → Prop} (h : Returns (run m.server)) (hQ : ∀ s, Q { m with server := s }) :
    (m.onServer run).Leaves Q := by
  unfold onServer
  cases hrun : run m.server with
  | ok s => exact hQ s
  | error op s => exact hQ s
  | panic =>
    rw [hrun] at h
    exact h

/-! ## What is touched -/

theorem attempt_leaves {P : Machine → Prop} (h : P m) (op : Op) :
    (attempt fails op m).Leaves P := by
  unfold attempt
  split <;> exact h

theorem attempt_of_false {op : Op} (h : fails op = false) (m : Machine) :
    attempt fails op m = .ok m := by
  simp [attempt, h]

/-- The statement gets as far as its file. -/
def Opens (m : Machine) (fails : Op → Bool) : Kind → Prop
  | .backup => (∃ s, prepareBackup fails m.server = .ok s) ∧
      fails .buildConfig = false ∧ fails .stat = false ∧ fails .openFile = false
  | .restore => fails .buildConfig = false ∧ fails .create = false

def Touched (t : List Access) (m : Machine) : Prop := m.touched = t

variable {t : List Access}

theorem attachCatalog_touched (h : Touched t m) (fileName : Text) :
    (m.attachCatalog fails fileName).Leaves (Touched t) := by
  unfold attachCatalog
  split
  · refine (attempt_leaves h .attach).andThen fun m h => ?_
    show Touched t (m.attached _ _)
    unfold attached
    split <;> exact h
  · exact h

/-- RESTORE creates its file, and touches no other. -/
theorem executeRestore_touched (fails : Op → Bool) (config : Config) (h : Touched t m) :
    (m.executeRestore fails config).Leaves (Touched
      (if fails .buildConfig = false ∧ fails .create = false then
        t ++ [.write (m.fileAt (config.dbName ++ dbSuffix))] else t)) := by
  have hlater : ∀ t m, (Touched t) m → ((attempt fails .stat m).andThen fun m =>
      m.attachCatalog fails (base (m.localFullPath (config.dbName ++ dbSuffix)))).Leaves
        (Touched t) := fun t m h =>
    (attempt_leaves h .stat).andThen fun m h => attachCatalog_touched h _
  unfold executeRestore downloadFile
  cases hbuild : fails .buildConfig with
  | true => simpa [attempt, hbuild, Outcome.Leaves] using h
  | false =>
    cases hcreate : fails .create with
    | true => simpa [attempt, hbuild, hcreate, Outcome.Leaves] using h
    | false =>
      rw [attempt_of_false hbuild, Outcome.andThen_ok, attempt_of_false hcreate,
        Outcome.andThen_ok, if_pos ⟨rfl, rfl⟩]
      refine (attempt_leaves ?_ .transfer).andThen fun m h => hlater _ m h
      exact congrArg (· ++ [_]) h

theorem uploadFile_touched (h : Touched t m) :
    (m.uploadFile fails config).Leaves (Touched
      (if fails .buildConfig = false ∧ fails .stat = false ∧ fails .openFile = false then
        t ++ [.read (m.fileAt (config.dbName ++ dbSuffix))] else t)) := by
  unfold uploadFile
  cases hbuild : fails .buildConfig with
  | true => simpa [attempt, hbuild, Outcome.Leaves] using h
  | false =>
    cases hstat : fails .stat with
    | true => simpa [attempt, hbuild, hstat, Outcome.Leaves] using h
    | false =>
      cases hopen : fails .openFile with
      | true => simpa [attempt, hbuild, hstat, hopen, Outcome.Leaves] using h
      | false =>
        rw [attempt_of_false hbuild, Outcome.andThen_ok, attempt_of_false hstat,
          Outcome.andThen_ok, attempt_of_false hopen, Outcome.andThen_ok, if_pos ⟨rfl, rfl, rfl⟩]
        refine (attempt_leaves ?_ .transfer).andThen fun m h => h
        exact congrArg (· ++ [_]) h

/-- BACKUP opens its file, once the server is prepared. -/
theorem executeBackup_touched (config : Config) (h : Touched t m) {s : Backup.Server}
    (hprepare : prepareBackup fails m.server = .ok s) :
    (m.executeBackup fails config).Leaves (Touched
      (if fails .buildConfig = false ∧ fails .stat = false ∧ fails .openFile = false then
        t ++ [.read (m.fileAt (config.dbName ++ dbSuffix))] else t)) := by
  have hserver : m.onServer (prepareBackup fails) = .ok { m with server := s } := by
    rw [onServer, hprepare]
  unfold executeBackup
  rw [hserver, Outcome.andThen_ok]
  exact (uploadFile_touched (m := { m with server := s }) h).andThen fun m h =>
    (onServer_leaves (restart_returns _ _) fun _ => h).andThen fun _ h =>
      onServer_leaves (setReplication_returns _ _) fun _ => h

theorem executeBackup_untouched (h : Touched t m)
    (hprepare : ¬ ∃ s, prepareBackup fails m.server = .ok s) :
    (m.executeBackup fails config).Leaves (Touched t) := by
  have hreturns : Returns (prepareBackup fails m.server) := prepareBackup_returns _
  unfold executeBackup onServer
  cases hserver : prepareBackup fails m.server with
  | ok s => exact absurd ⟨s, hserver⟩ hprepare
  | error op s => exact h
  | panic =>
    rw [hserver] at hreturns
    exact hreturns.elim

theorem untouched_touched (m : Machine) : Touched [] m.untouched := rfl

theorem touches_eq {kind : Kind} (h : (execute fails kind config m.untouched).Leaves (Touched t)) :
    m.touches fails kind config = t := by
  obtain ⟨m', hstate, hm'⟩ := h.state?
  rw [touches, hstate]
  exact hm'

/-- **The one file a statement touches**, if it gets there. -/
theorem touches_of_opens {kind : Kind} (h : m.Opens fails kind) :
    m.touches fails kind config = [kind.access (m.fileAt (config.dbName ++ dbSuffix))] := by
  cases kind with
  | backup =>
    obtain ⟨⟨s, hprepare⟩, hopen⟩ := h
    have htouched := executeBackup_touched config (untouched_touched m) hprepare
    rw [if_pos hopen] at htouched
    exact touches_eq htouched
  | restore =>
    have htouched := executeRestore_touched fails config (untouched_touched m)
    rw [if_pos (show _ ∧ _ from h)] at htouched
    exact touches_eq htouched

theorem touches_of_not_opens {kind : Kind} (h : ¬ m.Opens fails kind) :
    m.touches fails kind config = [] := by
  cases kind with
  | backup =>
    by_cases hprepare : ∃ s, prepareBackup fails m.server = .ok s
    · obtain ⟨s, hs⟩ := hprepare
      have htouched := executeBackup_touched config (untouched_touched m) hs
      rw [if_neg fun hopen => h ⟨⟨s, hs⟩, hopen⟩] at htouched
      exact touches_eq htouched
    · exact touches_eq (executeBackup_untouched (untouched_touched m) hprepare)
  | restore =>
    have htouched := executeRestore_touched fails config (untouched_touched m)
    rw [if_neg (show ¬ (_ ∧ _) from h)] at htouched
    exact touches_eq htouched

/-! ## The statements -/

/-- The file belongs to a catalog that is attached. -/
def AttachedFile (m : Machine) (file : Place) : Prop :=
  ∃ c ∈ m.server.provider.attached, m.catalogFile c = some file

/-- The file is the one of the name in the data directory, and no catalog
is written over. -/
def Proper (m : Machine) (name : Text) : Access → Prop
  | .read file => file.names = m.dataPlace ++ [name ++ dbSuffix]
  | .write file => file.names = m.dataPlace ++ [name ++ dbSuffix] ∧ ¬ m.AttachedFile file

end Machine

/-- **BACKUP and RESTORE touch only the file of the database** that the
statement names exactly when they do not get as far as a file, or the name
has no slash and RESTORE finds no catalog with that file. -/
theorem backup_restore_iff {parseUrl : Text → Option Url} {kind : Kind} {sql : Text}
    {config : Config} (h : parseSQL parseUrl kind sql = .ok (some config)) (fails : Op → Bool)
    (m : Machine) :
    StatementName kind sql config.dbName ∧
      ((∀ a ∈ m.touches fails kind config, m.Proper config.dbName a) ↔
        ¬ m.Opens fails kind ∨
          ('/' ∉ config.dbName ∧
            (kind = .restore → ¬ m.AttachedFile (m.fileAt (config.dbName ++ dbSuffix))))) := by
  refine ⟨parseSQL_statementName h, ?_⟩
  by_cases hopens : m.Opens fails kind
  · rw [Machine.touches_of_opens hopens, ← m.fileAt_eq_iff]
    cases kind with
    | backup | restore => simp [Kind.access, Machine.Proper, hopens]
  · rw [Machine.touches_of_not_opens hopens]
    simp [hopens]

/-- The statement that restores a database of this name. -/
def sampleSQL (name : String) : Text :=
  "RESTORE DATABASE ".toList ++ name.toList ++
    " FROM 's3c://b/k' ENDPOINT = 'e' ACCESS_KEY_ID = 'a' SECRET_ACCESS_KEY = 's'".toList

def sampleUrl (uri : Text) : Option Url :=
  if uri = "s3c://b/k".toList then some ⟨"s3c".toList, "b".toList, "/k".toList⟩ else none

def sampleConfig (name : String) : Config :=
  ⟨name.toList, "b/k".toList,
    ⟨"s3c".toList, "e".toList, "my-duck-server".toList, "a".toList, "s".toList⟩⟩

/-- A server with the catalog `mysql` in its data directory `/data`. -/
def sampleMachine : Machine where
  server := Backup.sampleServer true {"mysql"}
  dataDir := "/data".toList
  dataDir_ne := List.cons_ne_nil '/' "data".toList
  cwd := .root
  catalogFile c := if c = "mysql" then some (Place.root.follow "/data/mysql.db".toList) else none

theorem backup_restore_iff_plain :
    StatementName .restore (sampleSQL "x") "x".toList ∧
      sampleMachine.Opens (fun _ => false) .restore ∧
      ¬ ∃ a ∈ sampleMachine.touches (fun _ => false) .restore (sampleConfig "x"),
        ¬ sampleMachine.Proper "x".toList a := by
  have hparse : parseSQL sampleUrl .restore (sampleSQL "x") = .ok (some (sampleConfig "x")) := by
    decide +kernel
  have hfree : ¬ sampleMachine.AttachedFile (sampleMachine.fileAt ("x".toList ++ dbSuffix)) := by
    unfold Machine.AttachedFile
    decide
  have hiff := backup_restore_iff hparse (fun _ => false) sampleMachine
  have hproper := hiff.2.mpr (.inr ⟨by decide, fun _ => hfree⟩)
  refine ⟨hiff.1, ⟨rfl, rfl⟩, ?_⟩
  rintro ⟨a, ha, hnot⟩
  exact hnot (hproper a ha)

/-- RESTORE of `../x` writes outside the data directory, and RESTORE of
`mysql` over the catalog that is attached. -/
theorem restore_writes_elsewhere :
    (parseSQL sampleUrl .restore (sampleSQL "../x") = .ok (some (sampleConfig "../x")) ∧
      sampleMachine.dataPlace = ["data".toList] ∧
      ∃ file, sampleMachine.touches (fun _ => false) .restore (sampleConfig "../x") =
        [.write file] ∧ file.names = ["x.db".toList] ∧
          ¬ sampleMachine.Proper "../x".toList (.write file)) ∧
    (parseSQL sampleUrl .restore (sampleSQL "mysql") = .ok (some (sampleConfig "mysql")) ∧
      ∃ file, sampleMachine.touches (fun _ => false) .restore (sampleConfig "mysql") =
        [.write file] ∧ sampleMachine.AttachedFile file ∧
          ¬ sampleMachine.Proper "mysql".toList (.write file)) := by
  have hoverwritten : sampleMachine.AttachedFile
      (sampleMachine.fileAt ("mysql".toList ++ dbSuffix)) := ⟨"mysql", by decide, by decide⟩
  refine ⟨⟨by decide +kernel, by decide, _, Machine.touches_of_opens ⟨rfl, rfl⟩, by decide,
    fun h => ?_⟩, by decide +kernel, _, Machine.touches_of_opens ⟨rfl, rfl⟩, hoverwritten,
    fun h => h.2 hoverwritten⟩
  exact absurd h.1 (by decide)

end MyDuck.Restore
