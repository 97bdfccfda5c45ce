/-
MyDuck.Pg.Restore — the files behind BACKUP and RESTORE
(`backup_handler.go`, `restore_handler.go`, `object_storage.go` and
`object_storage_client.go`).

A statement is found by a regular expression, somewhere in the text of the
query. Its name is joined to the data directory; BACKUP opens that file
for reading, RESTORE creates it, or empties it if it is there, and then
attaches it as a catalog. Every operation may fail.

The steps of BACKUP that work on the server are those of MyDuck.Pg.Backup;
here its upload is taken apart. `url.Parse` is a parameter. Texts are read
by characters. The file that RESTORE has created is not a directory.
-/
import MyDuck.Base.GoText
import MyDuck.Base.Path
import MyDuck.Base.Regex
import MyDuck.Pg.Backup

namespace MyDuck.Restore

open GoText Paths Regex

abbrev Text := List Char

/-! ## The statements -/

inductive Kind where
  | backup
  | restore
  deriving DecidableEq, Repr

/-- What a letter of the pattern matches without regard to case: two
letters have a third form outside ASCII. -/
def folds (c d : Char) : Bool :=
  c.toLower == d.toLower || (c.toLower == 's' && d == Char.ofNat 0x17f) ||
    (c.toLower == 'k' && d == Char.ofNat 0x212a)

def keyword (w : String) : Expr := sequence ((w.toList.map folds).map .char)

/-- `\s`: tab, newline, form feed, carriage return and space. -/
def isSpace (c : Char) : Bool := [0x09, 0x0a, 0x0c, 0x0d, 0x20].contains c.toNat

def isQuote (c : Char) : Bool := c == Char.ofNat 0x27

def spaces : Expr := plus (.char isSpace)

/-- The name of the database: `\S+`. -/
def nameExpr : Expr := .group 1 (plus (.char fun c => !isSpace c))

/-- `(?:\s+NAME\s*=\s*'([^']+)')?`. -/
def optionExpr (name : String) (i : Nat) : Expr :=
  optional (sequence [spaces, keyword name, .star (.char isSpace), .char (· == '='),
    .star (.char isSpace), .char isQuote, .group i (plus (.char fun c => !isQuote c)),
    .char isQuote])

/-- What stands behind the name. -/
def tailExpr (preposition : String) : Expr :=
  sequence [spaces, keyword preposition, spaces, .char isQuote,
    .group 2 (sequence [keyword "s3", optional (keyword "c"), keyword "://",
      plus (.char fun c => !isQuote c)]), .char isQuote,
    optionExpr "ENDPOINT" 3, optionExpr "ACCESS_KEY_ID" 4, optionExpr "SECRET_ACCESS_KEY" 5]

def statementExpr (verb preposition : String) : Expr :=
  .seq (keyword verb) (.seq spaces (.seq (keyword "DATABASE") (.seq spaces
    (.seq nameExpr (tailExpr preposition)))))

def Kind.verb : Kind → String
  | .backup => "BACKUP"
  | .restore => "RESTORE"

def Kind.preposition : Kind → String
  | .backup => "TO"
  | .restore => "FROM"

/-- `backupRegex` and `restoreRegex`. -/
def Kind.regex (kind : Kind) : Expr := statementExpr kind.verb kind.preposition

/-! ## The object storage -/

structure ObjectStorageConfig where
  provider : Text
  endpoint : Text
  region : Text
  accessKeyId : Text
  secretAccessKey : Text
  deriving DecidableEq, Repr

/-- `BackupConfig` and `RestoreConfig`. -/
structure Config where
  dbName : Text
  remotePath : Text
  storage : ObjectStorageConfig
  deriving DecidableEq, Repr

inductive ParseError where
  | missing (kind : Kind) (what : String)
  | invalidUri
  | unsupportedProvider
  | missingRegion (endpoint : Text)
  deriving DecidableEq, Repr

/-- What is used of `url.URL`. -/
structure Url where
  scheme : Text
  host : Text
  path : Text
  deriving DecidableEq, Repr

/-- `strings.EqualFold`, with a word of ASCII letters. -/
def equalFold (s : Text) (word : String) : Bool :=
  s.length == word.toList.length && (List.zipWith folds word.toList s).all id

/-- `parseS3RegionCode`: the segment in front of `amazonaws.com`. -/
def parseS3RegionCode (endpoint : Text) : Text :=
  let segments := (endpoint.splitOn '.').reverse
  let segments := if (segments.head?.any fun s => equalFold s "cn") then segments.tail else segments
  match segments with
  | com :: amazonaws :: region :: _ =>
    if equalFold com "com" && equalFold amazonaws "amazonaws" && !equalFold region "s3" then region
    else []
  | _ => []

def parseRegionFromEndpoint (provider endpoint : Text) : Except ParseError Text :=
  if provider = "s3".toList then
    let region := parseS3RegionCode endpoint
    if region = [] then .error (.missingRegion endpoint) else .ok region
  else .ok "my-duck-server".toList

section Parse

variable (parseUrl : Text → Option Url)

def parseProviderAndPath (uri : Text) : Except ParseError (Text × Text) :=
  match parseUrl uri with
  | none => .error .invalidUri
  | some url =>
    let provider := url.scheme.map Char.toLower
    if provider = "s3".toList ∨ provider = "s3c".toList then .ok (provider, url.host ++ url.path)
    else .error .unsupportedProvider

def constructStorageConfig (remoteUri endpoint accessKeyId secretAccessKey : Text) :
    Except ParseError (ObjectStorageConfig × Text) :=
  (parseProviderAndPath parseUrl remoteUri).bind fun parsed =>
  (parseRegionFromEndpoint parsed.1 endpoint).bind fun region =>
  .ok (⟨parsed.1, endpoint, region, accessKeyId, secretAccessKey⟩, parsed.2)

def require (kind : Kind) (what : String) (value : Text) : Except ParseError Text :=
  if value = [] then .error (.missing kind what) else .ok value

/-- `parseBackupSQL` and `parseRestoreSQL`; both name the URI by `TO`. -/
def parseSQL (kind : Kind) (sql : Text) : Except ParseError (Option Config) :=
  match find kind.regex sql with
  | none => .ok none
  | some found =>
    let field (i : Nat) : Text := trimSpace (submatch found.captures i)
    (require kind "DATABASE" (field 1)).bind fun dbName =>
    (require kind "TO '<URI>'" (field 2)).bind fun remoteUri =>
    (require kind "ENDPOINT" (field 3)).bind fun endpoint =>
    (require kind "ACCESS_KEY_ID" (field 4)).bind fun accessKeyId =>
    (require kind "SECRET_ACCESS_KEY" (field 5)).bind fun secretAccessKey =>
    (constructStorageConfig parseUrl remoteUri endpoint accessKeyId secretAccessKey).bind
      fun constructed => .ok (some ⟨dbName, constructed.2, constructed.1⟩)

end Parse

/-! ## The machine -/

/-- A file is opened for reading, or created or emptied. -/
inductive Access where
  | read (file : Place)
  | write (file : Place)
  deriving DecidableEq

/-- The server and the files. `catalogFile` has the files of the catalogs,
of those that have one. A provider does not start without a data
directory. -/
structure Machine where
  server : Backup.Server
  dataDir : Text
  dataDir_ne : dataDir ≠ []
  cwd : Place
  catalogFile : String → Option Place
  touched : List Access := []

inductive Op where
  | server (op : Backup.Operation)
  | buildConfig
  | stat
  | openFile
  | create
  | transfer
  | attach
  deriving DecidableEq, Repr

def dbSuffix : Text := ".db".toList

namespace Machine

/-- The file of a name, as it is joined to the data directory. -/
def localFullPath (m : Machine) (localFile : Text) : Text := join m.dataDir localFile

def fileAt (m : Machine) (localFile : Text) : Place := m.cwd.follow (m.localFullPath localFile)

def touch (a : Access) (m : Machine) : Machine := { m with touched := m.touched ++ [a] }

def onServer (run : Backup.Server → Outcome Backup.Operation Backup.Server) (m : Machine) :
    Outcome Op Machine :=
  match run m.server with
  | .ok s => .ok { m with server := s }
  | .error op s => .error (.server op) { m with server := s }
  | .panic => .panic

variable (fails : Op → Bool)

def attempt (op : Op) (m : Machine) : Outcome Op Machine :=
  if fails op then .error op m else .ok m

/-- `UploadFile`, of the configuration and of the bucket. -/
def uploadFile (config : Config) (m : Machine) : Outcome Op Machine :=
  let localFile := config.dbName ++ dbSuffix
  (attempt fails .buildConfig m).andThen fun m =>
  (attempt fails .stat m).andThen fun m =>
  (attempt fails .openFile m).andThen fun m =>
  (attempt fails .transfer (m.touch (.read (m.fileAt localFile)))).andThen fun m =>
  .ok { m with server := { m.server with
    uploads := m.server.uploads ++ [⟨String.ofList localFile, String.ofList config.remotePath⟩] } }

/-- `DownloadFile`, of the configuration and of the bucket. -/
def downloadFile (config : Config) (m : Machine) : Outcome Op Machine :=
  let localFile := config.dbName ++ dbSuffix
  (attempt fails .buildConfig m).andThen fun m =>
  (attempt fails .create m).andThen fun m =>
  attempt fails .transfer (m.touch (.write (m.fileAt localFile)))

/-- The catalog of a name is there from now on, if it was not before. -/
def attached (name : String) (file : Place) (m : Machine) : Machine :=
  if name ∈ m.server.provider.attached then m
  else
    { m with
      server := { m.server with
        provider := { m.server.provider with
          attached := insert name m.server.provider.attached } }
      catalogFile := Function.update m.catalogFile name (some file) }

/-- `AttachCatalog`, for the file with this name. -/
def attachCatalog (fileName : Text) (m : Machine) : Outcome Op Machine :=
  if dbSuffix.isSuffixOf fileName then
    (attempt fails .attach m).andThen fun m =>
    .ok (m.attached (String.ofList (fileName.take (fileName.length - dbSuffix.length)))
      (m.fileAt fileName))
  else .error .attach m

def executeRestore (config : Config) (m : Machine) : Outcome Op Machine :=
  (m.downloadFile fails config).andThen fun m =>
  (attempt fails .stat m).andThen fun m =>
  m.attachCatalog fails (base (m.localFullPath (config.dbName ++ dbSuffix)))

/-- What of the server may fail. -/
def serverFails (op : Backup.Operation) : Bool := fails (.server op)

/-- `executeBackup`, up to the upload. -/
def prepareBackup (s : Backup.Server) : Outcome Backup.Operation Backup.Server :=
  (Backup.attempt (serverFails fails) .newContext s).andThen fun s =>
  (s.setReplication (serverFails fails) false).andThen fun s =>
  (s.doCheckpoint (serverFails fails)).andThen fun s =>
  s.restart (serverFails fails) true

def executeBackup (config : Config) (m : Machine) : Outcome Op Machine :=
  (m.onServer (prepareBackup fails)).andThen fun m =>
  (m.uploadFile fails config).andThen fun m =>
  (m.onServer (·.restart (serverFails fails) false)).andThen fun m =>
  m.onServer (·.setReplication (serverFails fails) true)

def execute : Kind → Config → Machine → Outcome Op Machine
  | .backup => executeBackup fails
  | .restore => executeRestore fails

def untouched (m : Machine) : Machine := { m with touched := [] }

/-- The files a statement touches, whether it succeeds or not. -/
def touches (kind : Kind) (config : Config) (m : Machine) : List Access :=
  ((execute fails kind config m.untouched).state?.map touched).getD []

end Machine

end MyDuck.Restore
