/-
MyDuck.Pg.BackupTheorems — what a BACKUP leaves behind.

A stage is described by the state it ends in: `setReplication_ok`,
`restart_ok` and `uploadFile_ok` say it for one that succeeds, and
`restart_error` says that a restart that fails leaves the pool closed.
Nothing is undone after an error, and the flags of the subscriptions are
not remembered: both theorems say when this makes no difference.
-/
import MyDuck.Pg.Backup

namespace MyDuck.Backup

/-- The checkpoint, the restart in read-only mode and the upload. -/
def Operation.InScope : Operation → Prop
  | .checkpoint | .commitCheckpoint | .upload => True
  | .restart readOnly _ => readOnly = true
  | _ => False

/-! ## Stages -/

section Stages

variable {fails : Operation → Bool} {s s' : Server} {op : Operation}

theorem attempt_eq_ok : attempt fails op s = .ok s' ↔ fails op = false ∧ s' = s := by
  rw [attempt]
  cases fails op <;> simp [eq_comm]

theorem attempt_eq_error {op' : Operation} :
    attempt fails op s = .error op' s' ↔ fails op = true ∧ op' = op ∧ s' = s := by
  rw [attempt]
  cases fails op <;> simp [eq_comm]

namespace Server

/-- All flags are set, and the replicators follow. -/
theorem setReplication_ok {enabled : Bool} (h : s.setReplication fails enabled = .ok s') :
    s' = (s.setAll enabled).updateSubscriptions := by
  simp only [setReplication, Outcome.andThen_eq_ok, attempt_eq_ok] at h
  obtain ⟨s₁, ⟨-, rfl⟩, s₂, ⟨-, rfl⟩, s₃, ⟨-, rfl⟩, h⟩ := h
  cases h
  rfl

theorem setReplication_error {enabled : Bool}
    (h : s.setReplication fails enabled = .error op s') : fails op = true ∧ ¬ op.InScope := by
  simp only [setReplication, Outcome.andThen_eq_error, attempt_eq_error, attempt_eq_ok] at h
  rcases h with ⟨hf, rfl, -⟩ | ⟨s₁, -, ⟨hf, rfl, -⟩ | ⟨s₂, -, h⟩⟩
  · exact ⟨hf, id⟩
  · exact ⟨hf, id⟩
  · rcases h with ⟨hf, rfl, -⟩ | ⟨s₃, -, h⟩
    · exact ⟨hf, id⟩
    · cases h

/-- A restart ends with only the default catalog attached. -/
theorem restart_ok {readOnly : Bool} (h : s.restart fails readOnly = .ok s') :
    s' = { s with provider := { s.provider with
      storage := restartMode readOnly, pool := restartMode readOnly
      attached := {s.provider.defaultCatalogName} } } := by
  simp only [restart, Outcome.andThen_eq_ok, attempt_eq_ok] at h
  obtain ⟨s₁, ⟨-, rfl⟩, s₂, ⟨-, rfl⟩, s₃, ⟨-, rfl⟩, h⟩ := h
  cases h
  rfl

/-- A restart that fails leaves the pool closed. -/
theorem restart_error {readOnly : Bool} (h : s.restart fails readOnly = .error op s') :
    s'.provider.pool = .closed ∧ fails op = true ∧ ∃ step, op = .restart readOnly step := by
  simp only [restart, Outcome.andThen_eq_error, attempt_eq_error, attempt_eq_ok] at h
  rcases h with ⟨hf, rfl, rfl⟩ | ⟨s₁, ⟨-, rfl⟩, ⟨hf, rfl, rfl⟩ | ⟨s₂, ⟨-, rfl⟩, h⟩⟩
  · exact ⟨rfl, hf, _, rfl⟩
  · exact ⟨rfl, hf, _, rfl⟩
  · rcases h with ⟨hf, rfl, rfl⟩ | ⟨s₃, -, h⟩
    · exact ⟨rfl, hf, _, rfl⟩
    · cases h

theorem doCheckpoint_ok (h : s.doCheckpoint fails = .ok s') : s' = s := by
  simp only [doCheckpoint, Outcome.andThen_eq_ok, attempt_eq_ok] at h
  obtain ⟨s₁, ⟨-, rfl⟩, -, rfl⟩ := h
  rfl

theorem doCheckpoint_error (h : s.doCheckpoint fails = .error op s') :
    s' = s ∧ (op = .checkpoint ∨ op = .commitCheckpoint) := by
  simp only [doCheckpoint, Outcome.andThen_eq_error, attempt_eq_error, attempt_eq_ok] at h
  rcases h with ⟨-, rfl, rfl⟩ | ⟨s₁, ⟨-, rfl⟩, -, rfl, rfl⟩
  · exact ⟨rfl, .inl rfl⟩
  · exact ⟨rfl, .inr rfl⟩

theorem uploadFile_ok {config : BackupConfig} (h : s.uploadFile fails config = .ok s') :
    s' = { s with uploads := s.uploads ++ [⟨config.dbName ++ ".db", config.remotePath⟩] } := by
  simp only [uploadFile, Outcome.andThen_eq_ok, attempt_eq_ok] at h
  obtain ⟨s₁, ⟨-, rfl⟩, h⟩ := h
  cases h
  rfl

theorem uploadFile_error {config : BackupConfig} (h : s.uploadFile fails config = .error op s') :
    s' = s ∧ op = .upload := by
  simp only [uploadFile, Outcome.andThen_eq_error, attempt_eq_error] at h
  rcases h with ⟨-, rfl, rfl⟩ | ⟨s₁, -, h⟩
  · exact ⟨rfl, rfl⟩
  · cases h

end Server

end Stages

/-! ## Subscriptions -/

namespace Server

def Runs (s : Server) (name : String) : Prop :=
  ∃ sub, s.subscriptionMap name = some sub ∧ sub.running = true

/-- A server that works: its database is open for writing, and the
replicators are as the rows say. -/
structure Serving (s : Server) : Prop where
  storage : s.provider.storage = .readWrite
  pool : s.provider.pool = .readWrite
  names : (s.rows.map (·.name)).Nodup
  synced : ∀ row ∈ s.rows, s.subscriptionMap row.name = some ⟨row.enabled, row.enabled⟩
  known : ∀ n, n ∉ s.rows.map (·.name) → s.subscriptionMap n = none

variable {s : Server}

/-- The flags are all the same as before exactly when they were all set
that way. -/
theorem setAll_rows_eq_iff (enabled : Bool) :
    (s.setAll enabled).rows = s.rows ↔ ∀ row ∈ s.rows, row.enabled = enabled := by
  have hrow : ∀ row : SubscriptionRow,
      ({ row with enabled } : SubscriptionRow) = row ↔ row.enabled = enabled := by
    rintro ⟨name, flag⟩
    simp [eq_comm]
  have hmap : (s.setAll enabled).rows = s.rows ↔
      s.rows.map (fun row => ({ row with enabled } : SubscriptionRow)) = s.rows.map id := by
    rw [List.map_id, setAll]
  rw [hmap, List.map_inj_left]
  exact forall₂_congr fun row _ => hrow row

/-! ## The statement -/

variable {fails : Operation → Bool} {config : BackupConfig} {s' : Server} {op : Operation}

/-- The server with all subscriptions disabled, as the checkpoint finds
it. -/
def stopped (s : Server) : Server := (s.setAll false).updateSubscriptions

/-- The provider of a server that was restarted. -/
def restarted (mode : Handle) (p : Provider) : Provider :=
  { p with storage := mode, pool := mode, attached := {p.defaultCatalogName} }

/-- **What a successful BACKUP leaves**: the server restarted, with the
file uploaded and all subscriptions enabled. -/
theorem executeBackup_ok (h : s.executeBackup fails config = .ok s') :
    s' = (setAll true { s.stopped with
      provider := restarted .readWrite s.provider
      uploads := s.uploads ++ [⟨config.dbName ++ ".db", config.remotePath⟩]
      }).updateSubscriptions := by
  simp only [executeBackup, Outcome.andThen_eq_ok, attempt_eq_ok] at h
  obtain ⟨s₀, ⟨-, rfl⟩, s₁, h₁, s₂, h₂, s₃, h₃, s₄, h₄, s₅, h₅, h₆⟩ := h
  rw [setReplication_ok h₆, restart_ok h₅, uploadFile_ok h₄, restart_ok h₃, doCheckpoint_ok h₂,
    setReplication_ok h₁]
  rfl

/-- The flags behind a successful BACKUP. -/
theorem executeBackup_rows (h : s.executeBackup fails config = .ok s') :
    s'.rows = (s.setAll true).rows := by
  rw [executeBackup_ok h]
  simp [setAll, stopped, updateSubscriptions]

end Server

/-! ## Both ends -/

/-- A server with one subscription. -/
def sampleServer (enabled : Bool) (attached : Finset String) : Server where
  provider := ⟨"mysql", .readWrite, .readWrite, attached⟩
  rows := [⟨"sub", enabled⟩]
  subscriptionMap n := if n = "sub" then some ⟨enabled, enabled⟩ else none

def sampleConfig : BackupConfig := ⟨"mysql", "bucket/mysql.db"⟩

theorem sampleServer_serving (enabled : Bool) (attached : Finset String) :
    (sampleServer enabled attached).Serving where
  storage := rfl
  pool := rfl
  names := by simp [sampleServer]
  synced := by simp [sampleServer]
  known := by simp [sampleServer]

/-- The parts of a server that are looked at here. -/
def Server.summary (s : Server) : Handle × Handle × List SubscriptionRow × Finset String :=
  (s.provider.storage, s.provider.pool, s.rows, s.provider.attached)

/-- **A failing BACKUP leaves the server as it was only** if the checkpoint
fails and no subscription was enabled. -/
theorem failed_backup_iff (config : BackupConfig) (fails : Operation → Bool)
    (hscope : ∀ op, fails op = true → op.InScope) {s s' : Server} (hs : s.Serving)
    {op : Operation} (h : s.executeBackup fails config = .error op s') :
    (s'.provider.storage = .readWrite ∧ s'.provider.pool = .readWrite ∧ s'.rows = s.rows ∧
      ∀ row ∈ s'.rows, row.enabled = true → s'.Runs row.name) ↔
      (op = .checkpoint ∨ op = .commitCheckpoint) ∧ ∀ row ∈ s.rows, row.enabled = false := by
  rw [Server.executeBackup] at h
  rcases Outcome.andThen_eq_error.mp h with he | ⟨s₀, h₀, k₀⟩
  · obtain ⟨hf, -, -⟩ := attempt_eq_error.mp he
    exact False.elim (hscope _ hf)
  obtain ⟨-, rfl⟩ := attempt_eq_ok.mp h₀
  rcases Outcome.andThen_eq_error.mp k₀ with he | ⟨s₁, h₁, k₁⟩
  · obtain ⟨hf, hout⟩ := Server.setReplication_error he
    exact absurd (hscope op hf) hout
  have hrows : s₁.rows = (s₀.setAll false).rows := by rw [Server.setReplication_ok h₁]; rfl
  have hprovider : s₁.provider = s₀.provider := by rw [Server.setReplication_ok h₁]; rfl
  rcases Outcome.andThen_eq_error.mp k₁ with he | ⟨s₂, -, k₂⟩
  · -- the checkpoint fails: the subscriptions stay disabled
    obtain ⟨rfl, hop⟩ := Server.doCheckpoint_error he
    rw [hrows, hprovider, Server.setAll_rows_eq_iff]
    refine ⟨fun hall => ⟨hop, hall.2.2.1⟩, fun hall => ⟨hs.storage, hs.pool, hall.2, ?_⟩⟩
    intro row hrow hon
    rw [(Server.setAll_rows_eq_iff false).mpr hall.2] at hrow
    rw [hall.2 row hrow] at hon
    cases hon
  rcases Outcome.andThen_eq_error.mp k₂ with he | ⟨s₃, h₃, k₃⟩
  · -- the restart fails: the pool is closed
    obtain ⟨hpool, -, step, rfl⟩ := Server.restart_error he
    exact iff_of_false (by simp [hpool]) (by simp)
  rcases Outcome.andThen_eq_error.mp k₃ with he | ⟨s₄, -, k₄⟩
  · -- the upload fails: the database stays read-only
    obtain ⟨rfl, rfl⟩ := Server.uploadFile_error he
    rw [Server.restart_ok h₃]
    exact iff_of_false (by simp [Server.restartMode]) (by simp)
  rcases Outcome.andThen_eq_error.mp k₄ with he | ⟨s₅, -, k₅⟩
  · obtain ⟨-, hf, step, rfl⟩ := Server.restart_error he
    exact absurd (hscope _ hf) (by simp [Operation.InScope])
  · obtain ⟨hf, hout⟩ := Server.setReplication_error k₅
    exact absurd (hscope op hf) hout

theorem failed_backup_iff_checkpoint :
    ∃ s', (sampleServer false {"mysql"}).executeBackup (fun op => op = .checkpoint) sampleConfig
        = .error .checkpoint s' ∧
      s'.provider.storage = .readWrite ∧ s'.rows = [⟨"sub", false⟩] := by
  have h := (failed_backup_iff sampleConfig (fun op => op = .checkpoint)
    (by simp [Operation.InScope]) (sampleServer_serving false {"mysql"}) rfl).mpr
    ⟨.inl rfl, by simp [sampleServer]⟩
  exact ⟨_, rfl, h.1, h.2.2.1⟩

/-- An upload that fails leaves the server read-only, and its subscription
disabled. -/
theorem failed_upload_leaves_read_only :
    ((sampleServer true {"mysql"}).executeBackup (fun op => op = .upload) sampleConfig).map
        Server.summary
      = .error .upload (.readOnly, .readOnly, [⟨"sub", false⟩], {"mysql"}) :=
  rfl

/-- **A successful BACKUP changes nothing else only** if every subscription
was enabled and no other catalog was attached. -/
theorem successful_backup_iff (config : BackupConfig) (fails : Operation → Bool) {s s' : Server}
    (h : s.executeBackup fails config = .ok s') :
    (s'.rows = s.rows ∧ s'.provider.attached = s.provider.attached) ↔
      (∀ row ∈ s.rows, row.enabled = true) ∧
        s.provider.attached = {s.provider.defaultCatalogName} := by
  have hattached : s'.provider.attached = {s.provider.defaultCatalogName} := by
    rw [Server.executeBackup_ok h]
    rfl
  rw [Server.executeBackup_rows h, hattached, Server.setAll_rows_eq_iff]
  exact and_congr_right' eq_comm

theorem successful_backup_iff_enabled :
    ∃ s', (sampleServer true {"mysql"}).executeBackup (fun _ => false) sampleConfig = .ok s' ∧
      s'.rows = [⟨"sub", true⟩] ∧ s'.provider.attached = {"mysql"} := by
  have h := (successful_backup_iff sampleConfig (fun _ => false)
    (s := sampleServer true {"mysql"}) rfl).mpr ⟨by simp [sampleServer], rfl⟩
  exact ⟨_, rfl, h⟩

/-- A disabled subscription comes back enabled, and the catalog `reports`
is not attached any more. -/
theorem successful_backup_changes_server :
    ((sampleServer false {"mysql", "reports"}).executeBackup (fun _ => false) sampleConfig).map
        Server.summary
      = .ok (.readWrite, .readWrite, [⟨"sub", true⟩], {"mysql"}) :=
  rfl

end MyDuck.Backup
