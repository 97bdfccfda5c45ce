/-
MyDuck.Pg.ReadyTheorems — how many ReadyForQuery messages the connection
loop sends, and what its error recovery throws away.

The handlers of statements and portals never touch what the loop keeps
(`Steady`), so `receiveMessage_readies` reads the number of ReadyForQuery
messages off the flags a handler returns. `recovery_discards_batch_iff`:
`waitForSync` outlives its batch exactly when `discardToSync` consumes a
Sync.
-/
import MyDuck.Pg.Connection

namespace MyDuck.Pg

/-! ## What the handlers leave alone -/

namespace Flow

/-- The handler returned an error or panicked. -/
def failed : Flow → Bool
  | .ok _ => false
  | .error _ => true
  | .panic _ => true

def panicked : Flow → Bool
  | .ok _ => false
  | .error _ => false
  | .panic _ => true

end Flow

namespace Conn

/-- The ReadyForQuery messages sent so far. -/
def readies (c : Conn) : Nat := c.sent.count .readyForQuery

def copyFailed (c : Conn) : Bool := c.copyFromStdinState.any (·.copyErr)

/-- The loop's own state is the same; a COPY may have begun or ended. -/
structure Steady (c c' : Conn) : Prop where
  waitForSync : c'.waitForSync = c.waitForSync
  discarding : c'.discarding = c.discarding
  readies : c'.readies = c.readies
  copyFailed : c'.copyFailed = true → c.copyFailed = true

theorem Steady.refl (c : Conn) : Steady c c := ⟨rfl, rfl, rfl, id⟩

theorem Steady.trans {a b c : Conn} (hab : Steady a b) (hbc : Steady b c) : Steady a c :=
  ⟨hbc.waitForSync.trans hab.waitForSync, hbc.discarding.trans hab.discarding,
    hbc.readies.trans hab.readies, fun h => hab.copyFailed (hbc.copyFailed h)⟩

@[simp] theorem readies_send (c : Conn) (m : BackendMessage) :
    (c.send m).readies = c.readies + if m = .readyForQuery then 1 else 0 := by
  simp [readies, send, List.count_singleton]

theorem steady_send (c : Conn) {m : BackendMessage} (hm : m ≠ .readyForQuery) :
    Steady c (c.send m) :=
  ⟨rfl, rfl, by simp [hm], id⟩

theorem steady_setCopy (c : Conn) : Steady c { c with copyFromStdinState := some {} } :=
  ⟨rfl, rfl, rfl, nofun⟩

theorem steady_endCopy (c : Conn) : Steady c { c with copyFromStdinState := none } :=
  ⟨rfl, rfl, rfl, nofun⟩

theorem steady_reply (c : Conn) (fails : Bool) {m : BackendMessage} (hm : m ≠ .readyForQuery) :
    Steady c (c.reply fails m).conn := by
  cases fails with
  | true => exact .refl c
  | false => exact c.steady_send hm

theorem Steady.andThen {c : Conn} {flow : Flow} {f : Conn → Flow} (h : Steady c flow.conn)
    (hf : ∀ d, Steady d (f d).conn) : Steady c (flow.andThen f).conn := by
  cases flow with
  | ok d => exact h.trans (hf d)
  | error d | panic d => exact h

theorem steady_release (c : Conn) (closed stmt : Option Nat) :
    Steady c (c.release closed stmt).conn := by
  unfold release
  split
  · exact ⟨rfl, rfl, rfl, id⟩
  · split
    · exact .refl c
    · split <;> exact ⟨rfl, rfl, rfl, id⟩

theorem steady_deletePreparedStatement (c : Conn) (name : String) :
    Steady c (c.deletePreparedStatement name).conn := by
  unfold deletePreparedStatement
  split
  · exact .refl c
  · exact (show Steady c (c.setStatement name none) from ⟨rfl, rfl, rfl, id⟩).trans
      (steady_release _ _ _)

theorem steady_deletePortal (c : Conn) (name : String) : Steady c (c.deletePortal name).conn := by
  unfold deletePortal
  split
  · exact .refl c
  · exact (show Steady c (c.setPortal name none) from ⟨rfl, rfl, rfl, id⟩).trans
      (steady_release _ _ _)

theorem steady_deallocate (c : Conn) (name : String) :
    Steady c (c.deallocatePreparedStatement name).conn := by
  unfold deallocatePreparedStatement
  split
  · exact .refl c
  · exact (c.steady_deletePreparedStatement name).andThen fun d => d.steady_send (by decide)

theorem steady_outsideEngine {c : Conn} {s : Statement} {fails : Bool} {r : Bool × Flow}
    (h : c.handleStatementOutsideEngine s fails = some r) : Steady c r.2.conn := by
  unfold handleStatementOutsideEngine at h
  split at h <;> cases h
  case h_1 name _ => exact c.steady_deallocate name
  case h_2 => exact c.steady_send (by decide)
  case h_3 =>
    -- the new COPY has not failed
    cases fails with
    | true => exact .refl c
    | false => exact c.steady_setCopy.trans (steady_send _ (by decide))
  case h_4 => exact c.steady_reply fails (by decide)
  case h_5 => exact c.steady_reply fails (by decide)

theorem steady_handleStatement (c : Conn) (s : Statement) (fails : Bool) :
    Steady c (c.handleStatement s fails).2.conn := by
  unfold handleStatement
  cases h : c.handleStatementOutsideEngine s fails with
  | none => exact c.steady_reply fails (by decide)
  | some r => exact steady_outsideEngine h

theorem steady_handleStatements (ss : List (Statement × Bool)) (c : Conn) (e : Bool) :
    Steady c (c.handleStatements e ss).2.conn := by
  induction ss generalizing c e with
  | nil => exact .refl c
  | cons s ss ih =>
    have h := c.steady_handleStatement s.1 s.2
    rw [handleStatements]
    split <;> rename_i heq <;> rw [heq] at h
    · exact h.trans (ih _ _)
    · exact h
    · exact h

theorem steady_dropUnnamed (c : Conn) : Steady c c.dropUnnamed.conn :=
  (c.steady_deletePreparedStatement "").andThen fun d => d.steady_deletePortal ""

theorem steady_handleQuery (c : Conn) (text : QueryText) :
    Steady c (c.handleQuery text).2.conn := by
  cases text with
  | answered fails => exact c.steady_reply fails (by decide)
  | statements ss =>
    have h := c.steady_dropUnnamed
    simp only [handleQuery]
    split <;> rename_i heq
    · rw [heq] at h
      exact h.trans (steady_handleStatements _ _ _)
    · exact h

/-- The flag as the handler of a message sets it first. -/
def enter (c : Conn) : FrontendMessage → Conn
  | .parse .. | .describe .. | .bind .. | .execute .. => c.awaitSync
  | .sync => { c with waitForSync := false }
  | _ => c

theorem steady_handleParse (c : Conn) (name : String) (s : Statement) (outcome : ParseOutcome) :
    Steady c.awaitSync (c.handleParse name s outcome).conn := by
  have hstored : ∀ d : Conn, Steady c.awaitSync d → Steady c.awaitSync (d.send .parseComplete) :=
    fun d h => h.trans (d.steady_send (by decide))
  simp only [handleParse]
  split
  · exact hstored _ ⟨rfl, rfl, rfl, id⟩
  · cases outcome with
    | fails => exact .refl _
    | inPlace | prepared => exact hstored _ ⟨rfl, rfl, rfl, id⟩

theorem steady_sendRows (c : Conn) (returnsRow : Bool) : Steady c (c.sendRows returnsRow) :=
  c.steady_send (by cases returnsRow <;> decide)

theorem steady_handleDescribe (c : Conn) (ofStatement : Bool) (name : String) :
    Steady c.awaitSync (c.handleDescribe ofStatement name).conn := by
  simp only [handleDescribe]
  split
  · split
    · exact .refl _
    · exact (c.awaitSync.steady_send (by decide)).trans (steady_sendRows _ _)
  · split
    · exact .refl _
    · split
      · exact steady_sendRows _ _
      · exact .refl _

theorem steady_handleBind (c : Conn) (portal statement : String) (fails : Bool) :
    Steady c.awaitSync (c.handleBind portal statement fails).conn := by
  have hbound : ∀ p : PortalData,
      Steady c.awaitSync ((c.awaitSync.setPortal portal (some p)).send .bindComplete) :=
    fun p => (show Steady c.awaitSync (c.awaitSync.setPortal portal (some p))
      from ⟨rfl, rfl, rfl, id⟩).trans (steady_send _ (by decide))
  simp only [handleBind]
  split
  · exact .refl _
  · split_ifs
    · exact hbound _
    · exact hbound _
    · exact .refl _
    · exact hbound _

theorem steady_handleExecute (c : Conn) (portal : String) (fails : Bool) :
    Steady c.awaitSync (c.handleExecute portal fails).conn := by
  simp only [handleExecute]
  split
  · exact .refl _
  · split_ifs
    · exact (c.awaitSync.steady_send (by decide)).trans (steady_send _ (by decide))
    · split <;> rename_i heq
      · exact steady_outsideEngine heq
      · exact steady_reply _ fails (by decide)
    · exact steady_reply _ fails (by decide)

theorem steady_handleClose (c : Conn) (ofStatement : Bool) (name : String) :
    Steady c (c.handleClose ofStatement name).conn := by
  refine Steady.andThen ?_ fun d => d.steady_send (by decide)
  split
  · exact c.steady_deletePreparedStatement name
  · exact c.steady_deletePortal name

theorem steady_handleCopyDone (c : Conn) (fails : Bool) :
    Steady c (c.handleCopyDone fails).2.conn := by
  unfold handleCopyDone
  split
  · exact .refl c
  · split_ifs
    · exact .refl c
    · exact .refl c
    · exact .refl c
    · exact c.steady_endCopy.trans (steady_send _ (by decide))

theorem steady_handleCopyFail (c : Conn) : Steady c c.handleCopyFail.2.conn := by
  unfold handleCopyFail
  split
  · exact .refl c
  · split_ifs
    · exact .refl c
    · exact c.steady_endCopy

/-- Of the handlers, only that of CopyData fails a COPY. -/
theorem steady_handleMessage (c : Conn) {m : FrontendMessage} (hm : ∀ o, m ≠ .copyData o) :
    Steady (c.enter m) (c.handleMessage m).2.conn := by
  cases m with
  | query text => exact c.steady_handleQuery text
  | parse name s outcome => exact c.steady_handleParse name s outcome
  | describe ofStatement name => exact c.steady_handleDescribe ofStatement name
  | bind portal statement fails => exact c.steady_handleBind portal statement fails
  | execute portal fails => exact c.steady_handleExecute portal fails
  | close ofStatement name => exact c.steady_handleClose ofStatement name
  | flush => exact .refl c
  | sync => exact .refl _
  | copyData o => exact absurd rfl (hm o)
  | copyDone fails => exact c.steady_handleCopyDone fails
  | copyFail => exact c.steady_handleCopyFail

theorem handleMessage_frame (c : Conn) (m : FrontendMessage) :
    (c.handleMessage m).2.conn.waitForSync = (c.enter m).waitForSync ∧
      (c.handleMessage m).2.conn.discarding = c.discarding ∧
      (c.handleMessage m).2.conn.readies = c.readies := by
  have henter : (c.enter m).discarding = c.discarding ∧ (c.enter m).readies = c.readies := by
    cases m <;> exact ⟨rfl, rfl⟩
  by_cases hm : ∀ o, m ≠ .copyData o
  · have h := c.steady_handleMessage hm
    exact ⟨h.waitForSync, h.discarding.trans henter.1, h.readies.trans henter.2⟩
  · push Not at hm
    obtain ⟨o, rfl⟩ := hm
    simp only [handleMessage, handleCopyData]
    split
    · exact ⟨rfl, rfl, rfl⟩
    · cases o <;> exact ⟨rfl, rfl, rfl⟩

/-! ## One message -/

/-- What sending does not change is as the handler left it. -/
theorem receiveMessage_proj {α : Type} (f : Conn → α) (hsend : ∀ c m, f (c.send m) = f c)
    (hdiscard : ∀ (c : Conn) (b : Bool), f { c with discarding := b } = f c) (c : Conn)
    (m : FrontendMessage) :
    f (c.receiveMessage m) = f (if c.discarding then c else (c.handleMessage m).2.conn) := by
  have hrecover : ∀ (d : Conn) e, f (d.recover e) = f d := by
    intro d e
    unfold recover
    split
    · exact hdiscard d true
    · exact (hsend _ _).trans (hsend _ _)
  unfold receiveMessage
  split
  · split
    · exact (hsend _ _).trans ((hsend _ _).trans (hdiscard c false))
    · rfl
  · rcases c.handleMessage m with ⟨e, d | d | d⟩
    · cases e with
      | true => exact hsend d _
      | false => rfl
    · exact hrecover d e
    · exact hrecover d false

/-- The ReadyForQuery messages sent for a message that is handled. -/
def readiesFor (c : Conn) (m : FrontendMessage) : Nat :=
  match c.handleMessage m with
  | (endOfMessages, .ok _) => endOfMessages.toNat
  | (endOfMessages, .error _) => (endOfMessages || !(c.enter m).waitForSync).toNat
  | (_, .panic _) => (!(c.enter m).waitForSync).toNat

theorem readies_recover (c : Conn) (e : Bool) :
    (c.recover e).readies = c.readies + (e || !c.waitForSync).toNat := by
  unfold recover
  cases e <;> cases c.waitForSync <;> simp [ready]
  rfl

theorem receiveMessage_readies (c : Conn) (m : FrontendMessage) (hd : c.discarding = false) :
    (c.receiveMessage m).readies = c.readies + c.readiesFor m := by
  obtain ⟨hwait, _, hready⟩ := c.handleMessage_frame m
  rcases heq : c.handleMessage m with ⟨e, d | d | d⟩ <;>
    simp only [heq, Flow.conn] at hwait hready <;>
    simp only [receiveMessage, readiesFor, hd, heq, Bool.false_eq_true, if_false]
  · cases e <;> simp [ready, hready]
  · rw [readies_recover, hready, hwait]
  · rw [readies_recover, hready, hwait, Bool.false_or]

theorem receiveMessage_discarding (c : Conn) (m : FrontendMessage) (hd : c.discarding = true) :
    (c.receiveMessage m).readies = c.readies + if m = .sync then 1 else 0 := by
  unfold receiveMessage
  rw [if_pos hd]
  split
  · simp [ready]
    rfl
  · rfl

end Conn

/-! ## What error recovery discards -/

/-- The message begins or continues a batch of the extended protocol. -/
def FrontendMessage.extended : FrontendMessage → Bool
  | .parse .. | .describe .. | .bind .. | .execute .. => true
  | _ => false

/-- The loop, beside the batch of its client. -/
structure Batched where
  conn : Conn := {}
  /-- A Parse, Bind, Describe or Execute was received after the last
  Sync. -/
  batch : Bool := false

namespace Batched

variable (b : Batched)

def receive (m : FrontendMessage) : Batched :=
  { conn := b.conn.receiveMessage m,
    batch := if m = .sync then false else m.extended || b.batch }

/-- The loop waits for a Sync, or discards messages, only inside a batch. -/
def InBatch : Prop :=
  (b.conn.waitForSync = true → b.batch = true) ∧ (b.conn.discarding = true → b.batch = true)

/-- The Sync that ends a batch is handled as a message. -/
def SyncHandled (m : FrontendMessage) : Prop := m = .sync → b.conn.discarding = false

end Batched

namespace Conn

theorem receiveMessage_waitForSync (c : Conn) (m : FrontendMessage) :
    (c.receiveMessage m).waitForSync =
      if c.discarding then c.waitForSync else (c.enter m).waitForSync := by
  rw [receiveMessage_proj waitForSync (fun _ _ => rfl) fun _ _ => rfl]
  split
  · rfl
  · exact (c.handleMessage_frame m).1

/-- The loop begins to discard only where it waits for a Sync, and ends
with one. -/
theorem receiveMessage_discards {c : Conn} {m : FrontendMessage}
    (h : (c.receiveMessage m).discarding = true) :
    (c.discarding = true ∧ m ≠ .sync) ∨ (c.receiveMessage m).waitForSync = true := by
  have hrecover : ∀ (d : Conn) e, d.discarding = false → (d.recover e).discarding = true →
      (d.recover e).waitForSync = true := by
    intro d e hd
    unfold recover
    split
    next hwait => exact fun _ => (Bool.and_eq_true_iff.mp hwait).2
    next => exact fun hd' => absurd (hd.symm.trans hd') Bool.false_ne_true
  have hdisc := (c.handleMessage_frame m).2.1
  unfold receiveMessage at h ⊢
  split at h
  next hd =>
    split at h
    · cases h
    next hm => exact .inl ⟨hd, hm⟩
  next hd =>
    rw [if_neg hd]
    rw [Bool.not_eq_true] at hd
    rcases heq : c.handleMessage m with ⟨e, d | d | d⟩ <;> simp only [heq, Flow.conn, hd] at h hdisc
    · cases e <;> exact absurd (hdisc.symm.trans h) Bool.false_ne_true
    · exact .inr (hrecover d e hdisc h)
    · exact .inr (hrecover d false hdisc h)

end Conn

namespace Batched

variable {b : Batched}

/-- The loop discards only where it waits for a Sync. -/
def Waiting (b : Batched) : Prop := b.conn.discarding = true → b.conn.waitForSync = true

theorem receive_waiting (hw : b.Waiting) (m : FrontendMessage) : (b.receive m).Waiting := by
  intro hd
  rcases Conn.receiveMessage_discards hd with ⟨hbefore, -⟩ | h
  · change (b.conn.receiveMessage m).waitForSync = true
    rw [Conn.receiveMessage_waitForSync, if_pos hbefore]
    exact hw hbefore
  · exact h

theorem enter_waitForSync (c : Conn) (m : FrontendMessage) :
    (c.enter m).waitForSync = if m = .sync then false else m.extended || c.waitForSync := by
  cases m <;> rfl

/-- A batch outlives its messages exactly when `discardToSync` consumes
the Sync that ends it: the flag is not cleared there. -/
theorem receive_inBatch_iff (hw : b.Waiting) (hb : b.InBatch) (m : FrontendMessage) :
    (b.receive m).InBatch ↔ b.SyncHandled m := by
  have hwait := b.conn.receiveMessage_waitForSync m
  change ((b.conn.receiveMessage m).waitForSync = true → _) ∧
    ((b.conn.receiveMessage m).discarding = true → _) ↔ _
  cases hd : b.conn.discarding with
  | true =>
    have hwaits := hw hd
    by_cases hm : m = .sync
    · subst hm
      rw [hd, if_pos rfl, hwaits] at hwait
      simp [receive, SyncHandled, hwait, hd]
    · have hbatch := hb.2 hd
      simp [receive, SyncHandled, hm, hbatch]
  | false =>
    have hflag : (b.conn.receiveMessage m).waitForSync = true → (b.receive m).batch = true := by
      rw [hwait, hd, if_neg Bool.false_ne_true, enter_waitForSync]
      change _ → (if m = .sync then false else m.extended || b.batch) = true
      split
      · exact id
      · rw [Bool.or_eq_true, Bool.or_eq_true]
        exact Or.imp_right hb.1
    refine iff_of_true ⟨hflag, fun h => ?_⟩ fun _ => hd
    rcases Conn.receiveMessage_discards h with ⟨habs, -⟩ | hwaits
    · exact absurd (hd.symm.trans habs) Bool.false_ne_true
    · exact hflag hwaits

/-- **The loop waits for a Sync, and discards messages, only inside the
batch that failed**, in every state of a connection, if and only if no
Sync is consumed by `discardToSync`. -/
theorem recovery_discards_batch_iff (ms : List FrontendMessage) :
    (∀ sofar, sofar <+: ms → (run receive {} sofar).InBatch) ↔
      Along receive SyncHandled {} ms := by
  have hinv : ∀ (b : Batched) (m : FrontendMessage), b.Waiting → True → (b.receive m).Waiting :=
    fun _ m hw _ => receive_waiting hw m
  have hgood : ∀ (b : Batched) (m : FrontendMessage), b.Waiting → b.InBatch → True →
      ((b.receive m).InBatch ↔ b.SyncHandled m) := fun _ m hw hb _ => receive_inBatch_iff hw hb m
  exact Along.good_iff hinv hgood nofun
    ⟨nofun, nofun⟩
    (Along.of_forall (fun _ _ => trivial) _ ms)

/-- A failed Parse and its Sync, and then a simple Query whose COPY fails:
the chunks and Queries behind it are discarded, although no batch was
begun since the Sync. -/
theorem recovery_discards_later_request :
    ∃ ms : List FrontendMessage,
      ms = [.parse "" { kind := .engine } .fails, .sync,
        .query (.statements [({ kind := .copyFromStdin }, false)]), .copyData .failsEarly] ∧
      (run receive {} ms).batch = false ∧ (run receive {} ms).conn.waitForSync = true ∧
      (run receive {} ms).conn.discarding = true :=
  ⟨_, rfl, by decide, by decide, by decide⟩

end Batched

end MyDuck.Pg
