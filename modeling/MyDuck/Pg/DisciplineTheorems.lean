/-
MyDuck.Pg.DisciplineTheorems — when the connection loop answers with
ReadyForQuery.

`Watched` runs beside the loop and counts what the protocol owes the
client: one ReadyForQuery for each Query cycle, after the COPYs it began
have ended, and one for each Sync. `ready_discipline`: the loop keeps to
that as long as `OneReady` holds at every message. Of a message other than
a Query the condition is exact. A Query may be answered as it should be
without it: a DEALLOCATE of a name that is not there fails it before its
last statement.
-/
import MyDuck.Pg.StatementTheorems

namespace MyDuck.Pg

/-! ## What the client is owed -/

namespace QueryText

/-- The COPYs from STDIN that the Query begins when nothing fails. -/
def copies : QueryText → Nat
  | .answered _ => 0
  | .statements ss => ss.countP fun s => s.1.kind = .copyFromStdin

/-- The last statement is a COPY from STDIN. -/
def endsInCopy : QueryText → Bool
  | .answered _ => false
  | .statements ss => ss.getLast?.any fun s => s.1.kind = .copyFromStdin

theorem copies_pos_of_endsInCopy {text : QueryText} (h : text.endsInCopy = true) :
    0 < text.copies := by
  cases text with
  | answered fails => exact absurd h Bool.false_ne_true
  | statements ss =>
    obtain ⟨s, hs, hcopy⟩ := (Option.any_eq_true _ _).mp h
    exact List.countP_pos_iff.mpr ⟨s, List.mem_of_getLast? hs, hcopy⟩

/-- A statement fails for a reason of its own. -/
def Fails : QueryText → Prop
  | .answered fails => fails = true
  | .statements ss => ∃ s ∈ ss, s.2 = true ∧ s.1.kind ≠ .discard ∧ ∀ n, s.1.kind ≠ .deallocate n

end QueryText

/-! ## How a Query ends -/

namespace Conn

/-- Releasing a statement or a portal panics or succeeds. -/
theorem release_ne_error (c d : Conn) (closed stmt : Option Nat) :
    c.release closed stmt ≠ .error d := by
  unfold release
  split
  · exact nofun
  · split
    · exact nofun
    · split <;> exact nofun

theorem dropUnnamed_ne_error (c d : Conn) : c.dropUnnamed ≠ .error d := by
  have hportal : ∀ c : Conn, c.deletePortal "" ≠ .error d := by
    intro c
    unfold deletePortal
    split
    · exact nofun
    · exact release_ne_error _ d _ _
  have hstmt : c.deletePreparedStatement "" ≠ .error d := by
    unfold deletePreparedStatement
    split
    · exact nofun
    · exact release_ne_error _ d _ _
  unfold dropUnnamed Flow.andThen
  split <;> rename_i heq
  · exact hportal _
  · exact heq ▸ hstmt
  · exact nofun

theorem handleStatement_end (c : Conn) (s : Statement) (fails : Bool) :
    (c.handleStatement s fails).1 = !(s.kind = .copyFromStdin : Bool) := by
  unfold handleStatement handleStatementOutsideEngine
  cases s.kind <;> rfl

variable {c d : Conn} {e : Bool} {ss : List (Statement × Bool)} {text : QueryText}

theorem handleStatement_copy {s : Statement} {fails : Bool} (hs : s.kind = .copyFromStdin)
    (h : c.handleStatement s fails = (e, .ok d)) : d.copyFailed = false := by
  simp only [handleStatement, handleStatementOutsideEngine, hs, Option.getD_some] at h
  cases fails with
  | true => cases h
  | false => cases h; rfl

theorem handleStatements_error {e' : Bool} (h : c.handleStatements e ss = (e', .error d)) :
    e' = true := by
  induction ss generalizing c e with
  | nil => cases h
  | cons s ss ih =>
    rw [handleStatements] at h
    split at h
    · exact ih h
    · cases h; rfl
    · cases h

/-- The flag is that of the last statement. -/
theorem handleStatements_end {e' : Bool} (h : c.handleStatements e ss = (e', .ok d)) :
    e' = if ss = [] then e else !(QueryText.statements ss).endsInCopy := by
  induction ss generalizing c e with
  | nil => cases h; rfl
  | cons s ss ih =>
    have hend := c.handleStatement_end s.1 s.2
    rw [handleStatements] at h
    split at h <;> rename_i heq
    · rw [heq] at hend
      have := ih h
      cases ss with
      | nil => simpa [QueryText.endsInCopy] using this.trans hend
      | cons t ts => simpa [QueryText.endsInCopy] using this
    · cases h
    · cases h

/-- A COPY that the statements began has not failed. -/
theorem handleStatements_copyFailed {e' : Bool} (h : c.handleStatements e ss = (e', .ok d))
    (hcopies : 0 < (QueryText.statements ss).copies) : d.copyFailed = false := by
  induction ss generalizing c e with
  | nil => cases hcopies
  | cons s ss ih =>
    rw [handleStatements] at h
    split at h
    next e₁ c₁ heq =>
      by_cases hs : s.1.kind = .copyFromStdin
      · have hfresh := handleStatement_copy hs heq
        have hrest := (steady_handleStatements ss c₁ e₁).copyFailed
        rw [h, hfresh] at hrest
        exact Bool.eq_false_iff.mpr fun hd => Bool.false_ne_true (hrest hd)
      · exact ih h (by simpa [QueryText.copies, List.countP_cons, hs] using hcopies)
    · cases h
    · cases h

theorem handleQuery_error (h : c.handleQuery text = (e, .error d)) : e = true := by
  cases text with
  | answered fails => exact congrArg Prod.fst h.symm
  | statements ss =>
    simp only [handleQuery] at h
    split at h
    · exact handleStatements_error h
    · exact absurd (congrArg Prod.snd h) (c.dropUnnamed_ne_error d)

theorem handleQuery_ok (h : c.handleQuery text = (e, .ok d)) :
    e = !text.endsInCopy ∧ (0 < text.copies → d.copyFailed = false) := by
  cases text with
  | answered fails => exact ⟨congrArg Prod.fst h.symm, nofun⟩
  | statements ss =>
    simp only [handleQuery] at h
    split at h <;> rename_i heq
    · refine ⟨?_, handleStatements_copyFailed h⟩
      rw [handleStatements_end h]
      split
      · simp [QueryText.endsInCopy, *]
      · rfl
    · exact absurd (congrArg Prod.snd h) (heq d)

theorem handleStatements_failed (h : (QueryText.statements ss).Fails) (c : Conn) (e : Bool) :
    (c.handleStatements e ss).2.failed = true := by
  induction ss generalizing c e with
  | nil =>
    obtain ⟨s, hs, -⟩ := h
    cases hs
  | cons s ss ih =>
    rw [handleStatements]
    split <;> rename_i heq
    · refine ih ?_ _ _
      obtain ⟨t, ht, hown⟩ := h
      rcases List.mem_cons.mp ht with rfl | ht
      · -- the first statement would not have succeeded
        simp only [handleStatement, handleStatementOutsideEngine, hown.1] at heq
        cases hkind : t.1.kind with
        | deallocate n => exact absurd hkind (hown.2.2 n)
        | discard => exact absurd hkind hown.2.1
        | _ =>
          rw [hkind] at heq
          cases heq
      · exact ⟨t, ht, hown⟩
    · rfl
    · rfl

theorem handleQuery_failed (h : c.handleQuery text = (e, .ok d)) : ¬ text.Fails := by
  intro hfails
  cases text with
  | answered fails =>
    obtain rfl : fails = true := hfails
    cases h
  | statements ss =>
    simp only [handleQuery] at h
    split at h
    next c' _ =>
      have hfailed := handleStatements_failed hfails c' true
      rw [h] at hfailed
      cases hfailed
    next heq => exact absurd (congrArg Prod.snd h) (heq d)

/-- A statement that is released where DuckDB prepared it does not panic. -/
theorem handleStatement_held (h : c.Sound) {s : Statement} (fails : Bool)
    (hheld : ∀ n, s.kind = .deallocate n → c.hasStmt n = true) :
    (c.handleStatement s fails).2.panicked = false := by
  unfold handleStatement handleStatementOutsideEngine
  cases hkind : s.kind with
  | deallocate n =>
    rcases deletePreparedStatement_nil h n with ⟨-, d, hd, -⟩ | ⟨hnot, -⟩
    · simp only [Option.getD_some, deallocatePreparedStatement, hd]
      split <;> rfl
    · exact absurd ((hheld n hkind).symm.trans hnot) Bool.false_ne_true.symm
  | _ => cases fails <;> rfl

theorem handleStatements_held (h : c.Sound) (hheld : c.DeallocatesHeld ss) (e : Bool) :
    (c.handleStatements e ss).2.panicked = false := by
  induction ss generalizing c e with
  | nil => rfl
  | cons s ss ih =>
    have hone := handleStatement_held h s.2 hheld.1
    have hsound := kept_handleStatement SameStore.sound
      (fun n h => h.deletePreparedStatement n) h s.1 s.2
    rw [handleStatements]
    split <;> rename_i heq <;> rw [heq] at hone hsound
    · exact ih hsound (hheld.2 _ _ heq) _
    · rfl
    · cases hone

/-- A Query panics only where it releases what DuckDB did not prepare. -/
theorem not_releasable_query (h : c.Sound) (hd : c.discarding = false)
    (hpanic : c.handleQuery text = (e, .panic d)) : ¬ c.Releasable (.query text) := by
  intro hrel
  cases text with
  | answered fails => cases fails <;> cases hpanic
  | statements ss =>
    obtain ⟨hstmt, hportal, hheld⟩ := hrel.resolve_left (by simp [hd])
    obtain ⟨-, d', hdrop, -⟩ := (dropUnnamed_nil h).resolve_right fun hnot =>
      hnot.1 ⟨hstmt, hportal⟩
    have hsound : d'.Sound := by simpa [hdrop] using h.dropUnnamed
    simp only [handleQuery, hdrop, Flow.conn_ok] at hpanic hheld
    have hnot := handleStatements_held hsound hheld true
    rw [hpanic] at hnot
    cases hnot

/-- A Close fails, by a panic, exactly where it does so. -/
theorem handleClose_failed_iff (h : c.Sound) (hd : c.discarding = false) (ofStatement : Bool)
    (name : String) :
    (c.handleClose ofStatement name).failed = true ↔ ¬ c.Releasable (.close ofStatement name) := by
  cases ofStatement with
  | true =>
    rcases deletePreparedStatement_nil h name with ⟨hhas, d, hok, -⟩ | ⟨hhas, d, hok, -⟩ <;>
      simp [handleClose, hok, Flow.andThen, Flow.failed, Releasable, hd, hhas]
  | false =>
    rcases deletePortal_nil h name with ⟨hhas, d, hok, -⟩ | ⟨hhas, d, hok, -⟩ <;>
      simp [handleClose, hok, Flow.andThen, Flow.failed, Releasable, hd, hhas]

end Conn

/-! ## The ReadyForQuery discipline -/

/-- The loop, beside what the protocol owes its client. -/
structure Watched where
  conn : Conn := {}
  /-- The ReadyForQuery messages owed so far. -/
  due : Nat := 0
  /-- The COPYs of the current simple Query that have not ended. -/
  copying : Nat := 0

namespace Watched

variable (w : Watched)

/-- What a message makes due, and the COPYs that are open after it. A
Query that failed, or began no COPY, is over; a COPY that fails ends the
Query it belongs to; of what `discardToSync` reads, only the Sync is
answered. -/
def owed (m : FrontendMessage) : Nat × Nat :=
  let failed := (w.conn.handleMessage m).2.failed
  if w.conn.discarding then (if m = .sync then 1 else 0, w.copying)
  else
    match m with
    | .sync => (1, w.copying)
    | .query text => if failed ∨ text.copies = 0 then (1, 0) else (0, text.copies)
    | .copyData _ => if failed ∧ 0 < w.copying then (1, 0) else (0, w.copying)
    | .copyDone _ =>
      if w.copying = 0 then (0, 0)
      else if failed then (1, 0)
      else (if w.copying = 1 then 1 else 0, w.copying - 1)
    | .copyFail => if 0 < w.copying then (1, 0) else (0, 0)
    | _ => (0, w.copying)

def receive (m : FrontendMessage) : Watched :=
  { conn := w.conn.receiveMessage m, due := w.due + (w.owed m).1, copying := (w.owed m).2 }

/-- What has to hold at a message that is handled:

  * a Query with a COPY ends in one, or a statement of it fails; while a
    batch waits for a Sync, what a Query releases was prepared by DuckDB,
    and so was what a Close releases outside of a batch;
  * a Flush is never sent;
  * a chunk, or the end of a COPY, that fails belongs to a simple Query
    if and only if no batch waits for a Sync;
  * CopyDone ends the only open COPY of a simple Query, or follows a
    chunk that failed, and CopyFail ends a COPY of a simple Query. -/
def OneReady (m : FrontendMessage) : Prop :=
  w.conn.discarding = true ∨
    match m with
    | .query text => (w.conn.waitForSync = false ∨ w.conn.Releasable m) ∧
        (0 < text.copies → text.endsInCopy = true ∨ text.Fails)
    | .close _ _ => w.conn.waitForSync = true ∨ w.conn.Releasable m
    | .flush => False
    | .copyData o => w.conn.copyFromStdinState = none ∨ o ≠ .loaded →
        (0 < w.copying ↔ w.conn.waitForSync = false)
    | .copyDone fails =>
      match w.conn.copyFromStdinState with
      | none => 0 < w.copying
      | some state =>
        if state.copyErr then True
        else if !state.dataLoader then 0 < w.copying
        else if fails then (0 < w.copying ↔ w.conn.waitForSync = false)
        else w.copying = 1
    | .copyFail => 0 < w.copying
    | _ => True

/-- A COPY that failed is over for the client. -/
def Settled : Prop := w.conn.copyFailed = true → w.copying = 0

/-- The client got what it was owed. -/
def Good : Prop := w.conn.readies = w.due

/-- What holds in every state while it does. -/
structure Inv : Prop where
  settled : w.Settled
  sound : w.conn.Sound
  good : w.Good

variable {w}

theorem owed_discarding (hd : w.conn.discarding = true) (m : FrontendMessage) :
    w.owed m = (if m = .sync then 1 else 0, w.copying) := by
  simp [owed, hd]

/-- From a state in which nothing is owed, a message is answered as it
should be when it makes as much due as it is answered with. -/
theorem receive_good_iff_owed (hg : w.Good) (hd : w.conn.discarding = false) (m : FrontendMessage) :
    (w.receive m).Good ↔ w.conn.readiesFor m = (w.owed m).1 := by
  unfold Good receive
  rw [Conn.receiveMessage_readies _ _ hd, hg, Nat.add_left_cancel_iff]

variable {m : FrontendMessage}

/-- Inside a batch the extended messages are never answered with a
ReadyForQuery: their handlers wait for a Sync first. -/
theorem readiesFor_batch {c : Conn} (hwait : (c.enter m).waitForSync = true)
    (hend : (c.handleMessage m).1 = false) : c.readiesFor m = 0 := by
  unfold Conn.readiesFor
  split <;> rename_i heq <;> simp_all

theorem query_good (hsound : w.conn.Sound) {text : QueryText} (hd : w.conn.discarding = false)
    (h : w.OneReady (.query text)) :
    w.conn.readiesFor (.query text) = (w.owed (.query text)).1 := by
  obtain ⟨hrelease, hcopies⟩ := h.resolve_left (by simp [hd])
  rcases heq : w.conn.handleQuery text with ⟨e, d | d | d⟩ <;>
    simp only [Conn.readiesFor, owed, Conn.handleMessage, Conn.enter, hd, heq, Flow.failed,
      Bool.false_eq_true, false_or, true_or, if_false, if_true]
  · obtain ⟨rfl, -⟩ := Conn.handleQuery_ok heq
    have hfails := Conn.handleQuery_failed heq
    by_cases hc : text.copies = 0
    · have hend : text.endsInCopy = false := Bool.eq_false_iff.mpr fun hend =>
        (QueryText.copies_pos_of_endsInCopy hend).ne' hc
      simp [hc, hend]
    · simp [hc, (hcopies (Nat.pos_of_ne_zero hc)).resolve_right hfails]
  · simp [Conn.handleQuery_error heq]
  · -- the panic is answered at once, since no batch waits for a Sync
    simp [hrelease.resolve_right (Conn.not_releasable_query hsound hd heq)]

theorem copyData_good_iff (o : CopyDataOutcome) (hd : w.conn.discarding = false) :
    w.conn.readiesFor (.copyData o) = (w.owed (.copyData o)).1 ↔ w.OneReady (.copyData o) := by
  cases hstate : w.conn.copyFromStdinState <;> cases o <;> cases hwait : w.conn.waitForSync <;>
    by_cases hc : 0 < w.copying <;>
    simp [Conn.readiesFor, owed, OneReady, Conn.handleMessage, Conn.handleCopyData, Conn.enter, hd,
      hstate, hwait, hc, Flow.failed]

theorem handleCopyData_ok {c d : Conn} {o : CopyDataOutcome} (h : c.handleCopyData o = .ok d) :
    d.copyFailed = c.copyFailed := by
  unfold Conn.handleCopyData at h
  split at h
  · cases h
  next state hstate =>
    cases o with
    | loaded => cases h; simp [Conn.copyFailed, Conn.setCopy, hstate]
    | failsEarly | failsLoading => cases h

theorem copyDone_good_iff (hs : w.Settled) (fails : Bool) (hd : w.conn.discarding = false) :
    w.conn.readiesFor (.copyDone fails) = (w.owed (.copyDone fails)).1 ↔
      w.OneReady (.copyDone fails) := by
  rcases hstate : w.conn.copyFromStdinState with - | ⟨dataLoader, copyErr⟩
  · by_cases hc : w.copying = 0 <;>
      simp [Conn.readiesFor, owed, OneReady, Conn.handleMessage, Conn.handleCopyDone, hd, hstate,
        hc, Flow.failed, Nat.pos_iff_ne_zero]
  · cases copyErr with
    | true =>
      have hover : w.copying = 0 := hs (by simp [Conn.copyFailed, hstate])
      simp [Conn.readiesFor, owed, OneReady, Conn.handleMessage, Conn.handleCopyDone, hd, hstate,
        hover]
    | false =>
      cases dataLoader <;> cases fails <;> cases hwait : w.conn.waitForSync <;>
        by_cases hc : w.copying = 0 <;> by_cases hone : w.copying = 1 <;>
        simp [Conn.readiesFor, owed, OneReady, Conn.handleMessage, Conn.handleCopyDone, Conn.enter,
          hd, hstate, hwait, hc, hone, Flow.failed, Nat.pos_iff_ne_zero]

theorem copyFail_good_iff (hd : w.conn.discarding = false) :
    w.conn.readiesFor .copyFail = (w.owed .copyFail).1 ↔ w.OneReady .copyFail := by
  have hone : w.conn.readiesFor .copyFail = 1 := by
    unfold Conn.readiesFor Conn.handleMessage Conn.handleCopyFail
    cases w.conn.copyFromStdinState with
    | none => rfl
    | some state => cases h : state.dataLoader <;> simp [h]
  by_cases hc : 0 < w.copying <;> simp [hone, owed, OneReady, hd, hc]

theorem close_good_iff (hsound : w.conn.Sound) (ofStatement : Bool) (name : String)
    (hd : w.conn.discarding = false) :
    w.conn.readiesFor (.close ofStatement name) = (w.owed (.close ofStatement name)).1 ↔
      w.OneReady (.close ofStatement name) := by
  have hfailed := Conn.handleClose_failed_iff hsound hd ofStatement name
  rcases heq : w.conn.handleClose ofStatement name with d | d | d <;>
    rw [heq] at hfailed <;>
    simp only [Flow.failed, true_iff, Bool.false_eq_true, false_iff, not_not] at hfailed <;>
    cases hwait : w.conn.waitForSync <;>
    simp [Conn.readiesFor, Conn.handleMessage, Conn.enter, owed, OneReady, hd, heq, hwait, hfailed]

theorem receive_good_discarding (hg : w.Good) (hd : w.conn.discarding = true)
    (m : FrontendMessage) : (w.receive m).Good := by
  unfold Good receive
  rw [Conn.receiveMessage_discarding _ _ hd, hg, owed_discarding hd]

/-- A message other than a Query is answered as it should be exactly under
`OneReady`. -/
theorem receive_good_iff (h : w.Inv) (hm : ∀ text, m ≠ .query text) :
    (w.receive m).Good ↔ w.OneReady m := by
  cases hd : w.conn.discarding with
  | true => exact iff_of_true (receive_good_discarding h.good hd m) (.inl hd)
  | false =>
    rw [receive_good_iff_owed h.good hd]
    cases m with
    | query text => exact absurd rfl (hm text)
    | parse name s outcome =>
      simp [readiesFor_batch (m := .parse name s outcome) rfl rfl, owed, OneReady, hd]
    | describe ofStatement name =>
      simp [readiesFor_batch (m := .describe ofStatement name) rfl rfl, owed, OneReady, hd]
    | bind portal statement fails =>
      simp [readiesFor_batch (m := .bind portal statement fails) rfl rfl, owed, OneReady, hd]
    | execute portal fails =>
      simp [readiesFor_batch (m := .execute portal fails) rfl rfl, owed, OneReady, hd]
    | close ofStatement name => exact close_good_iff h.sound ofStatement name hd
    | flush | sync => simp [Conn.readiesFor, Conn.handleMessage, owed, OneReady, hd]
    | copyData o => exact copyData_good_iff o hd
    | copyDone fails => exact copyDone_good_iff h.settled fails hd
    | copyFail => exact copyFail_good_iff hd

theorem receive_good (h : w.Inv) (hm : w.OneReady m) : (w.receive m).Good := by
  by_cases hquery : ∀ text, m ≠ .query text
  · exact (receive_good_iff h hquery).mpr hm
  · push Not at hquery
    obtain ⟨text, rfl⟩ := hquery
    cases hd : w.conn.discarding with
    | true => exact receive_good_discarding h.good hd _
    | false => exact (receive_good_iff_owed h.good hd _).mpr (query_good h.sound hd hm)

/-- What fails a COPY ends it for the client, and a COPY that begins has
not failed. -/
theorem receive_settled (hs : w.Settled) (m : FrontendMessage) : (w.receive m).Settled := by
  intro hfailed
  have hcopy : (w.conn.receiveMessage m).copyFailed = true := hfailed
  rw [Conn.receiveMessage_proj Conn.copyFailed (fun _ _ => rfl) fun _ _ => rfl] at hcopy
  change (w.owed m).2 = 0
  cases hd : w.conn.discarding with
  | true =>
    rw [hd, if_pos rfl] at hcopy
    rw [owed_discarding hd]
    exact hs hcopy
  | false =>
    rw [hd, if_neg Bool.false_ne_true] at hcopy
    by_cases hm : ∀ o, m ≠ .copyData o
    · have hbefore : w.copying = 0 := by
        refine hs ?_
        have := (w.conn.steady_handleMessage hm).copyFailed hcopy
        cases m <;> exact this
      cases m with
      | query text =>
        simp only [Conn.handleMessage] at hcopy
        rcases heq : w.conn.handleQuery text with ⟨e, d | d | d⟩ <;>
          simp only [owed, Conn.handleMessage, hd, heq, Flow.failed, Bool.false_eq_true,
            if_false, false_or, true_or, if_true]
        split
        · rfl
        · rw [heq] at hcopy
          have := (Conn.handleQuery_ok heq).2 (Nat.pos_of_ne_zero ‹_›)
          exact absurd hcopy (by simp [Flow.conn, this])
      | _ => simp [owed, hd, hbefore]
    · push Not at hm
      obtain ⟨o, rfl⟩ := hm
      rcases heq : w.conn.handleCopyData o with d | d | d <;>
        simp only [owed, Conn.handleMessage, hd, heq, Flow.failed, Bool.false_eq_true, if_false,
          false_and, true_and]
      · rw [Conn.handleMessage, heq] at hcopy
        exact hs ((handleCopyData_ok heq).symm.trans hcopy)
      · split
        · rfl
        · exact Nat.eq_zero_of_not_pos ‹_›
      · split
        · rfl
        · exact Nat.eq_zero_of_not_pos ‹_›

theorem Inv.receive (h : w.Inv) (hgood : (w.receive m).Good) : (w.receive m).Inv :=
  ⟨receive_settled h.settled m, h.sound.receiveMessage m, hgood⟩

/-- **The client is sent exactly the ReadyForQuery messages it is owed**
after every message of a connection, whatever fails, if every message meets
`OneReady` where it is received; and every message other than a Query has
to. -/
theorem ready_discipline (ms : List FrontendMessage) :
    (Along receive OneReady {} ms → ∀ sofar, sofar <+: ms →
      (run receive {} sofar).conn.readies = (run receive {} sofar).due) ∧
    ((∀ sofar, sofar <+: ms →
      (run receive {} sofar).conn.readies = (run receive {} sofar).due) →
      Along receive (fun w m => (∀ text, m ≠ .query text) → w.OneReady m) {} ms) := by
  have h0 : Inv {} := ⟨nofun, Conn.owned_init.toSound, rfl⟩
  refine ⟨fun h sofar hprefix => ?_, fun h => ?_⟩
  · obtain ⟨rest, rfl⟩ := hprefix
    exact (Along.invariant Inv (fun w m hw hm => hw.receive (receive_good hw hm)) h0
      (along_append.mp h).1).good
  · have hstep : ∀ (w : Watched) (m : FrontendMessage), True → w.Good → True →
        ((w.receive m).Good ↔ (w.receive m).Good) := fun _ _ _ _ _ => Iff.rfl
    have hgood := (Along.good_iff (fun _ _ _ _ => trivial) hstep trivial h0.good
      (Along.of_forall (fun _ _ => trivial) _ ms)).mp h
    exact Along.of_invariant Inv (fun w m hw hm => hw.receive hm)
      (fun w m hw hm hquery => (receive_good_iff hw hquery).mp hm) h0 hgood

/-- A COPY of a simple Query, behind an extended batch. -/
theorem ready_discipline_copy :
    ∃ ms : List FrontendMessage,
      ms = [.parse "" { kind := .engine } .prepared, .bind "" "" false, .execute "" false, .sync,
        .query (.statements [({ kind := .copyFromStdin }, false)]), .copyData .loaded,
        .copyDone false] ∧
      Along receive OneReady {} ms ∧ (run receive {} ms).conn.readies = (run receive {} ms).due ∧
      (run receive {} ms).due = 2 := by
  refine ⟨_, rfl, (fun h => ⟨h, (ready_discipline _).1 h _ (List.prefix_refl _), by decide⟩) ?_⟩
  refine ⟨.inr trivial, .inr trivial, .inr trivial, .inr trivial, .inr ⟨.inl rfl, fun _ => ?_⟩,
    .inr fun h => ?_, .inr (show 1 = 1 from rfl), trivial⟩
  · exact .inl (by decide)
  · rcases h with h | h
    · cases h
    · exact absurd rfl h

/-- A Flush is answered with a ReadyForQuery, a Query with a COPY in front
of another statement is answered before the COPY has ended, and CopyDone
of an extended COPY is answered on top of its Sync. -/
theorem ready_sent_out_of_turn :
    (∃ ms : List FrontendMessage, ms = [.parse "" { kind := .engine } .prepared, .flush] ∧
      (run receive {} ms).due = 0 ∧ (run receive {} ms).conn.readies = 1) ∧
    (∃ ms : List FrontendMessage,
      ms = [.query (.statements
        [({ kind := .copyFromStdin }, false), ({ kind := .engine }, false)])] ∧
      (run receive {} ms).due = 0 ∧ (run receive {} ms).conn.readies = 1) ∧
    ∃ ms : List FrontendMessage,
      ms = [.parse "" { kind := .copyFromStdin } .prepared, .bind "" "" false, .execute "" false,
        .copyData .loaded, .copyDone false, .sync] ∧
      (run receive {} ms).due = 1 ∧ (run receive {} ms).conn.readies = 2 :=
  ⟨⟨_, rfl, by decide, by decide⟩, ⟨_, rfl, by decide, by decide⟩, ⟨_, rfl, by decide, by decide⟩⟩

end Watched

end MyDuck.Pg
