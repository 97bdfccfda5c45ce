/-
MyDuck.Pg.StatementTheorems — who closes the prepared DuckDB statements
of a connection.

`Sound` is what the two maps and the cells keep by themselves: an entry
of an ordinary query has both pointers, and they are those of one cell;
no two prepared statements share a cell; a portal has both pointers of a
statement or none; `Close` was called once on the statement of a cell
whose flag is set and never on another.

  * `owned_along`: a DuckDB statement is open exactly while a prepared
    statement refers to it, in every run in which `Owning` holds at every
    message. A Parse over a live name leaks the statement that was there,
    and releasing a portal closes the statement of its prepared
    statement;
  * `nil_free_iff`: no method is called on a nil pointer if and only if
    what is released was prepared by DuckDB (`Releasable`).
-/
import MyDuck.Pg.ReadyTheorems

namespace MyDuck.Pg

namespace Conn

/-! ## Cells -/

def closeCell (c : Conn) (k : Nat) : Conn :=
  c.onCell k fun cell => { cell with closed := true, closes := cell.closes + 1 }

/-- The statement of a cell is closed unless it has been. -/
def closeOnce (c : Conn) (k : Nat) : Conn := if (c.cells k).closed then c else c.closeCell k

/-- The flag of an entry without a statement is set. -/
def markClosed (c : Conn) : Option Nat → Conn
  | none => c
  | some k => c.onCell k fun cell => { cell with closed := true }

theorem release_stmt (c : Conn) (k : Nat) :
    c.release (some k) (some k) = .ok (c.closeOnce k) := by
  unfold closeOnce
  cases h : (c.cells k).closed with
  | true => simp [release, h]
  | false => simp [release, h, onCell, closeCell]

theorem release_bare (c : Conn) {closed : Option Nat}
    (h : ∀ k, closed = some k → (c.cells k).closed = false) :
    c.release closed none = .panic (c.markClosed closed).nilCall := by
  cases closed with
  | none => rfl
  | some k => simp [release, markClosed, h k rfl]

/-! ## What the maps keep by themselves -/

structure Sound (c : Conn) : Prop where
  /-- Nothing was allocated beyond `next`. -/
  fresh : ∀ k, c.next ≤ k → c.cells k = {}
  /-- The entry of an ordinary query. -/
  stmt : ∀ n ps k, c.preparedStatements n = some ps → ps.stmt = some k →
    ps.closed = some k ∧ (c.cells k).prepared = true
  /-- The flag of a query that is handled in place. -/
  inPlace : ∀ n ps k, c.preparedStatements n = some ps → ps.stmt = none → ps.closed = some k →
    k < c.next ∧ (c.cells k).prepared = false ∧ (c.cells k).closed = false
  unique : ∀ n n' ps ps' k, c.preparedStatements n = some ps → c.preparedStatements n' = some ps' →
    ps.closed = some k → ps'.closed = some k → n = n'
  portal : ∀ n p, c.portals n = some p →
    p.closed = p.stmt ∧ ∀ k, p.stmt = some k → (c.cells k).prepared = true
  closes : ∀ k, (c.cells k).prepared = true → (c.cells k).closes = (c.cells k).closed.toNat

/-- The prepared statement `n` refers to the statement of cell `k`. -/
def Refers (c : Conn) (n : String) (k : Nat) : Prop :=
  ∃ ps, c.preparedStatements n = some ps ∧ ps.stmt = some k

/-- A statement is open exactly while a prepared statement refers to it. -/
structure Owned (c : Conn) : Prop extends Sound c where
  open_iff : ∀ k, (c.cells k).prepared = true →
    ((c.cells k).closed = false ↔ ∃ n, c.Refers n k)

structure SameStore (c c' : Conn) : Prop where
  statements : c'.preparedStatements = c.preparedStatements
  portals : c'.portals = c.portals
  cells : c'.cells = c.cells
  next : c'.next = c.next

variable {c : Conn} {k : Nat} {n : String} {ps : PreparedStatementData}
  {o : Option PreparedStatementData} {p : PortalData}

theorem SameStore.sound {c' : Conn} (hs : SameStore c c') (h : c.Sound) : c'.Sound := by
  obtain ⟨hp, hq, hc, hn⟩ := hs
  constructor <;> simp only [hp, hq, hc, hn]
  · exact h.fresh
  · exact h.stmt
  · exact h.inPlace
  · exact h.unique
  · exact h.portal
  · exact h.closes

theorem SameStore.owned {c' : Conn} (hs : SameStore c c') (h : c.Owned) : c'.Owned := by
  refine ⟨hs.sound h.toSound, ?_⟩
  simp only [Refers, hs.statements, hs.cells]
  exact h.open_iff

theorem sameStore_send (c : Conn) (m : BackendMessage) : SameStore c (c.send m) :=
  ⟨rfl, rfl, rfl, rfl⟩

/-- The messages that neither make nor release a statement or a portal. -/
def leavesStore : FrontendMessage → Bool
  | .describe _ _ | .flush | .sync | .copyData _ | .copyDone _ | .copyFail => true
  | .query _ | .parse _ _ _ | .bind _ _ _ | .execute _ _ | .close _ _ => false

theorem handleMessage_of_leavesStore (c : Conn) {m : FrontendMessage} (hm : leavesStore m = true) :
    SameStore c (c.handleMessage m).2.conn ∧ (c.handleMessage m).2.conn.nilCalls = c.nilCalls := by
  cases m with
  | flush | sync => exact ⟨⟨rfl, rfl, rfl, rfl⟩, rfl⟩
  | describe ofStatement name | copyData o | copyDone fails | copyFail =>
    simp only [handleMessage, handleDescribe, handleCopyData, handleCopyDone, handleCopyFail]
    repeat' split
    all_goals exact ⟨⟨rfl, rfl, rfl, rfl⟩, rfl⟩
  | query text | parse n st o | bind portal statement fails | execute portal fails
  | close ofStatement name => cases hm

theorem owned_init : Owned {} where
  fresh := fun _ _ => rfl
  stmt := fun _ _ _ h => by simp at h
  inPlace := fun _ _ _ h => by simp at h
  unique := fun _ _ _ _ _ h => by simp at h
  portal := fun _ _ h => by simp at h
  closes := fun _ h => by simp at h
  open_iff := fun _ h => by simp at h

/-- A prepared cell has been allocated. -/
theorem Sound.lt_next (h : c.Sound) (hk : (c.cells k).prepared = true) : k < c.next := by
  by_contra hge
  rw [h.fresh k (Nat.le_of_not_lt hge)] at hk
  exact Bool.false_ne_true hk

theorem Sound.closed_lt (h : c.Sound) (hps : c.preparedStatements n = some ps)
    (hk : ps.closed = some k) : k < c.next := by
  cases hstmt : ps.stmt with
  | none => exact (h.inPlace n ps k hps hstmt hk).1
  | some j =>
    obtain ⟨hj, hprep⟩ := h.stmt n ps j hps hstmt
    obtain rfl := Option.some.inj (hj.symm.trans hk)
    exact h.lt_next hprep

theorem setStatement_some {m : String} (h : (c.setStatement n o).preparedStatements m = some ps) :
    (m = n ∧ o = some ps) ∨ (m ≠ n ∧ c.preparedStatements m = some ps) := by
  by_cases hm : m = n
  · subst hm
    exact .inl ⟨rfl, by simpa [setStatement] using h⟩
  · exact .inr ⟨hm, by simpa [setStatement, hm] using h⟩

theorem setPortal_some {m : String} {o : Option PortalData}
    (h : (c.setPortal n o).portals m = some p) : o = some p ∨ c.portals m = some p := by
  by_cases hm : m = n
  · subst hm
    exact .inl (by simpa [setPortal] using h)
  · exact .inr (by simpa [setPortal, hm] using h)

/-! ## Releasing -/

theorem Sound.setStatement (h : c.Sound) (n : String)
    (hstmt : ∀ ps k, o = some ps → ps.stmt = some k → ps.closed = some k ∧
      (c.cells k).prepared = true)
    (hinPlace : ∀ ps k, o = some ps → ps.stmt = none → ps.closed = some k → k < c.next ∧
      (c.cells k).prepared = false ∧ (c.cells k).closed = false)
    (hfree : ∀ ps k, o = some ps → ps.closed = some k →
      ∀ m ps', c.preparedStatements m = some ps' → ps'.closed ≠ some k) :
    (c.setStatement n o).Sound where
  fresh := h.fresh
  stmt := fun m ps k hm => by
    rcases setStatement_some hm with ⟨-, hnew⟩ | ⟨-, hold⟩
    · exact hstmt ps k hnew
    · exact h.stmt m ps k hold
  inPlace := fun m ps k hm => by
    rcases setStatement_some hm with ⟨-, hnew⟩ | ⟨-, hold⟩
    · exact hinPlace ps k hnew
    · exact h.inPlace m ps k hold
  unique := fun m m' ps ps' k hm hm' hk hk' => by
    rcases setStatement_some hm with ⟨rfl, hnew⟩ | ⟨-, hold⟩ <;>
      rcases setStatement_some hm' with ⟨rfl, hnew'⟩ | ⟨-, hold'⟩
    · rfl
    · exact absurd hk' (hfree ps k hnew hk m' ps' hold')
    · exact absurd hk (hfree ps' k hnew' hk' m ps hold)
    · exact h.unique m m' ps ps' k hold hold' hk hk'
  portal := h.portal
  closes := h.closes

theorem Sound.dropStatement (h : c.Sound) (n : String) : (c.setStatement n none).Sound :=
  h.setStatement n nofun nofun nofun

theorem Sound.setPortal (h : c.Sound) (n : String) {o : Option PortalData}
    (ho : ∀ p, o = some p → p.closed = p.stmt ∧ ∀ k, p.stmt = some k →
      (c.cells k).prepared = true) :
    (c.setPortal n o).Sound where
  fresh := h.fresh
  stmt := h.stmt
  inPlace := h.inPlace
  unique := h.unique
  portal := fun m p hm => (setPortal_some hm).elim (ho p) (h.portal m p)
  closes := h.closes

@[simp] theorem onCell_cells (c : Conn) (k j : Nat) (f : Cell → Cell) :
    (c.onCell k f).cells j = if j = k then f (c.cells k) else c.cells j := by
  simp [onCell, Function.update_apply]

theorem onCell_prepared {f : Cell → Cell} (hf : (f (c.cells k)).prepared = (c.cells k).prepared)
    (j : Nat) : ((c.onCell k f).cells j).prepared = (c.cells j).prepared := by
  rw [onCell_cells]
  split
  · subst_vars
    exact hf
  · rfl

@[simp] theorem closeOnce_prepared (c : Conn) (k j : Nat) :
    ((c.closeOnce k).cells j).prepared = (c.cells j).prepared := by
  unfold closeOnce
  split
  · rfl
  · exact onCell_prepared (f := fun cell => { cell with closed := true, closes := _ }) rfl j

@[simp] theorem markClosed_prepared (c : Conn) (closed : Option Nat) (j : Nat) :
    ((c.markClosed closed).cells j).prepared = (c.cells j).prepared := by
  cases closed with
  | none => rfl
  | some k => exact onCell_prepared (f := fun cell => { cell with closed := true }) rfl j

@[simp] theorem nilCall_cells (c : Conn) : c.nilCall.cells = c.cells := rfl

@[simp] theorem setStatement_cells (c : Conn) (n : String) (o : Option PreparedStatementData) :
    (c.setStatement n o).cells = c.cells := rfl

@[simp] theorem setPortal_cells (c : Conn) (n : String) (o : Option PortalData) :
    (c.setPortal n o).cells = c.cells := rfl

section

variable (h : c.Sound)

include h

/-- A cell is changed that no query handled in place has. -/
theorem Sound.onCell {f : Cell → Cell} (hlt : k < c.next)
    (hprep : (f (c.cells k)).prepared = (c.cells k).prepared)
    (hfree : ∀ n ps, c.preparedStatements n = some ps → ps.stmt = none → ps.closed ≠ some k)
    (hcloses : (c.cells k).prepared = true →
      (f (c.cells k)).closes = (f (c.cells k)).closed.toNat) :
    (c.onCell k f).Sound where
  fresh := fun j hj => by
    rw [onCell_cells, if_neg (hlt.trans_le hj).ne']
    exact h.fresh j hj
  stmt := fun m ps j hm hj => by
    rw [onCell_prepared hprep]
    exact h.stmt m ps j hm hj
  inPlace := fun m ps j hm hnone hj => by
    have hjk : j ≠ k := fun hjk => hfree m ps hm hnone (hjk ▸ hj)
    rw [onCell_cells, if_neg hjk]
    exact h.inPlace m ps j hm hnone hj
  unique := h.unique
  portal := fun m p hm => by
    simp only [onCell_prepared hprep]
    exact h.portal m p hm
  closes := fun j hj => by
    rw [onCell_prepared hprep] at hj
    rw [onCell_cells]
    split
    · subst_vars
      exact hcloses hj
    · exact h.closes j hj

theorem Sound.closeCell (hk : (c.cells k).prepared = true) (hopen : (c.cells k).closed = false) :
    (c.closeCell k).Sound := by
  refine h.onCell (h.lt_next hk) rfl (fun m ps hm hnone hj => ?_) fun _ => ?_
  · exact Bool.false_ne_true ((h.inPlace m ps k hm hnone hj).2.1.symm.trans hk)
  · simpa [hopen] using h.closes k hk

theorem Sound.closeOnce (hk : (c.cells k).prepared = true) : (c.closeOnce k).Sound := by
  unfold Conn.closeOnce
  cases hopen : (c.cells k).closed with
  | true => exact h
  | false => exact h.closeCell hk hopen

/-- The flag of a cell that no entry has. -/
theorem Sound.markClosed {closed : Option Nat}
    (hk : ∀ k, closed = some k → k < c.next ∧ (c.cells k).prepared = false ∧
      ∀ n ps, c.preparedStatements n = some ps → ps.closed ≠ some k) :
    (c.markClosed closed).Sound := by
  cases closed with
  | none => exact h
  | some k =>
    obtain ⟨hlt, hprep, hfree⟩ := hk k rfl
    refine h.onCell (f := fun cell => { cell with closed := true }) hlt rfl
      (fun m ps hm _ => hfree m ps hm) fun habs => ?_
    exact absurd (hprep.symm.trans habs) Bool.false_ne_true

/-- A prepared statement of an ordinary query closes its statement. -/
theorem deletePreparedStatement_stmt (hps : c.preparedStatements n = some ps)
    (hk : ps.stmt = some k) :
    c.deletePreparedStatement n = .ok ((c.setStatement n none).closeOnce k) := by
  simp only [deletePreparedStatement, hps, hk, (h.stmt n ps k hps hk).1, release_stmt]

/-- One without a statement panics. -/
theorem deletePreparedStatement_bare (hps : c.preparedStatements n = some ps)
    (hk : ps.stmt = none) :
    c.deletePreparedStatement n =
      .panic ((c.setStatement n none).markClosed ps.closed).nilCall := by
  simp only [deletePreparedStatement, hps, hk]
  exact release_bare _ fun k hclosed => (h.inPlace n ps k hps hk hclosed).2.2

theorem deletePortal_stmt (hp : c.portals n = some p) (hk : p.stmt = some k) :
    c.deletePortal n = .ok ((c.setPortal n none).closeOnce k) := by
  simp only [deletePortal, hp, (h.portal n p hp).1, hk, release_stmt]

theorem deletePortal_bare (hp : c.portals n = some p) (hk : p.stmt = none) :
    c.deletePortal n = .panic (c.setPortal n none).nilCall := by
  simp only [deletePortal, hp, (h.portal n p hp).1, hk]
  rfl

theorem Sound.deletePreparedStatement (n : String) : (c.deletePreparedStatement n).conn.Sound := by
  cases hps : c.preparedStatements n with
  | none => simpa [Conn.deletePreparedStatement, hps] using h
  | some ps =>
    cases hk : ps.stmt with
    | some k =>
      rw [deletePreparedStatement_stmt h hps hk]
      exact (h.dropStatement n).closeOnce (h.stmt n ps k hps hk).2
    | none =>
      rw [deletePreparedStatement_bare h hps hk]
      refine SameStore.sound (c := (c.setStatement n none).markClosed ps.closed)
        ⟨rfl, rfl, rfl, rfl⟩ ((h.dropStatement n).markClosed fun k hclosed => ?_)
      obtain ⟨hlt, hprep, -⟩ := h.inPlace n ps k hps hk hclosed
      refine ⟨hlt, hprep, fun m ps' hm hclosed' => ?_⟩
      -- the cell was that of the entry that is gone
      rcases setStatement_some hm with ⟨-, habs⟩ | ⟨hne, hm⟩
      · cases habs
      · exact hne (h.unique m n ps' ps k hm hps hclosed' hclosed)

theorem Sound.deletePortal (n : String) : (c.deletePortal n).conn.Sound := by
  have hdrop : (c.setPortal n none).Sound := h.setPortal n nofun
  cases hp : c.portals n with
  | none => simpa [Conn.deletePortal, hp] using h
  | some p =>
    cases hk : p.stmt with
    | some k =>
      rw [deletePortal_stmt h hp hk]
      exact hdrop.closeOnce ((h.portal n p hp).2 k hk)
    | none =>
      rw [deletePortal_bare h hp hk]
      exact SameStore.sound (c := c.setPortal n none) ⟨rfl, rfl, rfl, rfl⟩ hdrop

end

/-! ## Ownership -/

@[simp] theorem closeOnce_refers (c : Conn) (j : Nat) (n : String) (k : Nat) :
    (c.closeOnce j).Refers n k ↔ c.Refers n k := by
  unfold closeOnce
  split <;> rfl

@[simp] theorem markClosed_refers (c : Conn) (o : Option Nat) (n : String) (k : Nat) :
    (c.markClosed o).Refers n k ↔ c.Refers n k := by
  cases o <;> rfl

theorem refers_setStatement {m : String} :
    (c.setStatement n o).Refers m k ↔
      (m = n ∧ ∃ ps, o = some ps ∧ ps.stmt = some k) ∨ (m ≠ n ∧ c.Refers m k) := by
  by_cases hm : m = n <;> simp [Refers, setStatement, hm]

/-- The statement that an entry had is closed with it; no other entry
refers to it. -/
theorem Owned.open_iff_of_stmt (h : c.Owned) {j : Nat} (hps : c.preparedStatements n = some ps)
    (hj : ps.stmt = some j) (hk : (c.cells k).prepared = true) :
    (((c.setStatement n none).closeOnce j).cells k).closed = false ↔
      ∃ m, (c.setStatement n none).Refers m k := by
  obtain ⟨hclosed, hprep⟩ := h.stmt n ps j hps hj
  have hopen : ((c.setStatement n none).cells j).closed = false :=
    (h.open_iff j hprep).mpr ⟨n, ps, hps, hj⟩
  rw [closeOnce, hopen, if_neg Bool.false_ne_true, closeCell, onCell_cells]
  simp only [refers_setStatement, reduceCtorEq, false_and, exists_false, and_false, false_or]
  by_cases hkj : k = j
  · subst hkj
    refine iff_of_false (by simp) ?_
    rintro ⟨m, hne, ps', hm, hk'⟩
    exact hne (h.unique m n ps' ps k hm hps (h.stmt m ps' k hm hk').1 hclosed)
  · rw [if_neg hkj]
    refine (h.open_iff k hk).trans (exists_congr fun m => ⟨fun hm => ⟨?_, hm⟩, And.right⟩)
    rintro rfl
    obtain ⟨ps', hps', hk'⟩ := hm
    obtain rfl := Option.some.inj (hps.symm.trans hps')
    exact hkj (Option.some.inj (hk'.symm.trans hj))

/-- An entry without a statement owns none. -/
theorem Owned.open_iff_of_bare (h : c.Owned) (hps : c.preparedStatements n = some ps)
    (hj : ps.stmt = none) (hk : (c.cells k).prepared = true) :
    (((c.setStatement n none).markClosed ps.closed).cells k).closed = false ↔
      ∃ m, (c.setStatement n none).Refers m k := by
  have hcell : ((c.setStatement n none).markClosed ps.closed).cells k = c.cells k := by
    cases hclosed : ps.closed with
    | none => rfl
    | some j =>
      have hjk : k ≠ j := by
        rintro rfl
        exact Bool.false_ne_true ((h.inPlace n ps k hps hj hclosed).2.1.symm.trans hk)
      simp [Conn.markClosed, hjk, setStatement]
  simp only [hcell, refers_setStatement, reduceCtorEq, false_and, exists_false, and_false, false_or]
  refine (h.open_iff k hk).trans (exists_congr fun m => ⟨fun hm => ⟨?_, hm⟩, And.right⟩)
  rintro rfl
  obtain ⟨ps', hps', hk'⟩ := hm
  obtain rfl := Option.some.inj (hps.symm.trans hps')
  cases hj.symm.trans hk'

/-- Removing a prepared statement closes its statement, and only that one. -/
theorem Owned.deletePreparedStatement (h : c.Owned) (n : String) :
    (c.deletePreparedStatement n).conn.Owned := by
  refine ⟨h.toSound.deletePreparedStatement n, ?_⟩
  cases hps : c.preparedStatements n with
  | none => simpa [Conn.deletePreparedStatement, hps] using h.open_iff
  | some ps =>
    cases hj : ps.stmt with
    | some j =>
      rw [deletePreparedStatement_stmt h.toSound hps hj]
      intro k hk
      simpa using h.open_iff_of_stmt hps hj (by simpa using hk)
    | none =>
      rw [deletePreparedStatement_bare h.toSound hps hj]
      intro k hk
      exact (h.open_iff_of_bare hps hj (by simpa using hk)).trans
        (exists_congr fun m => (markClosed_refers _ _ m k).symm)

/-- Releasing a portal whose statement no prepared statement refers to
closes nothing. -/
theorem Owned.deletePortal (h : c.Owned)
    (hfree : ∀ p k, c.portals n = some p → p.stmt = some k → ∀ m, ¬ c.Refers m k) :
    (c.deletePortal n).conn.Owned := by
  have hdrop : (c.setPortal n none).Owned := ⟨h.toSound.setPortal n nofun, h.open_iff⟩
  cases hp : c.portals n with
  | none => simpa [Conn.deletePortal, hp] using h
  | some p =>
    cases hk : p.stmt with
    | some k =>
      have hclosed : (c.cells k).closed = true := by
        rw [← Bool.not_eq_false]
        intro hopen
        obtain ⟨m, hm⟩ := (h.open_iff k ((h.portal n p hp).2 k hk)).mp hopen
        exact hfree p k hp hk m hm
      rw [deletePortal_stmt h.toSound hp hk, closeOnce, setPortal_cells, if_pos hclosed]
      exact hdrop
    | none =>
      rw [deletePortal_bare h.toSound hp hk]
      exact SameStore.owned (c := c.setPortal n none) ⟨rfl, rfl, rfl, rfl⟩ hdrop

/-! ## Parse and Bind -/

theorem allocate_cells {cell : Cell} (hk : k ≠ c.next) : (c.allocate cell).cells k = c.cells k :=
  Function.update_of_ne hk _ _

@[simp] theorem allocate_cells_next (c : Conn) (cell : Cell) :
    (c.allocate cell).cells c.next = cell :=
  Function.update_self _ _ _

theorem Sound.allocate (h : c.Sound) (b : Bool) :
    (c.allocate { prepared := b }).Sound where
  fresh := fun k hk => by
    rw [allocate_cells (Nat.ne_of_gt hk)]
    exact h.fresh k (Nat.le_of_succ_le hk)
  stmt := fun m ps k hm hk => by
    obtain ⟨hclosed, hprep⟩ := h.stmt m ps k hm hk
    rw [allocate_cells (h.lt_next hprep).ne]
    exact ⟨hclosed, hprep⟩
  inPlace := fun m ps k hm hnone hk => by
    obtain ⟨hlt, hcell⟩ := h.inPlace m ps k hm hnone hk
    rw [allocate_cells hlt.ne]
    exact ⟨Nat.lt_succ_of_lt hlt, hcell⟩
  unique := h.unique
  portal := fun m p hm => by
    obtain ⟨hclosed, hprep⟩ := h.portal m p hm
    refine ⟨hclosed, fun k hk => ?_⟩
    rw [allocate_cells (h.lt_next (hprep k hk)).ne]
    exact hprep k hk
  closes := fun k hk => by
    by_cases hnew : k = c.next
    · subst hnew
      rw [allocate_cells_next]
      rfl
    · rw [allocate_cells hnew] at hk ⊢
      exact h.closes k hk

/-- The entry of a query that is empty or handled in place. -/
theorem Sound.storeBare (h : c.Sound) (n : String) (s : Statement) :
    (c.setStatement n (some { statement := s })).Sound := by
  refine h.setStatement n ?_ ?_ ?_ <;> rintro ps k ⟨⟩ <;> exact nofun

theorem Sound.store (h : c.Sound) (n : String) (s : Statement) (b : Bool) :
    ((c.allocate { prepared := b }).setStatement n
      (some { statement := s, stmt := if b then some c.next else none,
              closed := some c.next })).Sound := by
  refine (h.allocate b).setStatement n ?_ ?_ ?_ <;> rintro ps k ⟨⟩
  · cases b with
    | true => rintro ⟨⟩; exact ⟨rfl, by rw [allocate_cells_next]⟩
    | false => exact nofun
  · cases b with
    | true => exact nofun
    | false =>
      rintro - ⟨⟩
      exact ⟨Nat.lt_succ_self _, by rw [allocate_cells_next]; exact ⟨rfl, rfl⟩⟩
  · rintro ⟨⟩ m ps' hm hclosed
    exact absurd (h.closed_lt hm hclosed) (Nat.lt_irrefl _)

/-- Storing an entry where no statement was owned: the owners are those
there were, and the entry itself. -/
theorem refers_store (hold : ∀ k, ¬ c.Refers n k) (k : Nat) :
    (∃ m, (c.setStatement n (some ps)).Refers m k) ↔ ps.stmt = some k ∨ ∃ m, c.Refers m k := by
  simp only [refers_setStatement]
  constructor
  · rintro ⟨m, ⟨-, ps', ⟨⟩, hk⟩ | ⟨-, hm⟩⟩
    · exact .inl hk
    · exact .inr ⟨m, hm⟩
  · rintro (hk | ⟨m, hm⟩)
    · exact ⟨n, .inl ⟨rfl, ps, rfl, hk⟩⟩
    · exact ⟨m, .inr ⟨fun hmn => hold k (hmn ▸ hm), hm⟩⟩

theorem Owned.storeBare (h : c.Owned) (s : Statement) (hold : ∀ k, ¬ c.Refers n k) :
    (c.setStatement n (some { statement := s })).Owned :=
  ⟨h.toSound.storeBare n s, fun k hk =>
    (h.open_iff k hk).trans <| by simp [refers_store hold]⟩

theorem Owned.store (h : c.Owned) (s : Statement) (b : Bool) (hold : ∀ k, ¬ c.Refers n k) :
    ((c.allocate { prepared := b }).setStatement n
      (some { statement := s, stmt := if b then some c.next else none,
              closed := some c.next })).Owned := by
  refine ⟨h.toSound.store n s b, fun k hk => ?_⟩
  rw [refers_store (c := c.allocate { prepared := b }) hold]
  rw [setStatement_cells] at hk ⊢
  by_cases hnew : k = c.next
  · subst hnew
    rw [allocate_cells_next] at hk ⊢
    simp [show b = true from hk]
  · rw [allocate_cells hnew] at hk ⊢
    refine (h.open_iff k hk).trans ⟨.inr, ?_⟩
    rintro (habs | hm)
    · cases b <;> simp_all
    · exact hm

/-- A Parse over a name that owns no statement. -/
theorem Owned.handleParse (h : c.Owned) (s : Statement) (outcome : ParseOutcome)
    (hold : (!s.hasAST && s.blank) = true ∨ outcome ≠ .fails → ∀ k, ¬ c.Refers n k) :
    (c.handleParse n s outcome).conn.Owned := by
  have hwait : c.awaitSync.Owned := SameStore.owned (c := c) ⟨rfl, rfl, rfl, rfl⟩ h
  simp only [Conn.handleParse]
  split
  next hempty => exact (sameStore_send _ _).owned (hwait.storeBare s (hold (.inl hempty)))
  next =>
    cases outcome with
    | fails => exact hwait
    | inPlace =>
      exact (sameStore_send _ _).owned (hwait.store s false (hold (.inr (by decide))))
    | prepared =>
      exact (sameStore_send _ _).owned (hwait.store s true (hold (.inr (by decide))))

theorem Sound.handleParse (h : c.Sound) (n : String) (s : Statement) (outcome : ParseOutcome) :
    (c.handleParse n s outcome).conn.Sound := by
  have hwait : c.awaitSync.Sound := SameStore.sound (c := c) ⟨rfl, rfl, rfl, rfl⟩ h
  simp only [Conn.handleParse]
  split
  · exact (sameStore_send _ _).sound (hwait.storeBare n s)
  · cases outcome with
    | fails => exact hwait
    | inPlace => exact (sameStore_send _ _).sound (hwait.store n s false)
    | prepared => exact (sameStore_send _ _).sound (hwait.store n s true)

/-- A portal takes both pointers of an ordinary query, or none. -/
theorem handleBind_cases (c : Conn) (portal statement : String) (fails : Bool) :
    SameStore c (c.handleBind portal statement fails).conn ∨
      ∃ ps p, c.preparedStatements statement = some ps ∧
        (p.stmt = none ∧ p.closed = none ∨
          p.stmt = ps.stmt ∧ p.closed = ps.closed ∧ ps.stmt ≠ none) ∧
        SameStore (c.setPortal portal (some p)) (c.handleBind portal statement fails).conn := by
  simp only [handleBind]
  split
  · exact .inl ⟨rfl, rfl, rfl, rfl⟩
  next ps hps =>
    split_ifs with hstmt hast
    · exact .inr ⟨ps, _, hps, .inl ⟨rfl, rfl⟩, ⟨rfl, rfl, rfl, rfl⟩⟩
    · exact .inr ⟨ps, _, hps, .inl ⟨rfl, rfl⟩, ⟨rfl, rfl, rfl, rfl⟩⟩
    · exact .inl ⟨rfl, rfl, rfl, rfl⟩
    · exact .inr ⟨ps, _, hps, .inr ⟨rfl, rfl, hstmt⟩, ⟨rfl, rfl, rfl, rfl⟩⟩

/-- What of Bind matters here: a portal is set that takes its pointers
from a prepared statement. -/
theorem Sound.bound (h : c.Sound) {portal statement : String}
    (hps : c.preparedStatements statement = some ps)
    (hp : p.stmt = none ∧ p.closed = none ∨ p.stmt = ps.stmt ∧ p.closed = ps.closed ∧
      ps.stmt ≠ none) :
    (c.setPortal portal (some p)).Sound := by
  refine h.setPortal portal fun p' hp' => ?_
  obtain rfl := Option.some.inj hp'
  rcases hp with ⟨hstmt, hclosed⟩ | ⟨hstmt, hclosed, hsome⟩
  · exact ⟨hclosed.trans hstmt.symm, fun k hk => nomatch hstmt.symm.trans hk⟩
  · obtain ⟨k, hk⟩ := Option.ne_none_iff_exists'.mp hsome
    obtain ⟨hflag, hprep⟩ := h.stmt statement ps k hps hk
    refine ⟨by rw [hstmt, hclosed, hk, hflag], fun j hj => ?_⟩
    obtain rfl := Option.some.inj (hk.symm.trans (hstmt.symm.trans hj))
    exact hprep

theorem Sound.handleBind (h : c.Sound) (portal statement : String) (fails : Bool) :
    (c.handleBind portal statement fails).conn.Sound := by
  rcases c.handleBind_cases portal statement fails with hsame | ⟨ps, p, hps, hp, hsame⟩
  · exact hsame.sound h
  · exact hsame.sound (h.bound hps hp)

theorem Owned.handleBind (h : c.Owned) (portal statement : String) (fails : Bool) :
    (c.handleBind portal statement fails).conn.Owned := by
  rcases c.handleBind_cases portal statement fails with hsame | ⟨ps, p, hps, hp, hsame⟩
  · exact hsame.owned h
  · exact hsame.owned ⟨h.toSound.bound hps hp, h.open_iff⟩

/-! ## The handlers -/

section Kept

variable {P : Conn → Prop} (hsame : ∀ {c c' : Conn}, SameStore c c' → P c → P c')
  (hdelete : ∀ {c : Conn} (n : String), P c → P (c.deletePreparedStatement n).conn)

include hsame

variable {c : Conn}

theorem kept_reply (h : P c) (fails : Bool) (m : BackendMessage) : P (c.reply fails m).conn := by
  cases fails with
  | true => exact h
  | false => exact hsame (c.sameStore_send m) h

theorem kept_andThen_send {flow : Flow} (h : P flow.conn) (m : BackendMessage) :
    P (flow.andThen fun c => .ok (c.send m)).conn := by
  cases flow with
  | ok c => exact hsame (c.sameStore_send m) h
  | error c | panic c => exact h

include hdelete

theorem kept_outsideEngine (h : P c) {s : Statement} {fails : Bool} {r : Bool × Flow}
    (hr : c.handleStatementOutsideEngine s fails = some r) : P r.2.conn := by
  unfold handleStatementOutsideEngine at hr
  split at hr <;> cases hr
  case h_1 name _ =>
    simp only [deallocatePreparedStatement]
    split
    · exact h
    · exact kept_andThen_send hsame (hdelete name h) _
  case h_2 => exact hsame (c.sameStore_send _) h
  case h_3 =>
    refine kept_reply hsame ?_ fails _
    exact hsame (c := c) ⟨rfl, rfl, rfl, rfl⟩ h
  case h_4 | h_5 => exact kept_reply hsame h fails _

theorem kept_handleStatement (h : P c) (s : Statement) (fails : Bool) :
    P (c.handleStatement s fails).2.conn := by
  unfold handleStatement
  cases hr : c.handleStatementOutsideEngine s fails with
  | none => exact kept_reply hsame h fails _
  | some r => exact kept_outsideEngine hsame hdelete h hr

theorem kept_handleStatements (ss : List (Statement × Bool)) (h : P c) (e : Bool) :
    P (c.handleStatements e ss).2.conn := by
  induction ss generalizing c e with
  | nil => exact h
  | cons s ss ih =>
    have hs := kept_handleStatement hsame hdelete h s.1 s.2
    rw [handleStatements]
    split <;> rename_i heq <;> rw [heq] at hs
    · exact ih hs _
    · exact hs
    · exact hs

theorem kept_handleExecute (h : P c) (portal : String) (fails : Bool) :
    P (c.handleExecute portal fails).conn := by
  have hwait : P c.awaitSync := hsame (c := c) ⟨rfl, rfl, rfl, rfl⟩ h
  simp only [handleExecute]
  split
  · exact hwait
  · split_ifs
    · exact hsame (sameStore_send _ _) (hsame (sameStore_send _ _) hwait)
    · split <;> rename_i heq
      · exact kept_outsideEngine hsame hdelete hwait heq
      · exact kept_reply hsame hwait fails _
    · exact kept_reply hsame hwait fails _

theorem kept_handleQuery (h : P c) (text : QueryText)
    (hdrop : ∀ ss, text = .statements ss → P c.dropUnnamed.conn) :
    P (c.handleQuery text).2.conn := by
  cases text with
  | answered fails => exact kept_reply hsame h fails _
  | statements ss =>
    have hdropped := hdrop ss rfl
    simp only [handleQuery]
    split <;> rename_i heq
    · rw [heq] at hdropped
      exact kept_handleStatements hsame hdelete ss hdropped true
    · exact hdropped

/-- The handlers of Parse, Bind, Close and Query are those that change the
maps without the engine. -/
theorem kept_handleMessage (h : P c) (m : FrontendMessage)
    (hparse : ∀ n s o, m = .parse n s o → P (c.handleParse n s o).conn)
    (hbind : ∀ portal statement fails, P (c.handleBind portal statement fails).conn)
    (hportal : ∀ n, m = .close false n → P (c.deletePortal n).conn)
    (hdrop : ∀ ss, m = .query (.statements ss) → P c.dropUnnamed.conn) :
    P (c.handleMessage m).2.conn := by
  have hleft : leavesStore m = true → P (c.handleMessage m).2.conn := fun hm =>
    hsame (c.handleMessage_of_leavesStore hm).1 h
  cases m with
  | query text =>
    exact kept_handleQuery hsame hdelete h text fun ss htext => hdrop ss (htext ▸ rfl)
  | parse n s o => exact hparse n s o rfl
  | describe ofStatement name => exact hleft rfl
  | bind portal statement fails => exact hbind portal statement fails
  | execute portal fails => exact kept_handleExecute hsame hdelete h portal fails
  | close ofStatement name =>
    refine kept_andThen_send hsame ?_ _
    cases ofStatement with
    | true => exact hdelete name h
    | false => exact hportal name rfl
  | flush | sync | copyData o | copyDone fails | copyFail => exact hleft rfl

omit hdelete in
theorem kept_receiveMessage (h : P c) {m : FrontendMessage}
    (hm : c.discarding = false → P (c.handleMessage m).2.conn) : P (c.receiveMessage m) := by
  have hstore : SameStore (if c.discarding then c else (c.handleMessage m).2.conn)
      (c.receiveMessage m) :=
    ⟨receiveMessage_proj preparedStatements (fun _ _ => rfl) (fun _ _ => rfl) c m,
      receiveMessage_proj portals (fun _ _ => rfl) (fun _ _ => rfl) c m,
      receiveMessage_proj cells (fun _ _ => rfl) (fun _ _ => rfl) c m,
      receiveMessage_proj next (fun _ _ => rfl) (fun _ _ => rfl) c m⟩
  refine hsame hstore ?_
  split
  · exact h
  next hd => exact hm (Bool.eq_false_iff.mpr hd)

end Kept

theorem Sound.dropUnnamed (h : c.Sound) : c.dropUnnamed.conn.Sound := by
  have hfirst := h.deletePreparedStatement ""
  unfold Conn.dropUnnamed Flow.andThen
  split <;> rename_i heq <;> rw [heq] at hfirst
  · exact hfirst.deletePortal ""
  · exact hfirst
  · exact hfirst

theorem Sound.handleMessage (h : c.Sound) (m : FrontendMessage) :
    (c.handleMessage m).2.conn.Sound :=
  kept_handleMessage SameStore.sound (fun n h => h.deletePreparedStatement n) h m
    (fun n s o _ => h.handleParse n s o) h.handleBind (fun n _ => h.deletePortal n)
    fun _ _ => h.dropUnnamed

/-- **What the maps keep by themselves** holds after every message. -/
theorem Sound.receiveMessage (h : c.Sound) (m : FrontendMessage) : (c.receiveMessage m).Sound :=
  kept_receiveMessage SameStore.sound h fun _ => h.handleMessage m

/-! ## Open exactly while owned -/

/-- What has to hold at a message that is handled:

  * a Parse of an empty query, or of one that is prepared or handled in
    place, finds no DuckDB statement under its name;
  * a portal that is closed is not bound to the statement of a prepared
    statement, and the unnamed portal of a Query not to that of a named
    one. -/
def Owning (c : Conn) (m : FrontendMessage) : Prop :=
  c.discarding = true ∨
    match m with
    | .parse n s o => (!s.hasAST && s.blank) = true ∨ o ≠ .fails → ∀ k, ¬ c.Refers n k
    | .close false n => ∀ p k, c.portals n = some p → p.stmt = some k → ∀ m, ¬ c.Refers m k
    | .query (.statements _) =>
      ∀ p k, c.portals "" = some p → p.stmt = some k → ∀ m, m ≠ "" → ¬ c.Refers m k
    | _ => True

theorem release_frame (c : Conn) (closed stmt : Option Nat) :
    (c.release closed stmt).conn.preparedStatements = c.preparedStatements ∧
      (c.release closed stmt).conn.portals = c.portals := by
  unfold release
  split
  · exact ⟨rfl, rfl⟩
  · split
    · exact ⟨rfl, rfl⟩
    · split <;> exact ⟨rfl, rfl⟩

/-- Removing a prepared statement leaves the portals and the other
prepared statements alone. -/
theorem deletePreparedStatement_frame (c : Conn) (n : String) :
    (c.deletePreparedStatement n).conn.portals = c.portals ∧
      ∀ m k, (c.deletePreparedStatement n).conn.Refers m k → m ≠ n ∧ c.Refers m k := by
  unfold deletePreparedStatement
  split
  next hnone =>
    refine ⟨rfl, fun m k hm => ⟨?_, hm⟩⟩
    rintro rfl
    obtain ⟨ps, hps, -⟩ := hm
    cases hnone.symm.trans hps
  next ps _ =>
    obtain ⟨hstmts, hportals⟩ := (c.setStatement n none).release_frame ps.closed ps.stmt
    refine ⟨hportals, fun m k hm => ?_⟩
    simp only [Refers, hstmts] at hm
    simpa using refers_setStatement.mp hm

theorem Owned.dropUnnamed (h : c.Owned)
    (hfree : ∀ p k, c.portals "" = some p → p.stmt = some k → ∀ m, m ≠ "" → ¬ c.Refers m k) :
    c.dropUnnamed.conn.Owned := by
  obtain ⟨hportals, hrefers⟩ := c.deletePreparedStatement_frame ""
  have hfirst := h.deletePreparedStatement ""
  unfold Conn.dropUnnamed Flow.andThen
  split <;> rename_i heq <;> rw [heq] at hfirst hportals hrefers
  · refine hfirst.deletePortal fun p k hp hk m hm => ?_
    obtain ⟨hne, hm⟩ := hrefers m k hm
    exact hfree p k (hportals ▸ hp) hk m hne hm
  · exact hfirst
  · exact hfirst

theorem Owned.receiveMessage (h : c.Owned) {m : FrontendMessage} (hm : c.Owning m) :
    (c.receiveMessage m).Owned := by
  refine kept_receiveMessage SameStore.owned h fun hd => ?_
  have hm := hm.resolve_left (by simp [hd])
  refine kept_handleMessage SameStore.owned (fun n h => h.deletePreparedStatement n) h m
    ?_ h.handleBind ?_ ?_
  · rintro n s o rfl
    exact h.handleParse s o hm
  · rintro n rfl
    exact h.deletePortal hm
  · rintro ss rfl
    exact h.dropUnnamed hm

/-- **A DuckDB statement is open exactly while a prepared statement refers
to it**, and is closed once, in every state of a run in which every
message meets `Owning` where it is received. -/
theorem owned_along {ms : List FrontendMessage} (h : Along receiveMessage Owning {} ms) (k : Nat)
    (hk : ((run receiveMessage {} ms).cells k).prepared = true) :
    (((run receiveMessage {} ms).cells k).closes = 0 ↔
        ∃ n, (run receiveMessage {} ms).Refers n k) ∧
      ((run receiveMessage {} ms).cells k).closes ≤ 1 := by
  have howned := Along.invariant Owned (fun _ _ hc hm => hc.receiveMessage hm) owned_init h
  rw [howned.closes k hk, ← howned.open_iff k hk]
  cases ((run receiveMessage {} ms).cells k).closed <;> simp

/-- An ordinary session: the statement is closed, the portal afterwards. -/
def ordinarySession : List FrontendMessage :=
  [.parse "s" { kind := .engine } .prepared, .bind "p" "s" false, .execute "p" false, .sync,
    .close true "s", .close false "p", .sync]

theorem owned_ordinarySession :
    Along receiveMessage Owning {} ordinarySession ∧
      ((run receiveMessage {} ordinarySession).cells 0).closes ≤ 1 := by
  have h : Along receiveMessage Owning {} ordinarySession := by
    refine ⟨.inr ?_, .inr trivial, .inr trivial, .inr trivial, .inr trivial, .inr ?_, .inr trivial,
      trivial⟩
    · rintro - k ⟨ps, hps, -⟩
      cases hps
    · -- no prepared statement is left
      rintro p k - - m ⟨ps, hps, -⟩
      by_cases hm : m = "s"
      · subst hm
        cases hps
      · exact nomatch hps.symm.trans
          ((Function.update_of_ne hm _ _).trans (Function.update_of_ne hm _ _))
  exact ⟨h, (owned_along h 0 (by decide)).2⟩

/-- A Query drops the unnamed portal and with it closes the statement of
a prepared statement that stays in the map. -/
theorem portal_closes_live_statement :
    ∃ ms : List FrontendMessage,
      ms = [.parse "s" { kind := .engine } .prepared, .bind "" "s" false, .sync,
        .query (.statements [({ kind := .engine }, false)])] ∧
      (run receiveMessage {} ms).Refers "s" 0 ∧
      ((run receiveMessage {} ms).cells 0).prepared = true ∧
      ((run receiveMessage {} ms).cells 0).closes = 1 :=
  ⟨_, rfl, ⟨_, rfl, rfl⟩, by decide, by decide⟩

/-! ## Nil pointers -/

/-- The prepared statement `n`, if there is one, was prepared by DuckDB. -/
def hasStmt (c : Conn) (n : String) : Bool := (c.preparedStatements n).all (·.stmt.isSome)

/-- The portal `n`, if there is one, was bound to such a statement. -/
def portalHasStmt (c : Conn) (n : String) : Bool := (c.portals n).all (·.stmt.isSome)

@[simp] theorem closeOnce_nilCalls (c : Conn) (k : Nat) :
    (c.closeOnce k).nilCalls = c.nilCalls := by
  unfold closeOnce
  split <;> rfl

@[simp] theorem markClosed_nilCalls (c : Conn) (o : Option Nat) :
    (c.markClosed o).nilCalls = c.nilCalls := by
  cases o <;> rfl

/-- A statement without a handle calls a method on it; any other does not. -/
theorem deletePreparedStatement_nil (h : c.Sound) (n : String) :
    (c.hasStmt n = true ∧ ∃ d, c.deletePreparedStatement n = .ok d ∧ d.nilCalls = c.nilCalls) ∨
      (c.hasStmt n = false ∧
        ∃ d, c.deletePreparedStatement n = .panic d ∧ d.nilCalls = c.nilCalls + 1) := by
  unfold hasStmt
  cases hps : c.preparedStatements n with
  | none => exact .inl ⟨rfl, c, by simp [deletePreparedStatement, hps], rfl⟩
  | some ps =>
    cases hk : ps.stmt with
    | some k => exact .inl ⟨by simp [hk], _, deletePreparedStatement_stmt h hps hk, by simp; rfl⟩
    | none =>
      exact .inr ⟨by simp [hk], _, deletePreparedStatement_bare h hps hk, by simp [nilCall]; rfl⟩

theorem deletePortal_nil (h : c.Sound) (n : String) :
    (c.portalHasStmt n = true ∧ ∃ d, c.deletePortal n = .ok d ∧ d.nilCalls = c.nilCalls) ∨
      (c.portalHasStmt n = false ∧
        ∃ d, c.deletePortal n = .panic d ∧ d.nilCalls = c.nilCalls + 1) := by
  unfold portalHasStmt
  cases hp : c.portals n with
  | none => exact .inl ⟨rfl, c, by simp [deletePortal, hp], rfl⟩
  | some p =>
    cases hk : p.stmt with
    | some k => exact .inl ⟨by simp [hk], _, deletePortal_stmt h hp hk, by simp; rfl⟩
    | none => exact .inr ⟨by simp [hk], _, deletePortal_bare h hp hk, rfl⟩

/-- Running a statement outside the engine calls a method on a nil pointer
only when it deallocates a statement without a handle, and panics then. -/
theorem outsideEngine_nil (h : c.Sound) {s : Statement} {fails : Bool} {r : Bool × Flow}
    (hr : c.handleStatementOutsideEngine s fails = some r) :
    (r.2.conn.nilCalls = c.nilCalls ↔ ∀ n, s.kind = .deallocate n → c.hasStmt n = true) ∧
      (r.2.panicked = false → r.2.conn.nilCalls = c.nilCalls) := by
  have hreply : ∀ (d : Conn) m, d.nilCalls = c.nilCalls →
      (d.reply fails m).conn.nilCalls = c.nilCalls :=
    fun d m hd => by cases fails <;> exact hd
  unfold handleStatementOutsideEngine at hr
  split at hr <;> cases hr
  case h_1 name hkind =>
    simp only [hkind, StatementKind.deallocate.injEq, forall_eq', deallocatePreparedStatement]
    split
    next hnone => simp [hasStmt, hnone]
    next =>
      rcases deletePreparedStatement_nil h name with
        ⟨hhas, d, hd, hcalls⟩ | ⟨hhas, d, hd, hcalls⟩ <;>
        simp only [hd, Flow.andThen, Flow.conn, Flow.panicked, hhas, hcalls]
      · exact ⟨iff_of_true hcalls trivial, fun _ => hcalls⟩
      · exact ⟨iff_of_false (Nat.succ_ne_self _) Bool.false_ne_true, fun h => by cases h⟩
  case h_2 hkind => exact ⟨iff_of_true rfl (by simp [hkind]), fun _ => rfl⟩
  case h_3 hkind | h_4 hkind | h_5 hkind =>
    exact ⟨iff_of_true (hreply _ _ rfl) (by simp [hkind]), fun _ => hreply _ _ rfl⟩

theorem handleStatement_nil (h : c.Sound) (s : Statement) (fails : Bool) :
    ((c.handleStatement s fails).2.conn.nilCalls = c.nilCalls ↔
        ∀ n, s.kind = .deallocate n → c.hasStmt n = true) ∧
      ((c.handleStatement s fails).2.panicked = false →
        (c.handleStatement s fails).2.conn.nilCalls = c.nilCalls) := by
  unfold handleStatement
  cases hr : c.handleStatementOutsideEngine s fails with
  | none =>
    have hkind : ∀ n, s.kind ≠ .deallocate n := by
      intro n hkind
      simp [handleStatementOutsideEngine, hkind] at hr
    have hcalls : (c.reply fails .commandComplete).conn.nilCalls = c.nilCalls := by
      cases fails <;> rfl
    exact ⟨iff_of_true hcalls fun n hn => absurd hn (hkind n), fun _ => hcalls⟩
  | some r => exact outsideEngine_nil h hr

/-- Every DEALLOCATE that the loop over the statements reaches finds a
statement prepared by DuckDB, or none. -/
def DeallocatesHeld (c : Conn) : List (Statement × Bool) → Prop
  | [] => True
  | s :: ss => (∀ n, s.1.kind = .deallocate n → c.hasStmt n = true) ∧
      ∀ e d, c.handleStatement s.1 s.2 = (e, .ok d) → DeallocatesHeld d ss

theorem handleStatements_nil (ss : List (Statement × Bool)) (h : c.Sound) (e : Bool) :
    (c.handleStatements e ss).2.conn.nilCalls = c.nilCalls ↔ c.DeallocatesHeld ss := by
  induction ss generalizing c e with
  | nil => exact iff_of_true rfl trivial
  | cons s ss ih =>
    obtain ⟨hiff, hok⟩ := handleStatement_nil h s.1 s.2
    have hsound := kept_handleStatement SameStore.sound
      (fun n h => h.deletePreparedStatement n) h s.1 s.2
    rw [handleStatements, DeallocatesHeld, ← hiff]
    rcases heq : c.handleStatement s.1 s.2 with ⟨e', d | d | d⟩ <;> rw [heq] at hok hsound
    · have hd : d.nilCalls = c.nilCalls := hok rfl
      have hrest := ih (c := d) hsound e'
      simp [← hd, hrest]
    · simp
    · simp

/-- What has to hold at a message that is handled: the statements and
portals that it releases, the unnamed ones by a Query, and those that a
DEALLOCATE names, were prepared by DuckDB. -/
def Releasable (c : Conn) (m : FrontendMessage) : Prop :=
  c.discarding = true ∨
    match m with
    | .close true n => c.hasStmt n = true
    | .close false n => c.portalHasStmt n = true
    | .query (.statements ss) =>
      c.hasStmt "" = true ∧ c.portalHasStmt "" = true ∧ c.dropUnnamed.conn.DeallocatesHeld ss
    | .execute portal _ =>
      ∀ p, c.portals portal = some p → p.isEmptyQuery = false →
        (p.statement.select = false ∨ p.stmt = none) →
          ∀ n, p.statement.kind = .deallocate n → c.hasStmt n = true
    | _ => True

theorem handleExecute_nil (h : c.Sound) (portal : String) (fails : Bool) :
    (c.handleExecute portal fails).conn.nilCalls = c.nilCalls ↔
      ∀ p, c.portals portal = some p → p.isEmptyQuery = false →
        (p.statement.select = false ∨ p.stmt = none) →
          ∀ n, p.statement.kind = .deallocate n → c.hasStmt n = true := by
  have hwait : c.awaitSync.Sound := SameStore.sound (c := c) ⟨rfl, rfl, rfl, rfl⟩ h
  have hreply : (c.awaitSync.reply fails .commandComplete).conn.nilCalls = c.nilCalls := by
    cases fails <;> rfl
  have hmap : c.awaitSync.portals portal = c.portals portal := rfl
  simp only [handleExecute, hmap]
  cases hp : c.portals portal with
  | none => exact iff_of_true rfl fun _ h => by cases h
  | some p =>
    simp only [Option.some.injEq, forall_eq']
    cases hempty : p.isEmptyQuery with
    | true => exact iff_of_true rfl fun h => by cases h
    | false =>
      by_cases hout : p.statement.select = false ∨ p.stmt = none
      · rw [if_neg Bool.false_ne_true, if_pos (by simpa [Option.isNone_iff_eq_none] using hout)]
        simp only [hout, true_imp_iff]
        split <;> rename_i heq
        · exact (outsideEngine_nil hwait heq).1
        · refine iff_of_true hreply fun n hn => ?_
          simp [handleStatementOutsideEngine, hn] at heq
      · rw [if_neg Bool.false_ne_true, if_neg (by simpa [Option.isNone_iff_eq_none] using hout)]
        exact iff_of_true hreply fun _ habs => absurd habs hout

theorem dropUnnamed_nil (h : c.Sound) :
    ((c.hasStmt "" = true ∧ c.portalHasStmt "" = true) ∧
        ∃ d, c.dropUnnamed = .ok d ∧ d.nilCalls = c.nilCalls) ∨
      (¬ (c.hasStmt "" = true ∧ c.portalHasStmt "" = true) ∧
        ∃ d, c.dropUnnamed = .panic d ∧ d.nilCalls = c.nilCalls + 1) := by
  have hsound := h.deletePreparedStatement ""
  rcases deletePreparedStatement_nil h "" with ⟨hhas, d, hd, hcalls⟩ | ⟨hhas, d, hd, hcalls⟩
  · have hportal : d.portalHasStmt "" = c.portalHasStmt "" := by
      have := (c.deletePreparedStatement_frame "").1
      rw [hd] at this
      exact congrArg (fun ps : String → Option PortalData => (ps "").all (·.stmt.isSome)) this
    have hsound : d.Sound := by simpa [hd] using hsound
    rw [dropUnnamed, hd, Flow.andThen, ← hportal, ← hcalls]
    rcases deletePortal_nil hsound "" with ⟨hhas', hd'⟩ | ⟨hhas', hd'⟩
    · exact .inl ⟨⟨hhas, hhas'⟩, hd'⟩
    · exact .inr ⟨by simp [hhas'], hd'⟩
  · rw [dropUnnamed, hd, Flow.andThen]
    exact .inr ⟨by simp [hhas], d, rfl, hcalls⟩

theorem handleQuery_nil (h : c.Sound) (ss : List (Statement × Bool)) :
    (c.handleQuery (.statements ss)).2.conn.nilCalls = c.nilCalls ↔
      c.hasStmt "" = true ∧ c.portalHasStmt "" = true ∧ c.dropUnnamed.conn.DeallocatesHeld ss := by
  rw [← and_assoc, handleQuery]
  rcases dropUnnamed_nil h with ⟨hhas, d, hdrop, hcalls⟩ | ⟨hhas, d, hdrop, hcalls⟩
  · have hsound : d.Sound := by simpa [hdrop] using h.dropUnnamed
    rw [hdrop, ← hcalls, handleStatements_nil ss hsound true]
    exact (and_iff_right hhas).symm
  · rw [hdrop]
    exact iff_of_false (by simp [hcalls]) fun h => hhas h.1

/-- A message calls no method on a nil pointer exactly when what it
releases was prepared by DuckDB. -/
theorem receiveMessage_nil_iff (h : c.Sound) (m : FrontendMessage) :
    (c.receiveMessage m).nilCalls = c.nilCalls ↔ c.Releasable m := by
  rw [receiveMessage_proj nilCalls (fun _ _ => rfl) fun _ _ => rfl]
  cases hd : c.discarding with
  | true => exact iff_of_true rfl (.inl hd)
  | false =>
    have handled : ∀ {Q : Prop}, Q ↔ c.discarding = true ∨ Q := by simp [hd]
    rw [if_neg Bool.false_ne_true]
    have hleft : leavesStore m = true → (c.handleMessage m).2.conn.nilCalls = c.nilCalls :=
      fun hm => (c.handleMessage_of_leavesStore hm).2
    cases m with
    | query text =>
      cases text with
      | answered fails => cases fails <;> exact iff_of_true rfl (.inr trivial)
      | statements ss => exact (handleQuery_nil h ss).trans handled
    | execute portal fails => exact (handleExecute_nil h portal fails).trans handled
    | close ofStatement n =>
      cases ofStatement with
      | true =>
        refine Iff.trans ?_ handled
        rcases deletePreparedStatement_nil h n with
          ⟨hhas, d, hd, hcalls⟩ | ⟨hhas, d, hd, hcalls⟩ <;>
          simp [handleMessage, handleClose, hd, Flow.andThen, hhas, hcalls, send]
      | false =>
        refine Iff.trans ?_ handled
        rcases deletePortal_nil h n with ⟨hhas, d, hd, hcalls⟩ | ⟨hhas, d, hd, hcalls⟩ <;>
          simp [handleMessage, handleClose, hd, Flow.andThen, hhas, hcalls, send]
    | parse n s o =>
      refine iff_of_true ?_ (.inr trivial)
      simp only [handleMessage, handleParse]
      repeat' split
      all_goals rfl
    | bind portal statement fails =>
      refine iff_of_true ?_ (.inr trivial)
      simp only [handleMessage, handleBind]
      repeat' split
      all_goals rfl
    | describe ofStatement n | flush | sync | copyData o | copyDone fails | copyFail =>
      exact iff_of_true (hleft rfl) (.inr trivial)

/-- **No method is called on a nil pointer** by the release of a statement
or a portal in a run, if and only if every message meets `Releasable`
where it is received. -/
theorem nil_free_iff (ms : List FrontendMessage) :
    (∀ sofar, sofar <+: ms → (run receiveMessage {} sofar).nilCalls = 0) ↔
      Along receiveMessage Releasable {} ms := by
  have hinv : ∀ (c : Conn) (m : FrontendMessage), c.Sound → True → (c.receiveMessage m).Sound :=
    fun _ m h _ => h.receiveMessage m
  have hgood : ∀ (c : Conn) (m : FrontendMessage), c.Sound → c.nilCalls = 0 → True →
      ((c.receiveMessage m).nilCalls = 0 ↔ c.Releasable m) :=
    fun c m h h0 _ => h0 ▸ receiveMessage_nil_iff h m
  exact Along.good_iff hinv hgood owned_init.toSound rfl
    (Along.of_forall (fun _ _ => trivial) _ ms)

/-- An empty query under the unnamed statement, and a Query behind it. -/
theorem empty_statement_nil_call :
    ∃ ms : List FrontendMessage,
      ms = [.parse "" { kind := .engine, hasAST := false, blank := true } .prepared, .sync,
        .query (.statements [({ kind := .engine }, false)])] ∧
      (run receiveMessage {} ms).nilCalls = 1 :=
  ⟨_, rfl, by decide⟩

end Conn

end MyDuck.Pg
