/-
MyDuck.Logrepl.TupleTheorems — where the columns of a key-only old tuple
end up.

A 'K' tuple has one entry for each column of the relation, NULL for the
columns outside the key. `append` walks the columns of the relation with
one index and the tuple with another, which moves at key columns only.
The two agree exactly as long as no key column comes after a column
outside the key (`key_tuple_lands_iff`): past the first such column the
tuple is read too far to the left, and the first key column there gets
the NULL of a column outside the key.
-/
import MyDuck.Logrepl.ReplicatorTheorems

namespace MyDuck.Logrepl

open MyDuck.Delta

/-- The value of an entry that is NULL or has data. -/
def TupleColumn.read : TupleColumn → Value
  | .value v _ => v
  | .null | .bad | .unsupported => .null

def TupleColumn.Readable : TupleColumn → Prop
  | .null => True
  | .value _ _ => True
  | .bad => False
  | .unsupported => False

/-- A 'K' tuple of a relation: one readable entry for each column, NULL
outside the key. -/
def KeyTuple : List RelationColumn → Tuple → Prop :=
  List.Forall₂ fun c v => v.Readable ∧ (c.isKey = false → v = .null)

/-- The row that has the entries of the key columns in their places. -/
def keyRow : List RelationColumn → Tuple → Row :=
  List.zipWith fun c v => if c.isKey then v.read else .null

/-- No key column comes after a column outside the key. -/
def KeysLead (columns : List RelationColumn) : Prop :=
  columns.Pairwise fun c d => d.isKey = true → c.isKey = true

/-! ## Reading a tuple by its key columns -/

variable {columns : List RelationColumn} {tuple : Tuple}

theorem readTuple_of_no_keys (h : ∀ c ∈ columns, c.isKey = false) (tuple : Tuple) :
    readTuple true columns tuple = .ok (columns.map (fun _ => .null), 0) := by
  induction columns with
  | nil => rfl
  | cons c cs ih =>
    have hc := h c List.mem_cons_self
    simp [readTuple, hc, ih fun d hd => h d (List.mem_cons_of_mem _ hd)]

theorem keyRow_of_no_keys (h : ∀ c ∈ columns, c.isKey = false) (hk : KeyTuple columns tuple) :
    keyRow columns tuple = columns.map (fun _ => .null) := by
  induction hk with
  | nil => rfl
  | @cons c v cs vs _ _ ih =>
    have hc := h c List.mem_cons_self
    have hrest := ih fun d hd => h d (List.mem_cons_of_mem _ hd)
    simp only [keyRow, List.zipWith_cons_cons, hc, List.map_cons] at hrest ⊢
    simp [hrest]

/-- Leading key columns are read in their places. -/
theorem readTuple_of_keysLead (hl : KeysLead columns) (hk : KeyTuple columns tuple) :
    ∃ n, readTuple true columns tuple = .ok (keyRow columns tuple, n) := by
  induction hk with
  | nil => exact ⟨0, rfl⟩
  | @cons c v cs vs hv hrest ih =>
    obtain ⟨hfirst, hl⟩ := List.pairwise_cons.mp hl
    cases hc : c.isKey with
    | true =>
      obtain ⟨n, hn⟩ := ih hl
      cases v with
      | null => exact ⟨n, by simp [readTuple, keyRow, hc, hn, TupleColumn.read]⟩
      | value w bytes => exact ⟨bytes + n, by simp [readTuple, keyRow, hc, hn, TupleColumn.read]⟩
      | bad | unsupported => exact hv.1.elim
    | false =>
      -- no key column is left
      have hnone : ∀ d ∈ cs, d.isKey = false := by
        intro d hd
        cases hdk : d.isKey with
        | false => rfl
        | true => exact (hc.symm.trans (hfirst d hd hdk)).symm
      refine ⟨0, ?_⟩
      rw [readTuple_of_no_keys (by simpa [hc] using hnone)]
      rw [keyRow_of_no_keys (by simpa [hc] using hnone) (.cons hv hrest)]

/-! ## Tuples that show a misplaced column -/

/-- The tuple with a value in every key column. -/
def fullTuple (columns : List RelationColumn) : Tuple :=
  columns.map fun c => if c.isKey then .value (.int 1) 0 else .null

theorem keyTuple_full (columns : List RelationColumn) : KeyTuple columns (fullTuple columns) := by
  induction columns with
  | nil => exact .nil
  | cons c cs ih =>
    refine .cons ?_ ih
    cases hc : c.isKey with
    | true => simp only [hc, if_true]; exact ⟨trivial, nofun⟩
    | false => simp only [hc]; exact ⟨trivial, fun _ => rfl⟩

/-- What the key columns of the full tuple hold. -/
theorem keyRow_full_cons (c : RelationColumn) (cs : List RelationColumn) :
    keyRow (c :: cs) (fullTuple (c :: cs))
      = (if c.isKey then .int 1 else .null) :: keyRow cs (fullTuple cs) := by
  cases hc : c.isKey <;> simp [keyRow, fullTuple, hc, TupleColumn.read]

/-- A column outside the key is NULL and takes nothing from the tuple. -/
theorem readTuple_cons_of_not_key {c : RelationColumn} {cs : List RelationColumn} {row : Row}
    {n : Nat} (hc : c.isKey = false) (h : readTuple true (c :: cs) tuple = .ok (row, n)) :
    ∃ row', row = .null :: row' ∧ readTuple true cs tuple = .ok (row', n) := by
  simp only [readTuple, hc, Bool.not_false, Bool.and_self, if_true] at h
  obtain ⟨r, hr, heq⟩ := Outcome.andThen_eq_ok.mp h
  obtain ⟨rfl, rfl⟩ := Prod.mk.inj (Outcome.ok.inj heq)
  exact ⟨r.1, rfl, hr⟩

/-- A key column takes the first entry of the tuple. -/
theorem readTuple_cons_of_key {c : RelationColumn} {cs : List RelationColumn} {v : TupleColumn}
    {row : Row} {n : Nat} (hc : c.isKey = true)
    (h : readTuple true (c :: cs) (v :: tuple) = .ok (row, n)) :
    ∃ row' m, row = v.read :: row' ∧ readTuple true cs tuple = .ok (row', m) := by
  cases v with
  | null | value w bytes =>
    simp only [readTuple, hc, Bool.not_true, Bool.and_false, Bool.false_eq_true, if_false] at h
    obtain ⟨r, hr, heq⟩ := Outcome.andThen_eq_ok.mp h
    obtain ⟨rfl, rfl⟩ := Prod.mk.inj (Outcome.ok.inj heq)
    exact ⟨r.1, r.2, rfl, hr⟩
  | bad | unsupported => simp [readTuple, hc] at h

/-- Once the tuple stands at a NULL, no key column can be read right. -/
theorem no_keys_of_readTuple_null {rest : Tuple} {n : Nat}
    (h : readTuple true columns (.null :: rest) = .ok (keyRow columns (fullTuple columns), n)) :
    ∀ c ∈ columns, c.isKey = false := by
  induction columns generalizing n with
  | nil => exact nofun
  | cons c cs ih =>
    rw [keyRow_full_cons] at h
    cases hc : c.isKey with
    | true =>
      obtain ⟨row', m, heq, -⟩ := readTuple_cons_of_key hc h
      rw [hc] at heq
      cases (List.cons.inj heq).1
    | false =>
      obtain ⟨row', heq, hrest⟩ := readTuple_cons_of_not_key hc h
      rw [← (List.cons.inj heq).2] at hrest
      rintro d hd
      rcases List.mem_cons.mp hd with rfl | hd
      · exact hc
      · exact ih hrest d hd

/-- If the full tuple is read right, the key columns lead. -/
theorem keysLead_of_readTuple {n : Nat}
    (h : readTuple true columns (fullTuple columns) = .ok (keyRow columns (fullTuple columns), n)) :
    KeysLead columns := by
  induction columns generalizing n with
  | nil => exact .nil
  | cons c cs ih =>
    have hfull : fullTuple (c :: cs)
        = (if c.isKey then .value (.int 1) 0 else .null) :: fullTuple cs := rfl
    rw [keyRow_full_cons, hfull] at h
    cases hc : c.isKey with
    | true =>
      obtain ⟨row', m, heq, hrest⟩ := readTuple_cons_of_key hc h
      rw [← (List.cons.inj heq).2] at hrest
      exact .cons (fun _ _ _ => hc) (ih hrest)
    | false =>
      rw [hc] at h
      obtain ⟨row', heq, hrest⟩ := readTuple_cons_of_not_key hc h
      rw [← (List.cons.inj heq).2] at hrest
      have hnone := no_keys_of_readTuple_null hrest
      have hno : ∀ {d : RelationColumn} {p : Prop}, d ∈ cs → d.isKey = true → p := fun hd hk =>
        absurd (hk.symm.trans (hnone _ hd)) (by decide)
      exact .cons (fun d hd hk => hno hd hk)
        (List.pairwise_of_forall_mem_list fun _ _ _ hd hk => hno hd hk)

/-! ## The rows of the delta -/

/-- The call adds one DELETE row to the buffer of the relation, with the
entries of the key columns in their places. -/
def AddsKeyRow (rel : Relation) (tuple : Tuple) (s : State) (o : Result) : Prop :=
  ∃ s', o = .ok s' ∧
    (getDeltaAppender rel.table rel.schema s'.deltas).rows
      = (getDeltaAppender rel.table rel.schema s.deltas).rows
        ++ [deltaRow s .delete (keyRow rel.columns tuple)]

/-- `append` adds the row it reads from the tuple. -/
theorem append_of_readTuple {s : State} {id : Nat} {rel : Relation} {r : Row × Nat}
    {onlyKeys : Bool} (action event : RowEventType) (hrel : s.relations.lookup id = some rel)
    (ht : tuple ≠ []) (hread : readTuple onlyKeys rel.columns tuple = .ok r) :
    append id tuple action event onlyKeys s = .ok (putAppender rel
      ((((getDeltaAppender rel.table rel.schema s.deltas).appendRow
        (deltaRow s action r.1)).updateActionStats action 1).observeEvents event 1) r.2 s) := by
  simp only [append, hrel, ht, if_false, hread]

/-- The rows of the relation's appender after a change of it. -/
theorem rows_putAppender (rel : Relation) (a : DeltaAppender) (size : Nat) (s : State) :
    (getDeltaAppender rel.table rel.schema (putAppender rel a size s).deltas).rows = a.rows := by
  rw [putAppender, getDeltaAppender, lookup_withAppender, if_pos rfl, Option.getD_some]

theorem addsKeyRow_iff {rel : Relation} {s : State} {id : Nat} {r : Row × Nat}
    (event : RowEventType) (hrel : s.relations.lookup id = some rel) (ht : tuple ≠ [])
    (hread : readTuple true rel.columns tuple = .ok r) :
    AddsKeyRow rel tuple s (append id tuple .delete event true s)
      ↔ r.1 = keyRow rel.columns tuple := by
  rw [append_of_readTuple .delete event hrel ht hread]
  constructor
  · rintro ⟨s', hs', hrows⟩
    rw [← Outcome.ok.inj hs', rows_putAppender] at hrows
    simpa [DeltaAppender.appendRow, deltaRow] using hrows
  · intro h
    refine ⟨_, rfl, ?_⟩
    rw [rows_putAppender, ← h]
    simp [DeltaAppender.appendRow]

/-- **Key-only old tuples land in the key columns** for every message
exactly when no key column comes after a column outside the key. -/
theorem key_tuple_lands_iff (rel : Relation) :
    (∀ (tuple : Tuple) (s : State) (id : Nat), KeyTuple rel.columns tuple → tuple ≠ [] →
      s.relations.lookup id = some rel →
      AddsKeyRow rel tuple s (appendOldOfUpdate id (.key tuple) s) ∧
        AddsKeyRow rel tuple s (appendOldOfDelete id (.key tuple) s)) ↔ KeysLead rel.columns := by
  constructor
  · intro h
    by_cases hnil : rel.columns = []
    · rw [hnil]
      exact .nil
    · have hne : fullTuple rel.columns ≠ [] := by simpa [fullTuple] using hnil
      have hrel : ({ relations := [(0, rel)] } : State).relations.lookup 0 = some rel := by simp
      obtain ⟨-, hadds⟩ := h (fullTuple rel.columns) { relations := [(0, rel)] } 0
        (keyTuple_full rel.columns) hne hrel
      cases hread : readTuple true rel.columns (fullTuple rel.columns) with
      | ok r =>
        have hr := (addsKeyRow_iff .delete hrel hne hread).mp hadds
        exact keysLead_of_readTuple (hread.trans (by rw [← hr]))
      | error e r =>
        obtain ⟨s', hs', -⟩ := hadds
        simp [appendOldOfDelete, append, hne, hread] at hs'
      | panic =>
        obtain ⟨s', hs', -⟩ := hadds
        simp [appendOldOfDelete, append, hne, hread] at hs'
  · intro hl tuple s id hk ht hrel
    obtain ⟨n, hread⟩ := readTuple_of_keysLead hl hk
    exact ⟨(addsKeyRow_iff .update hrel ht hread).mpr rfl,
      (addsKeyRow_iff .delete hrel ht hread).mpr rfl⟩

/-- A relation whose key is its second column. -/
def keySecond : Relation := ⟨1, "public", "t", [⟨"v", 0, 25, -1⟩, ⟨"id", 1, 23, -1⟩], true⟩

/-- The old tuple of the row with key 7: the DELETE row has no key at
all. -/
theorem key_after_other_column_is_lost :
    ∃ rel : Relation, ∃ tuple : Tuple, ∃ s s' : State,
      KeyTuple rel.columns tuple ∧ s.relations.lookup 1 = some rel ∧
      appendOldOfDelete 1 (.key tuple) s = .ok s' ∧
      (getDeltaAppender rel.table rel.schema s'.deltas).rows.map DeltaRow.fields
        = [[.null, .null]] ∧
      keyRow rel.columns tuple = [.null, .int 7] := by
  have hk : KeyTuple keySecond.columns [.null, .value (.int 7) 4] :=
    .cons ⟨trivial, fun _ => rfl⟩ (.cons ⟨trivial, nofun⟩ .nil)
  exact ⟨keySecond, [.null, .value (.int 7) 4], { relations := [(1, keySecond)] }, _, hk,
    rfl, rfl, rfl, rfl⟩

end MyDuck.Logrepl
