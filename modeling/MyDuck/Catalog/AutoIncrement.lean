/-
MyDuck.Catalog.AutoIncrement — the values of an AUTO_INCREMENT column,
`GetNextAutoIncrementValue` and `SetAutoIncrementValue` of
catalog/table.go.

The values come from a sequence of DuckDB. The next one is guessed, from
the current value or, before the first use in the session, from the start
value. An explicit value above the guess, and every `SetAutoIncrementValue`,
replaces the sequence by a new one that starts there. The new one has not
given its start value yet, so an explicit value is given once more by the
next call without one.

`AutoSession` keeps what was asked and returned. `Ahead` is the invariant: the
sequence is above every value it gave without being asked for one and above
every explicit value. A call keeps it exactly when it is `Careful`
(`ahead_step_iff`), and `auto_increment_distinct` follows for whole
sessions.

The table has an AUTO_INCREMENT column, and the statements on a table and
on its comment succeed. Sequences that were replaced are not used again.
-/
import MyDuck.Base.Run
import MyDuck.Catalog.Table

namespace MyDuck.Catalog

/-! ## Sequences -/

/-- The largest value of a sequence, a BIGINT. -/
def maxSequenceValue : Nat := 2 ^ 63 - 1

/-- A sequence: the value it starts with, its counter, and the last value it
gave in this session. -/
structure Sequence where
  start : Nat
  next : Nat
  last : Option Nat
  start_le_next : start ≤ next
  next_le_max : next ≤ maxSequenceValue
  next_of_last : ∀ l ∈ last, next = l + 1
  deriving DecidableEq, Repr

namespace Sequence

theorem next_of_last_none (n : Nat) : ∀ l ∈ (none : Option Nat), n = l + 1 := by
  intro l h
  cases h

theorem next_of_last_some (n : Nat) : ∀ l ∈ some n, n + 1 = l + 1 := by
  intro l h
  cases h
  rfl

theorem one_le_max : 1 ≤ maxSequenceValue := by
  decide

/-- `CREATE SEQUENCE .. START WITH value`. -/
def create (value : Nat) : Option Sequence :=
  if h : value ≤ maxSequenceValue then
    some ⟨value, value, none, le_rfl, h, next_of_last_none value⟩
  else none

def advance (q : Sequence) (h : q.next < maxSequenceValue) : Sequence :=
  ⟨q.start, q.next + 1, some q.next, Nat.le_succ_of_le q.start_le_next, h,
    next_of_last_some q.next⟩

/-- `nextval`. At the largest value the counter cannot be advanced, which is
an error. -/
def nextval (q : Sequence) : Option (Nat × Sequence) :=
  if h : q.next < maxSequenceValue then some (q.next, q.advance h) else none

end Sequence

/-! ## The table -/

/-- What the methods use of a table. The sequence has a random name. -/
structure AutoTable where
  temporary : Bool := false
  uuid : String := ""
  sequence : Sequence
  deriving DecidableEq, Repr

/-- An explicit value that is positive, by its Go type. -/
inductive InsertType where
  | uint64
  | int64
  | other
  deriving DecidableEq, Repr

structure InsertVal where
  type : InsertType
  value : Nat
  pos : 0 < value
  deriving DecidableEq, Repr

/-- `start` of `GetNextAutoIncrementValue`, which is left 0 for the other
types. -/
def InsertVal.start (v : InsertVal) : Nat :=
  match v.type with
  | .uint64 => v.value
  | .int64 => v.value
  | .other => 0

theorem InsertVal.start_le_value (v : InsertVal) : v.start ≤ v.value := by
  rw [InsertVal.start]
  cases v.type with
  | uint64 | int64 => exact le_rfl
  | other => exact Nat.zero_le _

namespace AutoTable

/-- `concat(schema_name, '."', sequence_name, '"')` of the row of the
sequence in `duckdb_sequences()`. -/
def rowName (t : AutoTable) : String :=
  (if t.temporary then "main" else "__sys__") ++ ".\"__sys_table_seq_" ++ t.uuid ++ "\""

/-- The start value is looked for by the name in the table comment. -/
def startValue (t : AutoTable) : Option Nat :=
  if t.rowName = fullSequenceName t.temporary t.uuid then some t.sequence.start else none

/-- The guess of `getNextAutoIncrementValue`; `none` is an error. -/
def peekNextAutoIncrementValue (t : AutoTable) : Option Nat :=
  match t.sequence.last with
  | some last => if last + 1 ≤ maxSequenceValue then some (last + 1) else none
  | none => t.startValue

def setAutoIncrementValue (value : Nat) (uuid : String) (t : AutoTable) : Option AutoTable :=
  (Sequence.create value).map fun q => { t with uuid := uuid, sequence := q }

/-- The value that is returned, and the table it leaves. -/
def getNextAutoIncrementValue (insertVal : Option InsertVal) (uuid : String) (t : AutoTable) :
    Option (Nat × AutoTable) := do
  let nextVal ← t.peekNextAutoIncrementValue
  let start := (insertVal.map InsertVal.start).getD 0
  if 0 < start ∧ nextVal < start then
    let t ← t.setAutoIncrementValue start uuid
    return (start, t)
  else
    let (val, q) ← t.sequence.nextval
    return (val, { t with sequence := q })

end AutoTable

/-! ## Sessions -/

/-- A call. The new sequence, if there is one, gets the name. -/
inductive AutoCall where
  | next (insertVal : Option InsertVal) (uuid : String)
  | set (value : Nat) (uuid : String)
  deriving DecidableEq, Repr

/-- A table, and the calls so far with the values that were returned. -/
structure AutoSession where
  table : AutoTable
  history : List (AutoCall × Option Nat) := []
  deriving DecidableEq, Repr

namespace AutoSession

/-- A call that fails changes nothing. -/
def call (c : AutoCall) (s : AutoSession) : Option Nat × AutoTable :=
  match c with
  | .next insertVal uuid =>
    match s.table.getNextAutoIncrementValue insertVal uuid with
    | some (val, t) => (some val, t)
    | none => (none, s.table)
  | .set value uuid => (none, (s.table.setAutoIncrementValue value uuid).getD s.table)

def step (s : AutoSession) (c : AutoCall) : AutoSession :=
  ⟨(s.call c).2, s.history ++ [(c, (s.call c).1)]⟩

end AutoSession

/-- The value was returned for a call without an explicit one. -/
def Given (history : List (AutoCall × Option Nat)) (val : Nat) : Prop :=
  ∃ uuid, (.next none uuid, some val) ∈ history

def Passed (history : List (AutoCall × Option Nat)) (val : Nat) : Prop :=
  ∃ v uuid result, (.next (some v) uuid, result) ∈ history ∧ v.value = val

/-- Every value that is returned without an explicit one is different from
all those before it, and greater than every explicit value before it. -/
def NoCollision (history : List (AutoCall × Option Nat)) : Prop :=
  ∀ before uuid val after, history = before ++ (.next none uuid, some val) :: after →
    (∀ earlier, Given before earlier → earlier ≠ val) ∧
      ∀ explicit, Passed before explicit → explicit < val

namespace AutoSession

/-- The sequence is above the values that were given and the explicit
ones. -/
structure Ahead (s : AutoSession) : Prop where
  given : ∀ val, Given s.history val → val < s.table.sequence.next
  passed : ∀ val, Passed s.history val → val < s.table.sequence.next

/-- An explicit value is below the counter, or equal to it and the counter
can be advanced: it is not at its maximum, and the sequence was used in the
session if the table is temporary. In front of the first use it is not
above the start. A value that is set is above all that were given and above
the explicit ones. -/
def Careful (s : AutoSession) : AutoCall → Prop
  | .next none _ => True
  | .next (some v) _ =>
    (v.value < s.table.sequence.next ∨
      v.value = s.table.sequence.next ∧ s.table.sequence.next < maxSequenceValue ∧
        (s.table.sequence.last = none → s.table.temporary = false)) ∧
    (s.table.sequence.last = none → s.table.temporary = false → v.start ≤ s.table.sequence.start)
  | .set value _ =>
    value ≤ maxSequenceValue →
      (∀ val, Given s.history val → val < value) ∧ ∀ val, Passed s.history val → val < value

end AutoSession

/-! ## One call -/

namespace AutoTable

variable {t t' : AutoTable} {insertVal : Option InsertVal} {uuid : String} {val : Nat}

/-- The row of a temporary sequence does not have the name that is looked
for. -/
theorem startValue_eq (t : AutoTable) :
    t.startValue = if t.temporary then none else some t.sequence.start := by
  rw [startValue]
  cases htemp : t.temporary with
  | false =>
    refine if_pos ?_
    rw [rowName, fullSequenceName, htemp]
    rfl
  | true =>
    refine if_neg fun heq => ?_
    rw [rowName, fullSequenceName, htemp] at heq
    have hlength := congrArg String.length heq
    simp only [if_true, String.length_append, show "main".length = 4 from rfl,
      show ".\"__sys_table_seq_".length = 18 from rfl,
      show "temp.main.\"__sys_table_seq_".length = 27 from rfl] at hlength
    omega

/-- **The guess**: the counter once the sequence was used, and its start in
front of that. -/
theorem peekNextAutoIncrementValue_eq (t : AutoTable) :
    t.peekNextAutoIncrementValue =
      if t.sequence.last = none then if t.temporary then none else some t.sequence.start
      else some t.sequence.next := by
  rw [peekNextAutoIncrementValue]
  cases hlast : t.sequence.last with
  | none => exact startValue_eq t
  | some last =>
    have hnext := t.sequence.next_of_last last hlast
    have hle := t.sequence.next_le_max
    rw [if_neg (by simp), hnext]
    exact if_pos (hnext ▸ hle)

theorem setAutoIncrementValue_eq_some {value : Nat}
    (h : t.setAutoIncrementValue value uuid = some t') :
    value ≤ maxSequenceValue ∧ t'.sequence.next = value := by
  rw [setAutoIncrementValue, Sequence.create] at h
  split at h
  next hle =>
    obtain rfl : _ = t' := by simpa using h
    exact ⟨hle, rfl⟩
  next => cases h

theorem setAutoIncrementValue_eq_none {value : Nat}
    (h : t.setAutoIncrementValue value uuid = none) : maxSequenceValue < value := by
  by_contra hle
  rw [setAutoIncrementValue, Sequence.create, dif_pos (by omega)] at h
  cases h

/-- **A call fails** without a guess, with an explicit value above the guess
and above the largest one, and when the counter is at its maximum. -/
theorem getNextAutoIncrementValue_eq_none
    (h : t.getNextAutoIncrementValue insertVal uuid = none) :
    t.peekNextAutoIncrementValue = none ∨ ∃ guess, t.peekNextAutoIncrementValue = some guess ∧
      (guess < (insertVal.map InsertVal.start).getD 0 ∧
          maxSequenceValue < (insertVal.map InsertVal.start).getD 0 ∨
        (insertVal.map InsertVal.start).getD 0 ≤ guess ∧
          t.sequence.next = maxSequenceValue) := by
  rw [getNextAutoIncrementValue] at h
  cases hguess : t.peekNextAutoIncrementValue with
  | none => exact .inl rfl
  | some guess =>
    refine .inr ⟨guess, rfl, ?_⟩
    rw [hguess] at h
    change (if _ then _ else _) = _ at h
    split at h
    next hnew =>
      cases hset : t.setAutoIncrementValue ((insertVal.map InsertVal.start).getD 0) uuid with
      | none => exact .inl ⟨hnew.2, setAutoIncrementValue_eq_none hset⟩
      | some u => simp [hset] at h
    next hold =>
      have hle := t.sequence.next_le_max
      rw [Sequence.nextval] at h
      split at h
      next => simp at h
      next hmax => exact .inr ⟨by omega, by omega⟩

/-- **What a call returns**: the explicit value, as the start of a new
sequence, or the next value of the sequence, if that is below the maximum. -/
theorem getNextAutoIncrementValue_eq_some
    (h : t.getNextAutoIncrementValue insertVal uuid = some (val, t')) :
    ∃ guess, t.peekNextAutoIncrementValue = some guess ∧
      ((guess < (insertVal.map InsertVal.start).getD 0 ∧
          val = (insertVal.map InsertVal.start).getD 0 ∧ t'.sequence.next = val) ∨
        ((insertVal.map InsertVal.start).getD 0 ≤ guess ∧ t.sequence.next < maxSequenceValue ∧
          val = t.sequence.next ∧ t'.sequence.next = val + 1)) := by
  rw [getNextAutoIncrementValue] at h
  cases hguess : t.peekNextAutoIncrementValue with
  | none => simp [hguess] at h
  | some guess =>
    refine ⟨guess, rfl, ?_⟩
    rw [hguess] at h
    change (if _ then _ else _) = _ at h
    split at h
    next hnew =>
      cases hset : t.setAutoIncrementValue ((insertVal.map InsertVal.start).getD 0) uuid with
      | none => simp [hset] at h
      | some u =>
        obtain ⟨rfl, rfl⟩ : _ = val ∧ u = t' := by simpa [hset] using h
        exact .inl ⟨hnew.2, rfl, (setAutoIncrementValue_eq_some hset).2⟩
    next hold =>
      rw [Sequence.nextval] at h
      split at h
      next hlt =>
        obtain ⟨rfl, rfl⟩ : t.sequence.next = val ∧ _ = t' := by simpa using h
        exact .inr ⟨by omega, hlt, rfl, rfl⟩
      next => simp at h

end AutoTable

section History

variable {history : List (AutoCall × Option Nat)} {c : AutoCall} {result : Option Nat} {val : Nat}

theorem given_append :
    Given (history ++ [(c, result)]) val ↔
      Given history val ∨ (∃ uuid, c = .next none uuid) ∧ result = some val := by
  simp only [Given, List.mem_append, List.mem_singleton, Prod.mk.injEq, exists_or,
    exists_and_right]
  simp [eq_comm]

theorem passed_append :
    Passed (history ++ [(c, result)]) val ↔
      Passed history val ∨ ∃ v uuid, c = .next (some v) uuid ∧ v.value = val := by
  constructor
  · rintro ⟨v, uuid, result', hmem, hval⟩
    rcases List.mem_append.mp hmem with hmem | hmem
    · exact .inl ⟨v, uuid, result', hmem, hval⟩
    · have hc : AutoCall.next (some v) uuid = c := congrArg Prod.fst (List.mem_singleton.mp hmem)
      exact .inr ⟨v, uuid, hc.symm, hval⟩
  · rintro (⟨v, uuid, result', hmem, hval⟩ | ⟨v, uuid, rfl, hval⟩)
    · exact ⟨v, uuid, result', List.mem_append_left _ hmem, hval⟩
    · exact ⟨v, uuid, result, List.mem_append_right _ (List.mem_singleton_self _), hval⟩

theorem noCollision_append (h : NoCollision history)
    (hlast : ∀ uuid val, c = .next none uuid → result = some val →
      (∀ earlier, Given history earlier → earlier ≠ val) ∧
        ∀ explicit, Passed history explicit → explicit < val) :
    NoCollision (history ++ [(c, result)]) := by
  intro before uuid val after heq
  rcases List.eq_nil_or_concat after with rfl | ⟨after, entry, rfl⟩
  · obtain ⟨rfl, hentry⟩ := List.append_inj' heq rfl
    rw [List.cons.injEq, Prod.mk.injEq] at hentry
    exact hlast uuid val hentry.1.1 hentry.1.2
  · have hinit : history = before ++ (.next none uuid, some val) :: after := by
      rw [List.concat_eq_append, ← List.cons_append, ← List.append_assoc] at heq
      exact (List.append_inj' heq rfl).1
    exact h before uuid val after hinit

end History

namespace AutoSession

variable {s : AutoSession}

/-- The sequence is ahead after a call: of what came before, and of what
the call gave or passed. -/
theorem ahead_append_iff {t : AutoTable} {history : List (AutoCall × Option Nat)} {c : AutoCall}
    {result : Option Nat} :
    (⟨t, history ++ [(c, result)]⟩ : AutoSession).Ahead ↔
      (∀ val, Given history val → val < t.sequence.next) ∧
      (∀ val, Passed history val → val < t.sequence.next) ∧
      (∀ uuid val, c = .next none uuid → result = some val → val < t.sequence.next) ∧
      ∀ v uuid, c = .next (some v) uuid → v.value < t.sequence.next := by
  constructor
  · rintro ⟨hgiven, hpassed⟩
    exact ⟨fun val hval => hgiven val (given_append.mpr (.inl hval)),
      fun val hval => hpassed val (passed_append.mpr (.inl hval)),
      fun uuid val hc hresult => hgiven val (given_append.mpr (.inr ⟨⟨uuid, hc⟩, hresult⟩)),
      fun v uuid hc => hpassed v.value (passed_append.mpr (.inr ⟨v, uuid, hc, rfl⟩))⟩
  · rintro ⟨hgiven, hpassed, hnil, hexplicit⟩
    refine ⟨fun val hval => ?_, fun val hval => ?_⟩
    · rcases given_append.mp hval with hval | ⟨⟨uuid, hc⟩, hresult⟩
      · exact hgiven val hval
      · exact hnil uuid val hc hresult
    · rcases passed_append.mp hval with hval | ⟨v, uuid, hc, rfl⟩
      · exact hpassed val hval
      · exact hexplicit v uuid hc

theorem step_next_of_none {insertVal : Option InsertVal} {uuid : String}
    (h : s.table.getNextAutoIncrementValue insertVal uuid = none) :
    s.step (.next insertVal uuid)
      = ⟨s.table, s.history ++ [(.next insertVal uuid, none)]⟩ := by
  simp [step, call, h]

theorem step_next_of_some {insertVal : Option InsertVal} {uuid : String} {val : Nat} {t : AutoTable}
    (h : s.table.getNextAutoIncrementValue insertVal uuid = some (val, t)) :
    s.step (.next insertVal uuid)
      = ⟨t, s.history ++ [(.next insertVal uuid, some val)]⟩ := by
  simp [step, call, h]

/-- Without an explicit value the sequence stays ahead. -/
theorem ahead_step_nil (h : s.Ahead) (uuid : String) : (s.step (.next none uuid)).Ahead := by
  cases hcall : s.table.getNextAutoIncrementValue none uuid with
  | none =>
    rw [step_next_of_none hcall, ahead_append_iff]
    refine ⟨h.given, h.passed, ?_, ?_⟩
    · rintro _ val - ⟨⟩
    · rintro v _ ⟨⟩
  | some r =>
    obtain ⟨val, t⟩ := r
    obtain ⟨guess, -, ⟨hnew, -⟩ | ⟨-, -, hval, hnext⟩⟩ :=
      AutoTable.getNextAutoIncrementValue_eq_some hcall
    · exact absurd hnew (by simp)
    · rw [step_next_of_some hcall, ahead_append_iff]
      refine ⟨fun u hu => ?_, fun u hu => ?_, ?_, ?_⟩
      · have := h.given u hu
        omega
      · have := h.passed u hu
        omega
      · rintro _ u - ⟨⟩
        omega
      · rintro v _ ⟨⟩

/-- The condition on an explicit value, by the guess. -/
theorem careful_explicit_iff {v : InsertVal} {uuid : String} :
    s.Careful (.next (some v) uuid) ↔
      (v.value < s.table.sequence.next ∨ v.value = s.table.sequence.next ∧
        s.table.sequence.next < maxSequenceValue ∧ s.table.peekNextAutoIncrementValue ≠ none) ∧
      ∀ guess ∈ s.table.peekNextAutoIncrementValue, v.start ≤ guess := by
  have hle := v.start_le_value
  rw [Careful, AutoTable.peekNextAutoIncrementValue_eq]
  cases hlast : s.table.sequence.last with
  | none => cases ht : s.table.temporary <;> simp
  | some last =>
    simp only [reduceCtorEq, if_false, false_imp_iff, and_true, ne_eq, not_false_eq_true,
      Option.mem_def, Option.some.injEq, forall_eq']
    omega

/-- With one, it does when the value is not above the guess, nor above what
the sequence gives. -/
theorem ahead_step_explicit (h : s.Ahead) (v : InsertVal) (uuid : String) :
    (s.step (.next (some v) uuid)).Ahead ↔ s.Careful (.next (some v) uuid) := by
  have hmax := s.table.sequence.next_le_max
  have hstart := v.start_le_value
  rw [careful_explicit_iff]
  cases hcall : s.table.getNextAutoIncrementValue (some v) uuid with
  | none =>
    have hahead : (s.step (.next (some v) uuid)).Ahead ↔ v.value < s.table.sequence.next := by
      rw [step_next_of_none hcall, ahead_append_iff]
      constructor
      · rintro ⟨-, -, -, hexplicit⟩
        exact hexplicit v uuid rfl
      · intro hv
        refine ⟨h.given, h.passed, ?_, ?_⟩
        · rintro _ val ⟨⟩
        · rintro _ _ ⟨⟩
          exact hv
    rw [hahead]
    have hfails := AutoTable.getNextAutoIncrementValue_eq_none hcall
    simp only [Option.map_some, Option.getD_some] at hfails
    rcases hfails with hnone | ⟨guess, hguess, ⟨habove, hlarge⟩ | ⟨hbelow, hnext⟩⟩
    · simp [hnone]
    · simp only [hguess, Option.mem_def, Option.some.injEq, forall_eq']
      omega
    · simp only [hguess, Option.mem_def, Option.some.injEq, forall_eq']
      omega
  | some r =>
    obtain ⟨val, t⟩ := r
    obtain ⟨guess, hguess, hcases⟩ := AutoTable.getNextAutoIncrementValue_eq_some hcall
    rw [step_next_of_some hcall, ahead_append_iff, hguess]
    simp only [Option.map_some, Option.getD_some] at hcases
    rcases hcases with ⟨hnew, hval, hnext⟩ | ⟨hold, hlt, hval, hnext⟩
    · -- the new sequence starts with the explicit value
      refine iff_of_false ?_ ?_
      · rintro ⟨-, -, -, hexplicit⟩
        have hv := hexplicit v uuid rfl
        omega
      · rintro ⟨-, hle⟩
        have := hle guess rfl
        omega
    · constructor
      · rintro ⟨-, -, -, hexplicit⟩
        have hv := hexplicit v uuid rfl
        refine ⟨?_, ?_⟩
        · rcases (show v.value ≤ s.table.sequence.next by omega).lt_or_eq with hv | hv
          · exact .inl hv
          · exact .inr ⟨hv, hlt, Option.some_ne_none guess⟩
        · rintro g ⟨⟩
          exact hold
      · rintro ⟨hv, -⟩
        refine ⟨fun u hu => ?_, fun u hu => ?_, ?_, ?_⟩
        · have := h.given u hu
          omega
        · have := h.passed u hu
          omega
        · rintro _ u ⟨⟩
        · rintro _ _ ⟨⟩
          omega

/-- **A call keeps the sequence ahead** exactly when it is careful. -/
theorem ahead_step_iff (h : s.Ahead) (c : AutoCall) : (s.step c).Ahead ↔ s.Careful c := by
  cases c with
  | next insertVal uuid =>
    cases insertVal with
    | none => exact iff_of_true (ahead_step_nil h uuid) trivial
    | some v => exact ahead_step_explicit h v uuid
  | set value uuid =>
    cases hset : s.table.setAutoIncrementValue value uuid with
    | none =>
      have hlarge := AutoTable.setAutoIncrementValue_eq_none hset
      have hstep : s.step (.set value uuid)
          = ⟨s.table, s.history ++ [(.set value uuid, none)]⟩ := by
        simp [step, call, hset]
      rw [hstep, ahead_append_iff, Careful]
      refine iff_of_true ⟨h.given, h.passed, ?_, ?_⟩ fun hle => absurd hle (by omega)
      · rintro _ val ⟨⟩
      · rintro v _ ⟨⟩
    | some t =>
      obtain ⟨hle, hnext⟩ := AutoTable.setAutoIncrementValue_eq_some hset
      have hstep : s.step (.set value uuid) = ⟨t, s.history ++ [(.set value uuid, none)]⟩ := by
        simp [step, call, hset]
      rw [hstep, ahead_append_iff, hnext, Careful]
      constructor
      · rintro ⟨hgiven, hpassed, -⟩ -
        exact ⟨hgiven, hpassed⟩
      · intro hcareful
        obtain ⟨hgiven, hpassed⟩ := hcareful hle
        refine ⟨hgiven, hpassed, ?_, ?_⟩
        · rintro _ val ⟨⟩
        · rintro v _ ⟨⟩

/-- A value given by a sequence that is ahead is new. -/
theorem noCollision_step (h : s.Ahead) (hno : NoCollision s.history) (c : AutoCall) :
    NoCollision (s.step c).history := by
  refine noCollision_append hno ?_
  rintro uuid val rfl hresult
  cases hcall : s.table.getNextAutoIncrementValue none uuid with
  | none => simp [call, hcall] at hresult
  | some r =>
    obtain ⟨val', t⟩ := r
    obtain rfl : val' = val := by simpa [call, hcall] using hresult
    obtain ⟨guess, -, ⟨hnew, -⟩ | ⟨-, -, rfl, -⟩⟩ :=
      AutoTable.getNextAutoIncrementValue_eq_some hcall
    · exact absurd hnew (by simp)
    · exact ⟨fun u hu => (h.given u hu).ne, h.passed⟩

end AutoSession

/-- **Auto-increment values do not collide** in a session of careful
calls, whatever the sequence was used for before. -/
theorem auto_increment_distinct (t : AutoTable) (calls : List AutoCall)
    (h : Along AutoSession.step AutoSession.Careful ⟨t, []⟩ calls) :
    NoCollision (run AutoSession.step ⟨t, []⟩ calls).history := by
  have hstart : (⟨t, []⟩ : AutoSession).Ahead ∧ NoCollision [] := by
    refine ⟨⟨?_, ?_⟩, ?_⟩
    · rintro val ⟨uuid, hmem⟩
      cases hmem
    · rintro val ⟨v, uuid, result, hmem, -⟩
      cases hmem
    · intro before uuid val after heq
      simp at heq
  have hstep : ∀ (s : AutoSession) (c : AutoCall), s.Ahead ∧ NoCollision s.history →
      s.Careful c → (s.step c).Ahead ∧ NoCollision (s.step c).history := fun s c hs hc =>
    ⟨(AutoSession.ahead_step_iff hs.1 c).mpr hc, AutoSession.noCollision_step hs.1 hs.2 c⟩
  exact (Along.invariant (fun s : AutoSession => s.Ahead ∧ NoCollision s.history) hstep hstart h).2

/-- A table whose sequence was not used yet. -/
def unusedTable : AutoTable :=
  { sequence := ⟨1, 1, none, le_rfl, Sequence.one_le_max, Sequence.next_of_last_none 1⟩ }

/-- A session on such a table. -/
abbrev sampleSession (calls : List AutoCall) : AutoSession :=
  run AutoSession.step ⟨unusedTable, []⟩ calls

/-- The value that comes next anyway is passed. -/
def nextPassed : List AutoCall :=
  [.next none "", .next (some ⟨.uint64, 2, Nat.two_pos⟩) ""]

/-- The sequence may be set to a larger value behind it. -/
theorem auto_increment_distinct_next :
    Along AutoSession.step AutoSession.Careful ⟨unusedTable, []⟩
        (nextPassed ++ [.set 10 "a", .next none ""]) ∧
      NoCollision (sampleSession (nextPassed ++ [.set 10 "a", .next none ""])).history := by
  have h : Along AutoSession.step AutoSession.Careful ⟨unusedTable, []⟩
      (nextPassed ++ [.set 10 "a", .next none ""]) := by
    have hhistory : (sampleSession nextPassed).history
        = [(.next none "", some 1), (.next (some ⟨.uint64, 2, Nat.two_pos⟩) "", some 2)] := by
      decide
    refine ⟨trivial, ?_, fun _ => ⟨fun val hval => ?_, fun val hval => ?_⟩, trivial, trivial⟩
    · exact ⟨.inr ⟨by decide, by decide, by decide⟩, by decide⟩
    · change Given (sampleSession nextPassed).history val at hval
      rw [hhistory] at hval
      obtain rfl : val = 1 := by simpa [Given] using hval
      decide
    · change Passed (sampleSession nextPassed).history val at hval
      rw [hhistory] at hval
      obtain rfl : 2 = val := by simpa [Passed] using hval
      decide
  exact ⟨h, auto_increment_distinct _ _ h⟩

/-- An explicit value. -/
def five : InsertVal := ⟨.int64, 5, Nat.succ_pos 4⟩

/-- It is given again by the next call. -/
theorem explicit_value_given_again :
    (sampleSession [.next none "", .next (some five) "a", .next none ""]).history
      = [(.next none "", some 1), (.next (some five) "a", some 5), (.next none "", some 5)] ∧
    ¬ NoCollision
      (sampleSession [.next none "", .next (some five) "a", .next none ""]).history := by
  have hhistory : (sampleSession [.next none "", .next (some five) "a", .next none ""]).history
      = [(.next none "", some 1), (.next (some five) "a", some 5), (.next none "", some 5)] := by
    decide
  refine ⟨hhistory, fun h => ?_⟩
  rw [hhistory] at h
  have hpassed : Passed [(.next none "", some 1), (.next (some five) "a", some 5)] 5 :=
    ⟨five, "a", some 5, by simp, rfl⟩
  exact absurd ((h _ "" 5 [] rfl).2 5 hpassed) (by decide)

end MyDuck.Catalog
