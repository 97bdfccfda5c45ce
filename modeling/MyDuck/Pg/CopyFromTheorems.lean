/-
MyDuck.Pg.CopyFromTheorems — what COPY FROM STDIN does when something fails.

`Proper` says what one message may do: after an error nothing more goes to
a loader and none is made; CopyDone and CopyFail clear the state; CopyFail
aborts the loader; CopyDone without any data succeeds with no rows; and
without a COPY every message is an error and not a panic.

`copy_from_along_iff`: every message of a run is handled properly exactly
when every message of it meets `Careful`. What `Careful` leaves out is a
CopyData after an error that reaches a loader or makes one, a CopyData
without a COPY (the error is stored through a nil pointer), a CopyDone
after an error, without a loader, or whose `Finish` fails (the state
stays), and nearly every CopyFail: without a loader the state stays, and
with one nobody aborts it.
-/
import MyDuck.Pg.CopyFrom

namespace MyDuck.CopyFrom

open Handler

/-! ## Properties of a step -/

/-- The message belongs to a COPY that was started before. -/
def Event.inCopy : Event → Bool
  | .copyData _ _ | .copyDone _ | .copyFail => true
  | .copyFromStdin _ _ | .readerFails _ => false

def Event.endsCopy : Event → Bool
  | .copyDone _ | .copyFail => true
  | _ => false

/-- No chunk is passed to a loader and no loader is made. -/
def Quiet (h h' : Handler) : Prop :=
  h'.created = h.created ∧ ∀ k, (h'.loaders k).chunks = (h.loaders k).chunks

/-- The message is handled as a failed or finished COPY requires. -/
structure Proper (h : Handler) (e : Event) : Prop where
  quiet : ∀ st, h.copy = some st → st.failed = true → e.inCopy = true → Quiet h (h.step e)
  cleared : h.copy ≠ none → e.endsCopy = true → (h.step e).copy = none
  aborts : ∀ st k, h.copy = some st → st.dataLoader = some k → e = .copyFail →
    ((h.step e).loaders k).aborted = true ∧ ((h.step e).loaders k).rows = none
  empty : ∀ st steps, h.copy = some st → st.received = 0 → e = .copyDone steps →
    ∃ h', h.handle e = .ok h' ∧ h'.sent = h.sent ++ [.commandComplete 0]
  idle : h.copy = none → e.inCopy = true → ∃ h', h.handle e = .error () h'

def Format.loadable : Format → Bool
  | .text | .csv | .arrow => true
  | .binary | .parquet | .json => false

/-- A CopyData that finds a COPY, and after an error does not get as far as
a loader. -/
def CarefulData (h : Handler) (steps : DataSteps) : Prop :=
  ∃ st, h.copy = some st ∧ (st.failed = false ∨ steps.context = false ∨
    (st.dataLoader = none ∧ (st.format.loadable = false ∨ steps.create = false)))

def Finishes (h : Handler) (k : Nat) (steps : DoneSteps) : Prop :=
  steps.context = true ∧ (h.loaders k).err = false ∧ steps.close = true ∧ steps.rows ≠ none

def Careful (h : Handler) : Event → Prop
  | .copyData _ steps => CarefulData h steps
  | .copyDone steps => ∀ st, h.copy = some st →
    st.copyErr = false ∧ ∃ k, st.dataLoader = some k ∧ Finishes h k steps
  | .copyFail => ∀ st, h.copy = some st →
    ∃ k, st.dataLoader = some k ∧ (h.loaders k).aborted = true
  | .copyFromStdin _ _ | .readerFails _ => True

/-! ## What the state keeps by itself -/

structure Inv (h : Handler) : Prop where
  fresh : ∀ k, h.created ≤ k → h.loaders k = {}
  loader : ∀ st k, h.copy = some st → st.dataLoader = some k →
    k < h.created ∧ (h.loaders k).rows = none
  first : ∀ st, h.copy = some st → st.received = 0 → st.dataLoader = none

theorem inv_start : Inv {} := ⟨fun _ _ => rfl, by simp, by simp⟩

variable {h : Handler} {steps : DataSteps} {st : CopyState}

section

variable (hi : Inv h)

include hi

/-- The same loaders, and a state with the same loader that has received
no less. -/
theorem Inv.of_copy {h' : Handler} (hl : h'.loaders = h.loaders) (hc : h'.created = h.created)
    (hst : ∀ st', h'.copy = some st' →
      ∃ st, h.copy = some st ∧ st'.dataLoader = st.dataLoader ∧ st.received ≤ st'.received) :
    Inv h' where
  fresh k hk := by rw [hl]; exact hi.fresh k (hc ▸ hk)
  loader st' k hst' hk := by
    obtain ⟨st, hcopy, heq, -⟩ := hst st' hst'
    rw [hl, hc]
    exact hi.loader st k hcopy (heq ▸ hk)
  first st' hst' h0 := by
    obtain ⟨st, hcopy, heq, hle⟩ := hst st' hst'
    rw [heq]
    exact hi.first st hcopy (by omega)

theorem Inv.onCopy {f : CopyState → CopyState} (hk : ∀ st, (f st).dataLoader = st.dataLoader)
    (hr : ∀ st, st.received ≤ (f st).received) : Inv (h.onCopy f) := by
  refine hi.of_copy rfl rfl fun st' hst' => ?_
  obtain ⟨st, hst, rfl⟩ := Option.map_eq_some_iff.mp hst'
  exact ⟨st, hst, hk st, hr st⟩

/-- A loader changes without its rows being made visible. -/
theorem Inv.onLoader {k : Nat} (hk : k < h.created) {f : Loader → Loader}
    (hf : ∀ l, (f l).rows = l.rows) : Inv (h.onLoader k f) where
  fresh j hj := by
    have hne : j ≠ k := by simp only [onLoader_created] at hj; omega
    simp [hne, hi.fresh j hj]
  loader st j hst hj := by
    refine ⟨(hi.loader st j hst hj).1, ?_⟩
    by_cases hjk : j = k
    · subst hjk
      simp [hf, (hi.loader st j hst hj).2]
    · simp [hjk, (hi.loader st j hst hj).2]
  first := hi.first

theorem leaves_fail : h.fail.Leaves Inv :=
  hi.onCopy (fun _ => rfl) fun _ => le_rfl

theorem leaves_loadChunk {k : Nat} (hk : k < h.created) (data : List UInt8) (write : Bool) :
    (h.loadChunk k data write).Leaves Inv := by
  have hgiven := hi.onLoader hk (f := fun l => { l with chunks := l.chunks ++ [data] })
    fun _ => rfl
  unfold loadChunk
  split
  · exact leaves_fail hgiven
  · split
    · exact leaves_fail (hgiven.onLoader hk fun _ => rfl)
    · exact hgiven

theorem Inv.create : Inv { h with created := h.created + 1 } where
  fresh k hk := hi.fresh k (Nat.le_of_succ_le hk)
  loader st k hst hk := ⟨Nat.lt_succ_of_lt (hi.loader st k hst hk).1, (hi.loader st k hst hk).2⟩
  first := hi.first

/-- The new loader is taken into the state of a COPY that has received a
message. -/
theorem Inv.adopt (hr : ∀ st, h.copy = some st → st.received ≠ 0) :
    Inv ((Handler.mk h.copy h.loaders (h.created + 1) h.sent).onCopy
      fun st => { st with dataLoader := some h.created }) where
  fresh := hi.create.fresh
  loader st' k hst' hk := by
    obtain ⟨st, hst, rfl⟩ := Option.map_eq_some_iff.mp hst'
    obtain rfl : h.created = k := Option.some.inj hk
    exact ⟨Nat.lt_succ_self _, by simp [hi.fresh h.created le_rfl]⟩
  first st' hst' h0 := by
    obtain ⟨st, hst, rfl⟩ := Option.map_eq_some_iff.mp hst'
    exact absurd h0 (hr st hst)

theorem leaves_newDataLoader (hr : ∀ st, h.copy = some st → st.received ≠ 0) (st : CopyState)
    (data : List UInt8) (steps : DataSteps) : (h.newDataLoader st data steps).Leaves Inv := by
  unfold newDataLoader
  split
  · exact leaves_fail hi
  · exact leaves_fail hi
  · exact leaves_fail hi
  all_goals
    split
    · exact leaves_fail hi
    · dsimp only
      split
      · exact leaves_fail hi.create
      · exact leaves_loadChunk (hi.adopt hr) (Nat.lt_succ_self _) _ _

/-- A CopyData has counted itself when its helper is called. -/
theorem Inv.received : Inv (h.onCopy fun st => { st with received := st.received + 1 }) :=
  hi.onCopy (fun _ => rfl) fun _ => Nat.le_succ _

theorem leaves_handleCopyDataHelper (hr : ∀ st, h.copy = some st → st.received ≠ 0)
    (data : List UInt8) (steps : DataSteps) : (h.handleCopyDataHelper data steps).Leaves Inv := by
  unfold handleCopyDataHelper
  split
  · exact hi
  · next st hst =>
    split
    · exact leaves_fail hi
    · split
      · next k hk => exact leaves_loadChunk hi (hi.loader st k hst hk).1 _ _
      · exact leaves_newDataLoader hi hr st data steps

theorem Inv.copyData (data : List UInt8) (steps : DataSteps) :
    Inv (h.step (.copyData data steps)) := by
  have hr : ∀ st, (h.onCopy fun st => { st with received := st.received + 1 }).copy = some st →
      st.received ≠ 0 := by
    intro st' hst'
    obtain ⟨st, -, rfl⟩ := Option.map_eq_some_iff.mp hst'
    exact Nat.succ_ne_zero _
  have hhelper := leaves_handleCopyDataHelper hi.received hr data steps
  unfold Handler.step Handler.handle Handler.handleCopyData
  dsimp only
  revert hhelper
  cases (h.onCopy fun st => { st with received := st.received + 1 }).handleCopyDataHelper data
    steps with
  | ok h' => exact id
  | panic => exact False.elim
  | error e h' =>
    intro hi'
    dsimp only
    split
    · exact hi
    · next st hst =>
      exact Inv.of_copy (h := h') hi' rfl rfl fun st' hst' =>
        ⟨st, hst, by simp at hst'; subst hst'; simp⟩

end

/-- Without a COPY only the loaders count. -/
theorem inv_of_none (hfresh : ∀ k, h.created ≤ k → h.loaders k = {}) (hnone : h.copy = none) :
    Inv h :=
  ⟨hfresh, by simp [hnone], by simp [hnone]⟩

theorem ends_finish (hi : Inv h) {k : Nat} (hk : k < h.created) (steps : DoneSteps) :
    (h.finish k steps).Ends
      (fun h' => h'.created = h.created ∧ ∀ j, h.created ≤ j → h'.loaders j = {}) Inv := by
  unfold finish
  split
  · exact leaves_fail hi
  · split
    · exact leaves_fail hi
    · split
      · exact leaves_fail (hi.onLoader hk fun _ => rfl)
      · refine ⟨rfl, fun j hj => ?_⟩
        have hne : j ≠ k := by omega
        simp [hne, hi.fresh j hj]

theorem Inv.copyDone (hi : Inv h) (steps : DoneSteps) : Inv (h.step (.copyDone steps)) := by
  unfold Handler.step Handler.handle handleCopyDone
  dsimp only
  split
  · exact hi
  · next st hst =>
    split
    · exact hi
    · split
      · exact leaves_fail hi
      · next k hk =>
        split
        · exact leaves_fail hi
        · have hfinish := ends_finish hi (hi.loader st k hst hk).1 steps
          revert hfinish
          cases h.finish k steps with
          | ok h' => exact fun hok => inv_of_none (fun j hj => hok.2 j (hok.1 ▸ hj)) rfl
          | error e h' => exact id
          | panic => exact fun _ => hi

theorem Inv.copyFail (hi : Inv h) : Inv (h.step .copyFail) := by
  unfold Handler.step Handler.handle handleCopyFail
  dsimp only
  split
  · exact hi
  · split
    · exact leaves_fail hi
    · exact inv_of_none hi.fresh rfl

theorem Inv.step (hi : Inv h) (e : Event) : Inv (h.step e) := by
  cases e with
  | copyFromStdin format validates =>
    cases validates with
    | false => exact hi
    | true =>
      refine ⟨hi.fresh, fun st k hst hk => ?_, fun st hst _ => ?_⟩
      all_goals obtain rfl : { format } = st := Option.some.inj hst
      · cases hk
      · rfl
  | copyData data steps => exact hi.copyData data steps
  | copyDone steps => exact hi.copyDone steps
  | copyFail => exact hi.copyFail
  | readerFails k =>
    by_cases hk : k < h.created
    · simpa [Handler.step, handle, hk] using
        hi.onLoader hk (f := fun l => { l with err := true }) fun _ => rfl
    · simpa [Handler.step, handle, hk] using hi

/-! ## CopyData -/

/-- What the helper leaves of the loaders, the handler leaves. -/
theorem step_copyData {data : List UInt8} {P : Handler → Prop}
    (hP : ∀ h' c, P h' → P { h' with copy := c })
    (hleaves : ((h.onCopy fun st => { st with received :=
      st.received + 1 }).handleCopyDataHelper data steps).Leaves fun h' => h'.copy ≠ none ∧ P h') :
    P (h.step (.copyData data steps)) := by
  unfold Handler.step Handler.handle handleCopyData
  dsimp only
  revert hleaves
  cases (h.onCopy fun st => { st with received := st.received + 1 }).handleCopyDataHelper data
    steps with
  | ok h' => exact And.right
  | panic => exact False.elim
  | error e h' =>
    rintro ⟨hcopy, hp⟩
    dsimp only
    split
    · next hnone => exact absurd hnone hcopy
    · exact hP h' _ hp

/-- A chunk that is passed to a loader is there afterwards. -/
theorem leaves_loadChunk_chunks (h : Handler) (hcopy : h.copy ≠ none) (k : Nat)
    (data : List UInt8) (write : Bool) :
    (h.loadChunk k data write).Leaves fun h' => h'.copy ≠ none ∧ h'.created = h.created ∧
      (h'.loaders k).chunks = (h.loaders k).chunks ++ [data] := by
  unfold loadChunk
  split
  · exact ⟨by simpa using hcopy, rfl, by simp⟩
  · split
    · exact ⟨by simpa using hcopy, rfl, by simp⟩
    · exact ⟨hcopy, rfl, by simp⟩

/-- A loader that is made is counted. -/
theorem leaves_newDataLoader_created (h : Handler) (hcopy : h.copy ≠ none)
    (hf : st.format.loadable = true) (data : List UInt8) (hc : steps.create = true) :
    (h.newDataLoader st data steps).Leaves fun h' =>
      h'.copy ≠ none ∧ h'.created = h.created + 1 := by
  have hload := fun chunk => leaves_loadChunk_chunks
    ((Handler.mk h.copy h.loaders (h.created + 1) h.sent).onCopy
      fun st => { st with dataLoader := some h.created }) (by simpa using hcopy) h.created chunk
      steps.write
  unfold newDataLoader
  split <;> simp_all only [Format.loadable, reduceCtorEq]
  all_goals
    simp only [Bool.not_true, Bool.false_eq_true, if_false]
    split
    · exact ⟨by simpa using hcopy, rfl⟩
    · exact (hload _).mono fun h' hh => ⟨hh.1, hh.2.1⟩

theorem newDataLoader_early (h : Handler) {data : List UInt8}
    (hearly : st.format.loadable = false ∨ steps.create = false) :
    h.newDataLoader st data steps = h.fail := by
  unfold newDataLoader
  rcases hearly with hf | hc
  · cases hfmt : st.format <;> simp_all [Format.loadable]
  · cases st.format <;> simp [hc]

/-- Nothing is passed and nothing made when a CopyData fails in front of
the loader. -/
theorem leaves_helper_quiet (h : Handler) (hst : h.copy = some st) (data : List UInt8)
    (hq : steps.context = false ∨ (st.dataLoader = none ∧ (st.format.loadable = false ∨
      steps.create = false))) :
    (h.handleCopyDataHelper data steps).Leaves fun h' => h'.copy ≠ none ∧ Quiet h h' := by
  have hfail : h.fail.Leaves fun h' => h'.copy ≠ none ∧ Quiet h h' :=
    ⟨by simp [hst], rfl, fun _ => rfl⟩
  unfold handleCopyDataHelper
  rw [hst]
  rcases hq with hctx | ⟨hk, hearly⟩
  · simpa [hctx] using hfail
  · dsimp only
    rw [hk]
    split
    · exact hfail
    · rw [newDataLoader_early h hearly]
      exact hfail

/-- Otherwise a chunk is passed or a loader made. -/
theorem leaves_helper_loud (h : Handler) (hst : h.copy = some st) (data : List UInt8)
    (hctx : steps.context = true)
    (hl : st.dataLoader = none → st.format.loadable = true ∧ steps.create = true) :
    (h.handleCopyDataHelper data steps).Leaves fun h' => h'.copy ≠ none ∧ ¬ Quiet h h' := by
  have hcopy : h.copy ≠ none := by simp [hst]
  unfold handleCopyDataHelper
  rw [hst]
  simp only [hctx, Bool.not_true, Bool.false_eq_true, if_false]
  cases hk : st.dataLoader with
  | some k =>
    refine (leaves_loadChunk_chunks h hcopy k data steps.write).mono fun h' hh => ⟨hh.1, ?_⟩
    intro hq
    have heq := hh.2.2.symm.trans (hq.2 k)
    simp at heq
  | none =>
    obtain ⟨hf, hc⟩ := hl hk
    refine (leaves_newDataLoader_created h hcopy hf data hc).mono fun h' hh => ⟨hh.1, ?_⟩
    intro hq
    have heq := hh.2.symm.trans hq.1
    omega

theorem quiet_copyData_iff (hst : h.copy = some st) (data : List UInt8) (steps : DataSteps) :
    Quiet h (h.step (.copyData data steps)) ↔ steps.context = false ∨
      (st.dataLoader = none ∧ (st.format.loadable = false ∨ steps.create = false)) := by
  have hst' : (h.onCopy fun st => { st with received := st.received + 1 }).copy =
      some { st with received := st.received + 1 } := by simp [hst]
  constructor
  · intro hq
    by_contra hloud
    obtain ⟨hctx, hl⟩ := not_or.mp hloud
    refine step_copyData (P := fun h' => ¬ Quiet h h') (fun _ _ hn => hn)
      (leaves_helper_loud _ hst' data (by simpa using hctx) fun hk => ?_) hq
    simpa using not_or.mp fun hearly => hl ⟨hk, hearly⟩
  · intro hq
    exact step_copyData (P := fun h' => Quiet h h') (fun _ _ hh => hh)
      (leaves_helper_quiet _ hst' data hq)

/-- Without a COPY the error is stored through a nil pointer. -/
theorem copyData_panics (hnone : h.copy = none) (data : List UInt8) (steps : DataSteps) :
    h.handle (.copyData data steps) = .panic := by
  simp [handle, handleCopyData, handleCopyDataHelper, hnone]

theorem proper_copyData_iff (h : Handler) (data : List UInt8) (steps : DataSteps) :
    Proper h (.copyData data steps) ↔ CarefulData h steps := by
  constructor
  · intro hp
    cases hst : h.copy with
    | none =>
      obtain ⟨h', hh⟩ := hp.idle hst rfl
      rw [copyData_panics hst] at hh
      cases hh
    | some st =>
      refine ⟨st, hst, ?_⟩
      cases hf : st.failed with
      | false => exact .inl rfl
      | true => exact .inr ((quiet_copyData_iff hst data steps).mp (hp.quiet st hst hf rfl))
  · rintro ⟨st, hst, hq⟩
    refine ⟨fun st' hst' hf _ => ?_, by simp [Event.endsCopy], by simp, by simp, by simp [hst]⟩
    obtain rfl := Option.some.inj (hst.symm.trans hst')
    exact (quiet_copyData_iff hst data steps).mpr (hq.resolve_left (by simp [hf]))

/-! ## CopyDone and CopyFail -/

theorem handleCopyDone_of_finishes {k : Nat} {steps : DoneSteps} (hst : h.copy = some st)
    (herr : st.copyErr = false) (hk : st.dataLoader = some k) (hfin : Finishes h k steps) :
    ∃ h', h.handle (.copyDone steps) = .ok h' ∧ h'.copy = none ∧
      Quiet h h' := by
  obtain ⟨hctx, hlerr, hclose, hrows⟩ := hfin
  obtain ⟨n, hn⟩ := Option.ne_none_iff_exists'.mp hrows
  have hfinish : h.finish k steps = .ok (h.onLoader k fun l => { l with rows := some n }) := by
    simp [finish, hlerr, hclose, hn]
  have hok : h.handle (.copyDone steps) =
      (h.finish k steps).andThen fun h => .ok { h with
        copy := none
        sent := h.sent ++ [.commandComplete (Int32.ofNat ((h.loaders k).rows.getD 0))] } := by
    simp [handle, handleCopyDone, hst, herr, hk, hctx]
  rw [hok, hfinish]
  refine ⟨_, rfl, rfl, rfl, fun j => ?_⟩
  by_cases hj : j = k
  · subst hj
    simp
  · simp [hj]

/-- The state stays when a step of CopyDone fails. -/
theorem copyDone_keeps {steps : DoneSteps} (hst : h.copy = some st)
    (hnot : ¬ (st.copyErr = false ∧ ∃ k, st.dataLoader = some k ∧ Finishes h k steps)) :
    ∃ st', (h.step (.copyDone steps)).copy = some st' ∧ st'.dataLoader = st.dataLoader ∧
      st'.copyErr = st.copyErr := by
  have hfail : ∀ h' : Handler, h'.copy = h.copy → ∃ st', (h'.fail.state?.getD h).copy = some st' ∧
      st'.dataLoader = st.dataLoader ∧ st'.copyErr = st.copyErr :=
    fun h' hcopy => ⟨{ st with failed := true }, by simp [fail, hcopy, hst], rfl, rfl⟩
  unfold Handler.step Handler.handle handleCopyDone
  rw [hst]
  cases herr : st.copyErr with
  | true => exact ⟨st, by simp [herr, hst], rfl, herr⟩
  | false =>
    rw [herr] at hfail
    cases hk : st.dataLoader with
    | none => simpa [herr, hk] using hfail h rfl
    | some k =>
      cases hctx : steps.context with
      | false => simpa [herr, hk, hctx] using hfail h rfl
      | true =>
        have hfinish : ∃ h' : Handler, h'.copy = h.copy ∧ h.finish k steps = h'.fail := by
          by_contra hsucceeds
          refine hnot ⟨herr, k, hk, hctx, ?_⟩
          unfold finish at hsucceeds
          split at hsucceeds
          · exact absurd ⟨h, rfl, rfl⟩ hsucceeds
          · next hlerr =>
            split at hsucceeds
            · exact absurd ⟨h, rfl, rfl⟩ hsucceeds
            · next hclose =>
              split at hsucceeds
              · exact absurd ⟨h.onLoader k _, rfl, rfl⟩ hsucceeds
              · next n hrows => exact ⟨by simpa using hlerr, by simpa using hclose, by simp [hrows]⟩
        obtain ⟨h', hcopy, hh'⟩ := hfinish
        simpa [herr, hk, hctx, hh', fail] using hfail h' hcopy

theorem proper_copyDone_iff (hi : Inv h) (steps : DoneSteps) :
    Proper h (.copyDone steps) ↔ Careful h (.copyDone steps) := by
  constructor
  · intro hp st hst
    by_contra hnot
    obtain ⟨st', hst', -⟩ := copyDone_keeps hst hnot
    simp [hp.cleared (by simp [hst]) rfl] at hst'
  · intro hc
    refine ⟨fun st hst _ _ => ?_, fun hsome _ => ?_, by simp, fun st steps' hst h0 _ => ?_, ?_⟩
    · obtain ⟨herr, k, hk, hfin⟩ := hc st hst
      obtain ⟨h', hh, -, hq⟩ := handleCopyDone_of_finishes hst herr hk hfin
      simpa [Handler.step, hh] using hq
    · obtain ⟨st, hst⟩ := Option.ne_none_iff_exists'.mp hsome
      obtain ⟨herr, k, hk, hfin⟩ := hc st hst
      obtain ⟨h', hh, hnone, -⟩ := handleCopyDone_of_finishes hst herr hk hfin
      simpa [Handler.step, hh] using hnone
    · obtain ⟨-, k, hk, -⟩ := hc st hst
      simp [hi.first st hst h0] at hk
    · exact fun hnone _ => ⟨h, by simp [handle, handleCopyDone, hnone]⟩

theorem proper_copyFail_iff (hi : Inv h) : Proper h .copyFail ↔ Careful h .copyFail := by
  constructor
  · intro hp st hst
    cases hk : st.dataLoader with
    | none =>
      have hcleared := hp.cleared (by simp [hst]) rfl
      simp [Handler.step, handle, handleCopyFail, hst, hk, fail] at hcleared
    | some k =>
      have haborts := (hp.aborts st k hst hk rfl).1
      exact ⟨k, rfl, by simpa [Handler.step, handle, handleCopyFail, hst, hk] using haborts⟩
  · intro hc
    have hok : ∀ st, h.copy = some st → h.handle .copyFail = .ok { h with copy := none } := by
      intro st hst
      obtain ⟨k, hk, -⟩ := hc st hst
      simp [handle, handleCopyFail, hst, hk]
    refine ⟨fun st hst _ _ => ?_, fun hsome _ => ?_, fun st k hst hk _ => ?_, by simp, ?_⟩
    · rw [Handler.step, hok st hst]
      exact ⟨rfl, fun _ => rfl⟩
    · obtain ⟨st, hst⟩ := Option.ne_none_iff_exists'.mp hsome
      rw [Handler.step, hok st hst]
      rfl
    · obtain ⟨k', hk', habort⟩ := hc st hst
      obtain rfl : k' = k := Option.some.inj (hk'.symm.trans hk)
      rw [Handler.step, hok st hst]
      exact ⟨habort, (hi.loader st k' hst hk').2⟩
    · exact fun hnone _ => ⟨h, by simp [handle, handleCopyFail, hnone]⟩

/-! ## Runs -/

theorem proper_iff_careful (hi : Inv h) (e : Event) : Proper h e ↔ Careful h e := by
  cases e with
  | copyFromStdin format validates =>
    exact ⟨fun _ => trivial, fun _ => ⟨by simp [Event.inCopy], by simp [Event.endsCopy], by simp,
      by simp, by simp [Event.inCopy]⟩⟩
  | copyData data steps => exact proper_copyData_iff h data steps
  | copyDone steps => exact proper_copyDone_iff hi steps
  | copyFail => exact proper_copyFail_iff hi
  | readerFails k =>
    exact ⟨fun _ => trivial, fun _ => ⟨by simp [Event.inCopy], by simp [Event.endsCopy], by simp,
      by simp, by simp [Event.inCopy]⟩⟩

/-- Every message of a run is handled properly exactly when every message
of it is careful. -/
theorem copy_from_along_iff (es : List Event) :
    Along Handler.step Proper {} es ↔ Along Handler.step Careful {} es := by
  constructor
  · exact Along.of_invariant Inv (fun h e hi _ => hi.step e)
      (fun h e hi hp => (proper_iff_careful hi e).mp hp) inv_start
  · exact Along.of_invariant Inv (fun h e hi _ => hi.step e)
      (fun h e hi hc => (proper_iff_careful hi e).mpr hc) inv_start

/-- A CopyData without a COPY panics. After a CopyData that could not get a
context the next one makes a loader and loads its chunk. CopyDone without
data is an error that leaves the state, and CopyFail leaves the loader. -/
theorem copy_from_failures :
    Handler.handle {} (.copyData [49, 10] {}) = .panic ∧
    ¬ Along Handler.step Proper {} [.copyData [49, 10] {}] ∧
    ¬ Along Handler.step Proper {} [.copyFromStdin .csv true,
      .copyData [49, 10] { context := false }, .copyData [50, 10] {}] ∧
    ¬ Along Handler.step Proper {} [.copyFromStdin .csv true, .copyDone { rows := some 0 }] ∧
    ¬ Along Handler.step Proper {} [.copyFromStdin .csv true, .copyData [49, 10] {},
      .copyFail] := by
  refine ⟨rfl, fun h => ?_, fun h => ?_, fun h => ?_, fun h => ?_⟩
  · obtain ⟨h', hh⟩ := h.1.idle rfl rfl
    cases hh
  · have hquiet := h.2.2.1.quiet _ rfl rfl rfl
    exact absurd hquiet.1 (by decide)
  · have hcleared := h.2.1.cleared (by decide) rfl
    exact absurd hcleared (by decide)
  · have haborts := (h.2.2.1.aborts _ 0 rfl rfl rfl).1
    exact absurd haborts (by decide)

end MyDuck.CopyFrom
