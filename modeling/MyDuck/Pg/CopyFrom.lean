/-
MyDuck.Pg.CopyFrom — COPY FROM STDIN, from the query to CopyDone or
CopyFail (`connection_handler.go`, `dataloader.go`).

The three message handlers share a state record with an error field and a
loader that is made for the first CopyData. Which of the steps outside the
handlers fail is part of the message: `NewContext`, the constructor of the
loader and its `Start`, the write to the pipe, its `Close`, and what the
reader at the other end of the pipe reports. The reader may also fail on
its own in between.

A loader keeps the chunks that it was given. What was written
to the pipe of a failed write is not modelled, nor is sending to the client.

The end of the data is marked by the line `\.` in text format. The code
looks for it in the message for which the loader is made and in no other,
and not for a whole line. `copy_split_iff` says for which ways of cutting a
stream into messages the loader gets the stream without its marker.
-/
import MyDuck.Base.Run
import MyDuck.Base.Session

namespace MyDuck.CopyFrom

/-! ## State -/

inductive Format where
  | text
  | csv
  | binary
  | parquet
  | json
  | arrow
  deriving DecidableEq, Repr

/-- A `PipeDataLoader`. -/
structure Loader where
  /-- The chunks given to `LoadChunk`. -/
  chunks : List (List UInt8) := []
  /-- `err != nil`. -/
  err : Bool := false
  aborted : Bool := false
  /-- The rows that `Finish` made visible. -/
  rows : Option Nat := none
  deriving DecidableEq, Repr

/-- `copyFromStdinState`. The last two fields are history. -/
structure CopyState where
  format : Format
  dataLoader : Option Nat := none
  /-- `copyErr != nil`. -/
  copyErr : Bool := false
  /-- The number of CopyData messages of this COPY. -/
  received : Nat := 0
  /-- A message of this COPY was answered by an error. -/
  failed : Bool := false
  deriving DecidableEq, Repr

inductive Reply where
  | copyInResponse (overallFormat : Nat)
  | commandComplete (rows : Int32)
  deriving DecidableEq, Repr

structure Handler where
  copy : Option CopyState := none
  loaders : Nat → Loader := fun _ => {}
  created : Nat := 0
  sent : List Reply := []

/-- Which steps of a CopyData succeed. -/
structure DataSteps where
  context : Bool := true
  create : Bool := true
  start : Bool := true
  write : Bool := true
  deriving DecidableEq, Repr

/-- Which steps of a CopyDone succeed; without rows the reader fails. -/
structure DoneSteps where
  context : Bool := true
  close : Bool := true
  rows : Option Nat
  deriving DecidableEq, Repr

inductive Event where
  | copyFromStdin (format : Format) (validates : Bool)
  | copyData (data : List UInt8) (steps : DataSteps)
  | copyDone (steps : DoneSteps)
  | copyFail
  /-- The reader of a loader stores its error. -/
  | readerFails (loader : Nat)
  deriving DecidableEq, Repr

/-! ## The end-of-data marker -/

/-- `\.` and a line feed. -/
def lfMarker : List UInt8 := [92, 46, 10]

/-- `\.`, a carriage return and a line feed. -/
def crlfMarker : List UInt8 := [92, 46, 13, 10]

/-- `if bytes.HasSuffix(data, m) { data = data[:len(data)-len(m)] }`. -/
def trimSuffix (m data : List UInt8) : List UInt8 :=
  if m <:+ data then data.take (data.length - m.length) else data

def removeMarker (data : List UInt8) : List UInt8 :=
  trimSuffix crlfMarker (trimSuffix lfMarker data)

/-! ## Handlers -/

namespace Handler

variable (h : Handler)

def onLoader (k : Nat) (f : Loader → Loader) : Handler :=
  { h with loaders := Function.update h.loaders k (f (h.loaders k)) }

def onCopy (f : CopyState → CopyState) : Handler := { h with copy := h.copy.map f }

@[simp] theorem onLoader_copy (k : Nat) (f : Loader → Loader) : (h.onLoader k f).copy = h.copy :=
  rfl

@[simp] theorem onLoader_created (k : Nat) (f : Loader → Loader) :
    (h.onLoader k f).created = h.created := rfl

@[simp] theorem onLoader_loaders (k : Nat) (f : Loader → Loader) :
    (h.onLoader k f).loaders = Function.update h.loaders k (f (h.loaders k)) := rfl

@[simp] theorem onCopy_copy (f : CopyState → CopyState) : (h.onCopy f).copy = h.copy.map f := rfl

@[simp] theorem onCopy_created (f : CopyState → CopyState) : (h.onCopy f).created = h.created := rfl

@[simp] theorem onCopy_loaders (f : CopyState → CopyState) : (h.onCopy f).loaders = h.loaders := rfl

def fail : Outcome Unit Handler := .error () (h.onCopy fun st => { st with failed := true })

def handleCopyFromStdinQuery (format : Format) (validates : Bool) : Outcome Unit Handler :=
  if !validates then .error () h
  else
    let overallFormat := match format with
      | .text | .csv | .json => 0
      | .arrow | .binary | .parquet => 1
    .ok { h with copy := some { format }, sent := h.sent ++ [.copyInResponse overallFormat] }

/-- `LoadChunk`; a write that fails aborts the loader. -/
def loadChunk (k : Nat) (data : List UInt8) (write : Bool) : Outcome Unit Handler :=
  let given := h.onLoader k fun l => { l with chunks := l.chunks ++ [data] }
  if (h.loaders k).err then given.fail
  else if !write then (given.onLoader k fun l => { l with err := true, aborted := true }).fail
  else .ok given

/-- The loader for the first message, unless its constructor fails. -/
def newDataLoader (st : CopyState) (data : List UInt8) (steps : DataSteps) :
    Outcome Unit Handler :=
  match st.format with
  | .binary | .parquet | .json => h.fail
  | .text | .csv | .arrow =>
    if !steps.create then h.fail
    else
      let made := { h with created := h.created + 1 }
      if !steps.start then made.fail
      else
        let ready := made.onCopy fun st => { st with dataLoader := some h.created }
        ready.loadChunk h.created (if st.format = .text then removeMarker data else data)
          steps.write

def handleCopyDataHelper (data : List UInt8) (steps : DataSteps) : Outcome Unit Handler :=
  match h.copy with
  | none => .error () h
  | some st =>
    if !steps.context then h.fail
    else
      match st.dataLoader with
      | some k => h.loadChunk k data steps.write
      | none => h.newDataLoader st data steps

/-- The error is kept in the state, also when there is none. -/
def handleCopyData (data : List UInt8) (steps : DataSteps) : Outcome Unit Handler :=
  let received := h.onCopy fun st => { st with received := st.received + 1 }
  match received.handleCopyDataHelper data steps with
  | .error e h' =>
    match h'.copy with
    | none => .panic
    | some st => .error e { h' with copy := some { st with copyErr := true } }
  | result => result

def finish (k : Nat) (steps : DoneSteps) : Outcome Unit Handler :=
  if (h.loaders k).err then h.fail
  else if !steps.close then h.fail
  else
    match steps.rows with
    | none => (h.onLoader k fun l => { l with err := true }).fail
    | some n => .ok (h.onLoader k fun l => { l with rows := some n })

def handleCopyDone (steps : DoneSteps) : Outcome Unit Handler :=
  match h.copy with
  | none => .error () h
  | some st =>
    if st.copyErr then .ok h
    else
      match st.dataLoader with
      | none => h.fail
      | some k =>
        if !steps.context then h.fail
        else (h.finish k steps).andThen fun h => .ok { h with
          copy := none
          sent := h.sent ++ [.commandComplete (Int32.ofNat ((h.loaders k).rows.getD 0))] }

def handleCopyFail : Outcome Unit Handler :=
  match h.copy with
  | none => .error () h
  | some st =>
    match st.dataLoader with
    | none => h.fail
    | some _ => .ok { h with copy := none }

def handle : Event → Outcome Unit Handler
  | .copyFromStdin format validates => h.handleCopyFromStdinQuery format validates
  | .copyData data steps => h.handleCopyData data steps
  | .copyDone steps => h.handleCopyDone steps
  | .copyFail => h.handleCopyFail
  | .readerFails k =>
    .ok (if k < h.created then h.onLoader k fun l => { l with err := true } else h)

/-- The connection goes on after an error, and after a panic with the
state as it was. -/
def step (e : Event) : Handler := (h.handle e).state?.getD h

end Handler

/-! ## What a stream is without its marker -/

/-- The bytes end where a line begins. -/
def AtLineStart (p : List UInt8) : Prop := p.getLast? = none ∨ p.getLast? = some 10

instance (p : List UInt8) : Decidable (AtLineStart p) :=
  inferInstanceAs (Decidable (_ ∨ _))

def IsMarker (m : List UInt8) : Prop := m = lfMarker ∨ m = crlfMarker

/-- The last line is a marker. -/
def EndsWithMarkerLine (s : List UInt8) : Prop := ∃ p m, IsMarker m ∧ s = p ++ m ∧ AtLineStart p

/-- The stream without a marker in its last line. -/
def withoutMarkerLine (s : List UInt8) : List UInt8 :=
  if lfMarker <:+ s ∧ AtLineStart (s.take (s.length - 3)) then s.take (s.length - 3)
  else if crlfMarker <:+ s ∧ AtLineStart (s.take (s.length - 4)) then s.take (s.length - 4)
  else s

/-- What the loader has to get. -/
def expected (format : Format) (stream : List UInt8) : List UInt8 :=
  if format = .text then withoutMarkerLine stream else stream

theorem trimSuffix_append (p m : List UInt8) : trimSuffix m (p ++ m) = p := by
  simp [trimSuffix]

variable {m s p bytes : List UInt8}

theorem trimSuffix_of_not (h : ¬ m <:+ s) : trimSuffix m s = s := by
  simp [trimSuffix, h]

/-- The two markers end differently. -/
theorem not_lf_crlf (p : List UInt8) : ¬ lfMarker <:+ p ++ crlfMarker := by
  rintro ⟨q, hq⟩
  have hlast : (q ++ lfMarker).reverse.take 2 = (p ++ crlfMarker).reverse.take 2 := by rw [hq]
  simp [lfMarker, crlfMarker] at hlast

theorem removeMarker_lf (p : List UInt8) :
    removeMarker (p ++ lfMarker) = trimSuffix crlfMarker p := by
  rw [removeMarker, trimSuffix_append]

theorem removeMarker_crlf (p : List UInt8) : removeMarker (p ++ crlfMarker) = p := by
  rw [removeMarker, trimSuffix_of_not (not_lf_crlf p), trimSuffix_append]

theorem removeMarker_of_not (hlf : ¬ lfMarker <:+ s) (hcrlf : ¬ crlfMarker <:+ s) :
    removeMarker s = s := by
  rw [removeMarker, trimSuffix_of_not hlf, trimSuffix_of_not hcrlf]

theorem withoutMarkerLine_append (hm : IsMarker m) (hp : AtLineStart p) :
    withoutMarkerLine (p ++ m) = p := by
  rcases hm with rfl | rfl
  · have htake : (p ++ lfMarker).take ((p ++ lfMarker).length - 3) = p := by simp [lfMarker]
    rw [withoutMarkerLine, htake, if_pos ⟨List.suffix_append _ _, hp⟩]
  · have htake : (p ++ crlfMarker).take ((p ++ crlfMarker).length - 4) = p := by simp [crlfMarker]
    rw [withoutMarkerLine, if_neg (fun h => not_lf_crlf p h.1), htake,
      if_pos ⟨List.suffix_append _ _, hp⟩]

theorem withoutMarkerLine_of_not (h : ¬ EndsWithMarkerLine s) : withoutMarkerLine s = s := by
  rw [withoutMarkerLine, if_neg, if_neg]
  · rintro ⟨⟨p, rfl⟩, hp⟩
    exact h ⟨p, crlfMarker, .inr rfl, rfl, by simpa [crlfMarker] using hp⟩
  · rintro ⟨⟨p, rfl⟩, hp⟩
    exact h ⟨p, lfMarker, .inl rfl, rfl, by simpa [lfMarker] using hp⟩

/-! ## A marker that commutes -/

/-- A list whose head does not come again commutes only with its own
repetitions. -/
theorem eq_replicate_of_commute {α : Type} {a : α} {t : List α} (ha : a ∉ t) (r : List α)
    (h : (a :: t) ++ r = r ++ (a :: t)) : ∃ n, r = (List.replicate n (a :: t)).flatten := by
  induction hlen : r.length using Nat.strong_induction_on generalizing r with
  | _ len ih =>
    rcases List.append_eq_append_iff.mp h with ⟨u, hr, hu⟩ | ⟨u, hm, hu⟩
    · -- the marker begins `r`; what is left of `r` commutes too
      have hcomm : (a :: t) ++ u = u ++ (a :: t) := by
        rw [← hu, hr]
      obtain ⟨n, hn⟩ := ih u.length (by subst hlen; rw [hr]; simp) u hcomm rfl
      exact ⟨n + 1, by rw [hr, hn]; simp [List.replicate_succ]⟩
    · -- `r` begins the marker, and the rest of the marker begins with its head
      cases r with
      | nil => exact ⟨0, rfl⟩
      | cons b r =>
        cases u with
        | nil => exact ⟨1, by simpa using hm.symm⟩
        | cons c u =>
          obtain ⟨rfl, hu'⟩ := List.cons.inj hu
          obtain ⟨-, ht⟩ := List.cons.inj hm
          exact absurd (by rw [ht]; simp) ha

theorem replicate_commute {α : Type} (m : List α) (n : Nat) :
    m ++ (List.replicate n m).flatten = (List.replicate n m).flatten ++ m := by
  rw [← List.flatten_cons, ← List.replicate_succ, List.replicate_succ', List.flatten_append]
  simp

theorem marker_commute_iff (hm : IsMarker m) (r : List UInt8) :
    m ++ r = r ++ m ↔ ∃ n, r = (List.replicate n m).flatten := by
  constructor
  · intro h
    rcases hm with rfl | rfl
    · exact eq_replicate_of_commute (by decide) r h
    · exact eq_replicate_of_commute (by decide) r h
  · rintro ⟨n, rfl⟩
    exact replicate_commute m n

/-! ## A stream cut into messages -/

/-- A COPY in which every step succeeds. -/
def copyEvents (format : Format) (messages : List (List UInt8)) (rows : Nat) : List Event :=
  .copyFromStdin format true :: messages.map (.copyData · {}) ++ [.copyDone { rows := some rows }]

/-- The bytes that the loader of the COPY is given. -/
def passedBytes (format : Format) (messages : List (List UInt8)) (rows : Nat) : List UInt8 :=
  ((run Handler.step {} (copyEvents format messages rows)).loaders 0).chunks.flatten

/-- The COPY has a loader, and nothing has failed. -/
structure Loading (h : Handler) (bytes : List UInt8) : Prop where
  copy : h.copy.map (·.dataLoader) = some (some 0)
  err : (h.loaders 0).err = false
  passed : (h.loaders 0).chunks.flatten = bytes

theorem Loading.loadChunk {h : Handler} (hl : Loading h bytes) (data : List UInt8) :
    ∃ h', h.loadChunk 0 data true = .ok h' ∧ Loading h' (bytes ++ data) := by
  refine ⟨h.onLoader 0 fun l => { l with chunks := l.chunks ++ [data] }, ?_, ?_⟩
  · simp [Handler.loadChunk, hl.err]
  · exact ⟨by simpa using hl.copy, by simpa using hl.err, by simp [hl.passed]⟩

theorem Loading.copyData {h : Handler} (hl : Loading h bytes) (data : List UInt8) :
    Loading (h.step (.copyData data {})) (bytes ++ data) := by
  obtain ⟨st, hst, hk⟩ := Option.map_eq_some_iff.mp hl.copy
  have hreceived : Loading (h.onCopy fun st => { st with received := st.received + 1 }) bytes :=
    ⟨by simp [hst, hk], hl.err, hl.passed⟩
  obtain ⟨h', hload, hl'⟩ := hreceived.loadChunk data
  have hstep : h.step (.copyData data {}) = h' := by
    simp [Handler.step, Handler.handle, Handler.handleCopyData, Handler.handleCopyDataHelper,
      hst, hk, hload]
  rw [hstep]
  exact hl'

theorem Loading.messages {h : Handler} (hl : Loading h bytes) (messages : List (List UInt8)) :
    Loading (run Handler.step h (messages.map (.copyData · {}))) (bytes ++ messages.flatten) := by
  induction messages generalizing h bytes with
  | nil => simpa using hl
  | cons data messages ih => simpa using ih (hl.copyData data)

theorem Loading.copyDone {h : Handler} (hl : Loading h bytes) (rows : Nat) :
    ((h.step (.copyDone { rows := some rows })).loaders 0).chunks.flatten = bytes := by
  obtain ⟨st, hst, hk⟩ := Option.map_eq_some_iff.mp hl.copy
  have hpassed := hl.passed
  cases herr : st.copyErr <;>
    simp [Handler.step, Handler.handle, Handler.handleCopyDone, Handler.finish, hst, hk, herr,
      hl.err, hpassed]

/-- The message for which the loader is made. -/
theorem loading_first {format : Format} (hf : format = .text ∨ format = .csv)
    (first : List UInt8) :
    Loading (run Handler.step {} [.copyFromStdin format true, .copyData first {}])
      (if format = .text then removeMarker first else first) := by
  rcases hf with rfl | rfl <;> exact ⟨rfl, rfl, List.append_nil _⟩

/-- The first message goes through `removeMarker` in text format, and the
others are passed on as they are. -/
theorem passedBytes_cons {format : Format} (hf : format = .text ∨ format = .csv)
    (first : List UInt8) (messages : List (List UInt8)) (rows : Nat) :
    passedBytes format (first :: messages) rows =
      (if format = .text then removeMarker first else first) ++ messages.flatten := by
  have hevents : copyEvents format (first :: messages) rows =
      [.copyFromStdin format true, .copyData first {}] ++ messages.map (.copyData · {}) ++
        [.copyDone { rows := some rows }] := rfl
  rw [passedBytes, hevents, run_append, run_append]
  exact ((loading_first hf first).messages messages).copyDone rows

theorem passedBytes_nil (format : Format) (rows : Nat) : passedBytes format [] rows = [] := by
  cases format <;> rfl

/-- The condition on the messages of a COPY in text format: either the
first message does not end in a marker and the stream not in a marker
line, or the first message ends in one marker, at the start of a line, and
nothing comes behind it but the same marker again. -/
def MarkerInFirst : List (List UInt8) → Prop
  | [] => True
  | first :: messages =>
    (¬ lfMarker <:+ first ∧ ¬ crlfMarker <:+ first ∧
      ¬ EndsWithMarkerLine (first ++ messages.flatten)) ∨
    ∃ p m n, IsMarker m ∧ first = p ++ m ∧ (m = lfMarker → ¬ crlfMarker <:+ p) ∧
      messages.flatten = (List.replicate n m).flatten ∧ (n = 0 → AtLineStart p)

theorem isMarker_eq_of_length {m' : List UInt8} (hm : IsMarker m) (hm' : IsMarker m')
    (h : m.length = m'.length) : m = m' := by
  rcases hm with rfl | rfl <;> rcases hm' with rfl | rfl <;> simp_all [lfMarker, crlfMarker]

theorem atLineStart_append_marker (hm : IsMarker m) : AtLineStart (p ++ m) := by
  rcases hm with rfl | rfl <;> exact .inr (by simp [lfMarker, crlfMarker])

/-- One marker taken from the end of the first message. -/
theorem marker_taken_iff {r : List UInt8} (hm : IsMarker m) :
    p ++ r = withoutMarkerLine (p ++ m ++ r) ↔
      ∃ n, r = (List.replicate n m).flatten ∧ (n = 0 → AtLineStart p) := by
  constructor
  · intro h
    by_cases hline : EndsWithMarkerLine (p ++ m ++ r)
    · obtain ⟨q, m', hm', hq, hstart⟩ := hline
      rw [hq, withoutMarkerLine_append hm' hstart] at h
      have hlen : m.length = m'.length := by
        have := congrArg List.length hq
        rw [← h] at this
        simp only [List.length_append] at this
        omega
      obtain rfl := isMarker_eq_of_length hm hm' hlen
      have hcomm : m ++ r = r ++ m := by
        rw [← h] at hq
        simpa using hq
      obtain ⟨n, hn⟩ := (marker_commute_iff hm r).mp hcomm
      refine ⟨n, hn, ?_⟩
      rintro rfl
      simpa [hn, ← h] using hstart
    · rw [withoutMarkerLine_of_not hline] at h
      have := congrArg List.length h
      rcases hm with rfl | rfl <;> simp [lfMarker, crlfMarker] at this <;> omega
  · rintro ⟨n, rfl, hstart⟩
    have hstart' : AtLineStart (p ++ (List.replicate n m).flatten) := by
      cases n with
      | zero => simpa using hstart rfl
      | succ n =>
        have happend : p ++ (List.replicate (n + 1) m).flatten =
            p ++ (List.replicate n m).flatten ++ m := by
          simp [List.replicate_succ']
        rw [happend]
        exact atLineStart_append_marker hm
    rw [List.append_assoc, replicate_commute, ← List.append_assoc,
      withoutMarkerLine_append hm hstart']

/-- More bytes were taken than a marker has. -/
theorem two_markers_taken {r : List UInt8} :
    p ++ r ≠ withoutMarkerLine (p ++ crlfMarker ++ lfMarker ++ r) := by
  intro h
  by_cases hline : EndsWithMarkerLine (p ++ crlfMarker ++ lfMarker ++ r)
  · obtain ⟨q, m, hm, hq, hstart⟩ := hline
    rw [hq, withoutMarkerLine_append hm hstart] at h
    have := congrArg List.length hq
    rw [← h] at this
    rcases hm with rfl | rfl <;> simp [lfMarker, crlfMarker] at this <;> omega
  · rw [withoutMarkerLine_of_not hline] at h
    have := congrArg List.length h
    simp [lfMarker, crlfMarker] at this
    omega

theorem eq_withoutMarkerLine_iff (s : List UInt8) :
    s = withoutMarkerLine s ↔ ¬ EndsWithMarkerLine s := by
  refine ⟨fun h => ?_, fun h => (withoutMarkerLine_of_not h).symm⟩
  rintro ⟨p, m, hm, rfl, hp⟩
  rw [withoutMarkerLine_append hm hp] at h
  rcases hm with rfl | rfl <;> simp [lfMarker, crlfMarker] at h

theorem marker_unique {p' m' : List UInt8} (hm : IsMarker m) (hm' : IsMarker m')
    (h : p ++ m = p' ++ m') : m = m' ∧ p = p' := by
  have heq : m = m' := by
    rcases hm with rfl | rfl <;> rcases hm' with rfl | rfl
    · rfl
    · exact absurd ⟨p, h⟩ (not_lf_crlf p')
    · exact absurd ⟨p', h.symm⟩ (not_lf_crlf p)
    · rfl
  subst heq
  exact ⟨rfl, List.append_cancel_right h⟩

/-- The first message ends in one marker. -/
theorem markerInFirst_marker (hm : IsMarker m) (messages : List (List UInt8)) :
    MarkerInFirst ((p ++ m) :: messages) ↔ (m = lfMarker → ¬ crlfMarker <:+ p) ∧
      ∃ n, messages.flatten = (List.replicate n m).flatten ∧ (n = 0 → AtLineStart p) := by
  constructor
  · rintro (⟨hlf, hcrlf, -⟩ | ⟨p', m', n, hm', heq, hone, hn, hstart⟩)
    · rcases hm with rfl | rfl
      · exact absurd (List.suffix_append _ _) hlf
      · exact absurd (List.suffix_append _ _) hcrlf
    · obtain ⟨rfl, rfl⟩ := marker_unique hm hm' heq
      exact ⟨hone, n, hn, hstart⟩
  · rintro ⟨hone, n, hn, hstart⟩
    exact .inr ⟨p, m, n, hm, rfl, hone, hn, hstart⟩

/-- A COPY in text format. -/
theorem text_passed_iff (messages : List (List UInt8)) (rows : Nat) :
    passedBytes .text messages rows = withoutMarkerLine messages.flatten ↔
      MarkerInFirst messages := by
  cases messages with
  | nil => simp [passedBytes_nil, MarkerInFirst, withoutMarkerLine, lfMarker, crlfMarker]
  | cons first messages =>
    rw [passedBytes_cons (.inl rfl), if_pos rfl, List.flatten_cons]
    by_cases hlf : lfMarker <:+ first
    · obtain ⟨p, rfl⟩ := hlf
      rw [removeMarker_lf, markerInFirst_marker (.inl rfl)]
      by_cases hcrlf : crlfMarker <:+ p
      · obtain ⟨p, rfl⟩ := hcrlf
        rw [trimSuffix_append]
        exact iff_of_false two_markers_taken fun h => h.1 rfl (List.suffix_append _ _)
      · rw [trimSuffix_of_not hcrlf, marker_taken_iff (.inl rfl)]
        simp [hcrlf]
    · by_cases hcrlf : crlfMarker <:+ first
      · obtain ⟨p, rfl⟩ := hcrlf
        rw [removeMarker_crlf, markerInFirst_marker (.inr rfl), marker_taken_iff (.inr rfl)]
        simp [lfMarker, crlfMarker]
      · rw [removeMarker_of_not hlf hcrlf, eq_withoutMarkerLine_iff]
        refine ⟨fun h => .inl ⟨hlf, hcrlf, h⟩, ?_⟩
        rintro (⟨-, -, h⟩ | ⟨p, m, n, hm, rfl, -⟩)
        · exact h
        · rcases hm with rfl | rfl
          · exact absurd (List.suffix_append _ _) hlf
          · exact absurd (List.suffix_append _ _) hcrlf

/-- Two ways of cutting one stream into messages give the loader the stream
without its marker line exactly when the format is CSV or the messages of
both meet `MarkerInFirst`. -/
theorem copy_split_iff (format : Format) (hf : format = .text ∨ format = .csv)
    (a b : List (List UInt8)) (hab : a.flatten = b.flatten) (rows : Nat) :
    (passedBytes format a rows = expected format a.flatten ∧
      passedBytes format b rows = expected format a.flatten) ↔
      format = .csv ∨ (MarkerInFirst a ∧ MarkerInFirst b) := by
  rcases hf with rfl | rfl
  · have hb := text_passed_iff b rows
    rw [← hab] at hb
    simp [expected, text_passed_iff a rows, hb]
  · have hcsv : ∀ messages, passedBytes .csv messages rows = messages.flatten := by
      intro messages
      cases messages with
      | nil => exact passedBytes_nil .csv rows
      | cons first messages => simp [passedBytes_cons (.inr rfl)]
    simp [expected, hcsv, hab]

/-- Two rows, cut behind the first of them and inside of it. -/
theorem copy_split_two_rows :
    passedBytes .text [[49, 10], [50, 10]] 2 = [49, 10, 50, 10] ∧
      passedBytes .text [[49], [10, 50, 10]] 2 = [49, 10, 50, 10] :=
  (copy_split_iff .text (.inl rfl) [[49, 10], [50, 10]] [[49], [10, 50, 10]] rfl 2).mpr
    (.inr ⟨(text_passed_iff _ 2).mp (by decide), (text_passed_iff _ 2).mp (by decide)⟩)

/-- The same row and marker, in one message and in two; and a row that ends
in the two characters of the marker. -/
theorem copy_split_differs :
    passedBytes .text [[49, 10, 92, 46, 10]] 1 = [49, 10] ∧
    passedBytes .text [[49, 10], [92, 46, 10]] 1 = [49, 10, 92, 46, 10] ∧
    expected .text [49, 10, 92, 46, 10] = [49, 10] ∧
    passedBytes .text [[97, 92, 46, 10]] 1 = [97] ∧
    expected .text [97, 92, 46, 10] = [97, 92, 46, 10] := by
  decide

end MyDuck.CopyFrom
