/-
MyDuck.Binlog.RowBufferTheorems — what a row event leaves in the builders.

`readEvent` reads the images of an event without a buffer: it says on the
bytes alone whether the cells decode. `Follows` compares such a reading
with the call that fills the builders: both go through, both stop at an
error, or both panic. Its sequencing rule carries the comparison from one
cell to a row, to the loop over the rows and to the event.

A call that goes through leaves all columns at one length and the counters
at the events whose rows are there. A call that stops at a cell has
already filled the augmented columns of that row, so the column of the
cell is behind them: no failing call leaves the builders rectangular.
-/
import MyDuck.Binlog.RowCellTheorems

namespace MyDuck.RowCells

open MyDuck.Delta MyDuck.Rbr
open MyDuck.Binlog (TxnStamp)

/-! ## A reading and a call -/

/-- A reading of bytes and the call that fills a state end in the same
way: with a result and a state with `P`, with an error and a state with
`Q`, or with a panic. -/
inductive Follows {α σ : Type} (P : α → σ → Prop) (Q : σ → Prop) :
    Decoded α → Outcome CellError σ → Prop where
  | ok {a : α} {s : σ} (h : P a s) : Follows P Q (.ok a) (.ok s)
  | error {n : Nat} {e : CellError} {s : σ} (h : Q s) :
      Follows P Q (.error (.error n e)) (.error e s)
  | panic : Follows P Q (.error .panic) .panic

section Follows

variable {α β σ τ : Type} {P : α → σ → Prop} {R : β → σ → Prop} {Q : σ → Prop}
  {d : Decoded α} {o : Outcome CellError σ}

theorem Follows.bind (h : Follows P Q d o) {g : α → Decoded β} {k : σ → Outcome CellError σ}
    (hk : ∀ a s, P a s → Follows R Q (g a) (k s)) : Follows R Q (d >>= g) (o.andThen k) := by
  cases h with
  | ok h => exact hk _ _ h
  | error h => exact .error h
  | panic => exact .panic

/-- The results and the states are changed at the end. -/
theorem Follows.map (h : Follows P Q d o) {g : α → β} {k : σ → τ} {P' : β → τ → Prop}
    {Q' : τ → Prop} (hP : ∀ a s, P a s → P' (g a) (k s)) (hQ : ∀ s, Q s → Q' (k s)) :
    Follows P' Q' (d >>= fun a => pure (g a)) (o.map k) := by
  cases h with
  | ok h => exact .ok (hP _ _ h)
  | error h => exact .error (hQ _ h)
  | panic => exact .panic

theorem Follows.mono (h : Follows P Q d o) {P' : α → σ → Prop} {Q' : σ → Prop}
    (hP : ∀ a s, P a s → P' a s) (hQ : ∀ s, Q s → Q' s) : Follows P' Q' d o := by
  cases h with
  | ok h => exact .ok (hP _ _ h)
  | error h => exact .error (hQ _ h)
  | panic => exact .panic

/-- Every end of the call is as it should be exactly when the reading has no
error. -/
theorem Follows.ends_iff {P : σ → Prop} (h : Follows (fun _ : α => P) (fun s => ¬ Q s) d o) :
    o.Ends P Q ↔ ∀ n e, d ≠ .error (.error n e) := by
  cases h with
  | ok h => exact ⟨nofun, fun _ => h⟩
  | @error n e s h => exact ⟨fun hs => absurd hs h, fun hne => absurd rfl (hne n e)⟩
  | panic => exact ⟨nofun, fun _ => trivial⟩

end Follows

/-! ## Reading images -/

section Reading

variable (json : JsonParsers)

/-- One cell, into a builder of the type. -/
def cellEntry (data : Slice) (pos : Nat) (c : CellSpec) (type : BuilderType) :
    Decoded (Nat × Entry) := do
  let (n, b) ← cellValue json data pos c.typ c.metadata c.column { type := type }
  return (n, b.entries.headD .null)

/-- The cells of an image, from column `i` and position `pos` on. -/
def readCells (im : RawImage) :
    List CellSpec → List BuilderType → Nat → Nat → Decoded (Nat × List Entry)
  | [], _, _, pos => .ok (pos, [])
  | _ :: _, [], _, _ => .error .panic
  | c :: cs, t :: ts, i, pos =>
    if im.isNull i then
      readCells im cs ts (i + 1) pos >>= fun r => pure (r.1, .null :: r.2)
    else do
      let (n, e) ← cellEntry json im.data pos c t
      readCells im cs ts (i + 1) (pos + n) >>= fun r => pure (r.1, e :: r.2)

def readImage (cols : List CellSpec) (types : List BuilderType) (im : RawImage) :
    Decoded (Nat × List Entry) :=
  readCells json im cols types 0 0

def readImages (cols : List CellSpec) (types : List BuilderType) :
    List RawImage → Decoded Unit
  | [] => .ok ()
  | im :: ims => readImage json cols types im >>= fun _ => readImages cols types ims

/-- The images that an event appends: the before images of a DELETE and an
UPDATE, then the after images of an INSERT and an UPDATE. -/
def eventImages (event : RowEventType) (rows : List RawRow) : List RawImage :=
  (if event = .insert then [] else rows.map RawRow.identify) ++
    if event = .delete then [] else rows.map RawRow.data

def readEvent (cols : List CellSpec) (types : List BuilderType) (event : RowEventType)
    (rows : List RawRow) : Decoded Unit :=
  readImages json cols types (eventImages event rows)

variable {json}

theorem cellValue_eq (data : Slice) (pos : Nat) (c : CellSpec) (b : Builder) :
    cellValue json data pos c.typ c.metadata c.column b
      = cellEntry json data pos c b.type >>= fun r => pure (r.1, b.append r.2) := by
  obtain ⟨len, h⟩ := cellValue_reads_some json data pos c.typ c.metadata c.column b.type
  cases h with
  | fails fault h =>
    rw [cellEntry, h b rfl, h { type := b.type } rfl]
    rfl
  | appends n e hlen h =>
    rw [cellEntry, h b rfl, h { type := b.type } rfl]
    rfl

theorem readImages_append (cols : List CellSpec) (types : List BuilderType)
    (xs ys : List RawImage) :
    readImages json cols types (xs ++ ys)
      = readImages json cols types xs >>= fun _ => readImages json cols types ys := by
  induction xs with
  | nil => rfl
  | cons x xs ih =>
    rw [List.cons_append, readImages, readImages, ih]
    cases readImage json cols types x <;> rfl

/-- **The loop over the cells**: it appends the entries that the image
reads as, or it stops and leaves a builder as it was. -/
theorem appendCells_follows {im : RawImage} {cols : List CellSpec} {bs : List Builder}
    (hlen : bs.length = cols.length) (i pos : Nat) :
    Follows (fun (r : Nat × List Entry) s => s.1 = r.1 ∧ r.2.length = bs.length ∧
        s.2 = List.zipWith Builder.append bs r.2)
      (fun s => ∃ b ∈ bs, b ∈ s.2)
      (readCells json im cols (bs.map Builder.type) i pos) (appendCells json im cols bs i pos) := by
  induction cols generalizing bs i pos with
  | nil =>
    obtain rfl := List.length_eq_zero_iff.mp hlen
    exact .ok ⟨rfl, rfl, rfl⟩
  | cons c cs ih =>
    cases bs with
    | nil => cases hlen
    | cons b bs =>
      have hlen' : bs.length = cs.length := by simpa using hlen
      have hrest : ∀ (e : Entry) (q : Nat),
          Follows (fun (r : Nat × List Entry) s => s.1 = r.1 ∧ r.2.length = (b :: bs).length ∧
              s.2 = List.zipWith Builder.append (b :: bs) r.2)
            (fun s => ∃ x ∈ b :: bs, x ∈ s.2)
            (readCells json im cs (bs.map Builder.type) (i + 1) q >>= fun r =>
              pure (r.1, e :: r.2))
            ((appendCells json im cs bs (i + 1) q).map fun s => (s.1, b.append e :: s.2)) := by
        intro e q
        refine (ih hlen' (i + 1) q).map ?_ ?_
        · rintro r s ⟨h1, h2, h3⟩
          exact ⟨h1, by rw [List.length_cons, List.length_cons, h2],
            by rw [List.zipWith_cons_cons, h3]⟩
        · rintro s ⟨x, hx, hxs⟩
          exact ⟨x, List.mem_cons_of_mem _ hx, List.mem_cons_of_mem _ hxs⟩
      rw [List.map_cons, readCells, appendCells]
      split
      · exact hrest .null pos
      · rw [cellValue_eq]
        cases cellEntry json im.data pos c b.type with
        | ok r => exact hrest r.2 (pos + r.1)
        | error fault =>
          cases fault with
          | error n e => exact .error ⟨b, List.mem_cons_self, List.mem_cons_self⟩
          | panic => exact .panic

end Reading

/-! ## Rectangular buffers -/

/-- All columns have the length of the action column. -/
structure Rectangular (buf : ColumnBuffer) : Prop where
  txnTag : buf.txnTag.length = buf.action.length
  txnServer : buf.txnServer.length = buf.action.length
  txnGroup : buf.txnGroup.length = buf.action.length
  txnSeq : buf.txnSeq.length = buf.action.length
  txnStmt : buf.txnStmt.length = buf.action.length
  fields : ∀ b ∈ buf.fields, b.entries.length = buf.action.length

/-- The actions of an event of so many rows. -/
def eventActions (e : RowEventType × Nat) : List RowEventType :=
  (if e.1 = .insert then [] else List.replicate e.2 .delete) ++
    if e.1 = .delete then [] else List.replicate e.2 .insert

/-- What the two loops of an event do to the counters. -/
def loopCounts (e : RowEventType × Nat) (c : Counters) : Counters :=
  (if e.1 = .delete then id else (·.updateActionStats .insert e.2))
    ((if e.1 = .insert then id else (·.updateActionStats .delete e.2)) c)

/-- The rows present are those of the events, and the counters count them:
the actions their rows, and the events themselves. -/
structure Counted (events : List (RowEventType × Nat)) (buf : ColumnBuffer) : Prop where
  action : buf.action = events.flatMap eventActions
  actionDelete : buf.counters.actionDelete = buf.action.count .delete
  actionInsert : buf.counters.actionInsert = buf.action.count .insert
  eventDelete : buf.counters.eventDelete = events.countP (fun e => e.1 = .delete)
  eventInsert : buf.counters.eventInsert = events.countP (fun e => e.1 = .insert)
  eventUpdate : buf.counters.eventUpdate = events.countP (fun e => e.1 = .update)

/-- The columns have one length, and the rows and the counters are those of
the events. -/
def Consistent (events : List (RowEventType × Nat)) (f : Filled) : Prop :=
  Rectangular f.buffer ∧ Counted events f.buffer

/-- An event is in the buffer as a whole, or not at all. -/
def Whole (events : List (RowEventType × Nat)) (event : RowEventType × Nat) (f : Filled) : Prop :=
  Consistent events f ∨ Consistent (events ++ [event]) f

/-- The buffer has grown by rows of these actions, and its counters by
`c`. -/
structure Grown (actions : List RowEventType) (c : Counters → Counters) (f f' : Filled) :
    Prop where
  rect : Rectangular f'.buffer
  action : f'.buffer.action = f.buffer.action ++ actions
  counters : f'.buffer.counters = c f.buffer.counters
  types : f'.buffer.fields.map Builder.type = f.buffer.fields.map Builder.type

theorem Grown.trans {xs ys : List RowEventType} {c d : Counters → Counters} {f f₁ f₂ : Filled}
    (h₁ : Grown xs c f f₁) (h₂ : Grown ys d f₁ f₂) : Grown (xs ++ ys) (d ∘ c) f f₂ where
  rect := h₂.rect
  action := by rw [h₂.action, h₁.action, List.append_assoc]
  counters := by rw [h₂.counters, h₁.counters, Function.comp_apply]
  types := by rw [h₂.types, h₁.types]

theorem Grown.width {xs : List RowEventType} {c : Counters → Counters} {f f' : Filled}
    (h : Grown xs c f f') : f'.buffer.fields.length = f.buffer.fields.length := by
  rw [← List.length_map, h.types, List.length_map]

section Event

variable {json : JsonParsers} {cols : List CellSpec} {stamp : TxnStamp} {stmt : Nat}
  {action : RowEventType} {f : Filled}

theorem map_type_append {bs : List Builder} {es : List Entry} (h : es.length = bs.length) :
    (List.zipWith Builder.append bs es).map Builder.type = bs.map Builder.type := by
  induction bs generalizing es with
  | nil => simp
  | cons b bs ih =>
    cases es with
    | nil => cases h
    | cons e es => simp [Builder.append, ih (by simpa using h)]

theorem length_entries_append {bs : List Builder} {es : List Entry} {n : Nat}
    (h : ∀ b ∈ bs, b.entries.length = n) :
    ∀ b ∈ List.zipWith Builder.append bs es, b.entries.length = n + 1 := by
  intro b hb
  rw [List.mem_iff_getElem?] at hb
  obtain ⟨i, hi⟩ := hb
  obtain ⟨x, e, hx, -, rfl⟩ := List.getElem?_zipWith_eq_some.mp hi
  rw [Builder.append, List.length_append, List.length_singleton,
    h x (List.mem_of_getElem? hx)]

def Filled.addRow (f : Filled) (stamp : TxnStamp) (stmt : Nat) (action : RowEventType)
    (r : Nat × List Entry) : Filled :=
  ⟨{ f.buffer.appendStamp stamp stmt action with
      fields := List.zipWith Builder.append f.buffer.fields r.2 }, f.size + r.1⟩

/-- **One row.** The augmented columns grow first, so a row that is cut
off leaves a field behind them. -/
theorem appendRow_follows (hrect : Rectangular f.buffer)
    (hwidth : f.buffer.fields.length = cols.length) (im : RawImage) :
    Follows (fun r f' => r.2.length = f.buffer.fields.length ∧
        f' = f.addRow stamp stmt action r)
      (fun f' => ¬ Rectangular f'.buffer)
      (readImage json cols (f.buffer.fields.map Builder.type) im)
      (appendRow json cols stamp stmt action im f) := by
  have hcells : Follows _ _ (readCells json im cols (f.buffer.fields.map Builder.type) 0 0)
      (appendCells json im cols f.buffer.fields 0 0) := appendCells_follows hwidth 0 0
  unfold appendRow readImage
  simp only [show (f.buffer.appendStamp stamp stmt action).fields = f.buffer.fields from rfl]
  generalize readCells json im cols (f.buffer.fields.map Builder.type) 0 0 = d at hcells ⊢
  generalize appendCells json im cols f.buffer.fields 0 0 = o at hcells ⊢
  cases hcells with
  | @ok r s h =>
    obtain ⟨hpos, hlen, hs⟩ := h
    exact .ok ⟨hlen, by rw [Filled.addRow, hpos, hs]⟩
  | @error n e s h =>
    obtain ⟨b, hb, hbs⟩ := h
    refine .error fun hrect' => ?_
    have hold := hrect.fields b hb
    have hnew : b.entries.length = (f.buffer.action ++ [action]).length := hrect'.fields b hbs
    rw [List.length_append, List.length_singleton] at hnew
    omega
  | panic => exact .panic

theorem grown_addRow (hrect : Rectangular f.buffer) {r : Nat × List Entry}
    (hlen : r.2.length = f.buffer.fields.length) :
    Grown [action] id f (f.addRow stamp stmt action r) := by
  refine ⟨⟨?_, ?_, ?_, ?_, ?_, ?_⟩, rfl, rfl, map_type_append hlen⟩
  · simp [Filled.addRow, ColumnBuffer.appendStamp, hrect.txnTag]
  · simp [Filled.addRow, ColumnBuffer.appendStamp, hrect.txnServer]
  · simp [Filled.addRow, ColumnBuffer.appendStamp, hrect.txnGroup]
  · simp [Filled.addRow, ColumnBuffer.appendStamp, hrect.txnSeq]
  · simp [Filled.addRow, ColumnBuffer.appendStamp, hrect.txnStmt]
  · intro b hb
    rw [length_entries_append hrect.fields b hb]
    simp [Filled.addRow, ColumnBuffer.appendStamp]

/-- **The loop over the rows.** -/
theorem appendRows_follows (images : List RawImage) {f : Filled} (hrect : Rectangular f.buffer)
    (hwidth : f.buffer.fields.length = cols.length) :
    Follows (fun _ f' => Grown (List.replicate images.length action) id f f')
      (fun f' => ¬ Rectangular f'.buffer)
      (readImages json cols (f.buffer.fields.map Builder.type) images)
      (appendRows json cols stamp stmt action images f) := by
  induction images generalizing f with
  | nil => exact .ok ⟨hrect, by simp, rfl, rfl⟩
  | cons im ims ih =>
    refine (appendRow_follows hrect hwidth im).bind ?_
    rintro r _ ⟨hlen, rfl⟩
    have h₁ : Grown [action] id f (f.addRow stamp stmt action r) := grown_addRow hrect hlen
    rw [← h₁.types]
    exact (ih h₁.rect (h₁.width.trans hwidth)).mono (fun _ f₂ h₂ => h₁.trans h₂) fun _ h => h

/-- The counters are changed behind a loop. -/
theorem Grown.count {xs : List RowEventType} {c : Counters → Counters} {f f' : Filled}
    (h : Grown xs c f f') (d : Counters → Counters) :
    Grown xs (d ∘ c) f
      { f' with buffer := { f'.buffer with counters := d f'.buffer.counters } } where
  rect := ⟨h.rect.txnTag, h.rect.txnServer, h.rect.txnGroup, h.rect.txnSeq, h.rect.txnStmt,
    h.rect.fields⟩
  action := h.action
  counters := by rw [h.counters, Function.comp_apply]
  types := h.types

/-- **One of the two loops** with its statistics, unless the event has no
such rows. -/
theorem phase_follows (skip : Prop) [Decidable skip] (images : List RawImage)
    (hrect : Rectangular f.buffer) (hwidth : f.buffer.fields.length = cols.length) :
    Follows (fun _ f' => Grown (if skip then [] else List.replicate images.length action)
        (if skip then id else (·.updateActionStats action images.length)) f f')
      (fun f' => ¬ Rectangular f'.buffer)
      (readImages json cols (f.buffer.fields.map Builder.type) (if skip then [] else images))
      (if skip then .ok f else appendPhase json cols stamp stmt action images f) := by
  split
  · exact .ok ⟨hrect, by simp, rfl, rfl⟩
  · rw [← bind_pure (readImages json cols _ images)]
    exact (appendRows_follows images hrect hwidth).bind fun _ f' h =>
      .ok (h.count (·.updateActionStats action images.length))

/-- The counters after both loops and the event. -/
theorem Counted.event {events : List (RowEventType × Nat)} {f f' : Filled}
    (h : Counted events f.buffer) (event : RowEventType) (n : Nat)
    (hg : Grown (eventActions (event, n)) ((·.observeEvents event n) ∘ loopCounts (event, n))
      f f') :
    Counted (events ++ [(event, n)]) f'.buffer := by
  have haction := hg.action
  have hcounters := hg.counters
  cases event <;>
    simp only [eventActions, loopCounts, reduceCtorEq, if_true, if_false, Function.comp_apply,
      id_eq] at haction hcounters <;>
    refine ⟨?_, ?_, ?_, ?_, ?_, ?_⟩ <;>
    simp [haction, hcounters, h.action, eventActions, Counters.observeEvents,
      Counters.updateActionStats, h.actionDelete, h.actionInsert, h.eventDelete, h.eventInsert,
      h.eventUpdate, List.count_append, List.count_replicate, List.countP_append]

/-- **The whole event.** -/
theorem appendRowFormatChanges_follows (event : RowEventType) (rows : List RawRow)
    {events : List (RowEventType × Nat)} (hwidth : f.buffer.fields.length = cols.length)
    (h : Consistent events f) :
    Follows (fun _ f' => Consistent (events ++ [(event, rows.length)]) f')
      (fun f' => ¬ Whole events (event, rows.length) f')
      (readEvent json cols (f.buffer.fields.map Builder.type) event rows)
      (appendRowFormatChanges json cols stamp stmt event rows f) := by
  obtain ⟨hrect, hcount⟩ := h
  have hloops : Follows (fun _ f₂ => Grown (eventActions (event, rows.length))
        (loopCounts (event, rows.length)) f f₂) (fun f₂ => ¬ Rectangular f₂.buffer)
      (readImages json cols (f.buffer.fields.map Builder.type)
          (if event = .insert then [] else rows.map RawRow.identify) >>= fun _ =>
        readImages json cols (f.buffer.fields.map Builder.type)
          (if event = .delete then [] else rows.map RawRow.data))
      ((if event = .insert then .ok f
        else appendPhase json cols stamp stmt .delete (rows.map RawRow.identify) f).andThen fun f =>
          if event = .delete then .ok f
          else appendPhase json cols stamp stmt .insert (rows.map RawRow.data) f) := by
    refine (phase_follows (event = .insert) _ hrect hwidth).bind fun _ f₁ h₁ => ?_
    rw [← h₁.types]
    refine (phase_follows (event = .delete) _ h₁.rect (h₁.width.trans hwidth)).mono
      (fun _ f₂ h₂ => ?_) fun _ h => h
    have h := h₁.trans h₂
    rw [List.length_map, List.length_map] at h
    exact h
  rw [readEvent, eventImages, readImages_append, ← bind_pure (readImages json cols _ _ >>= _)]
  refine (hloops.bind fun _ f₂ h₂ => .ok (P := fun _ => Consistent _) ?_).mono
    (fun _ _ h => h) fun f' hrect' hf' => hrect' (hf'.elim And.left And.left)
  have hgrown := h₂.count (·.observeEvents event rows.length)
  exact ⟨hgrown.rect, hcount.event event rows.length hgrown⟩

/-- No cell of the images of the event fails with an error, when they are
read one after another into builders of the types. -/
def NoCellError (json : JsonParsers) (cols : List CellSpec) (types : List BuilderType)
    (event : RowEventType) (rows : List RawRow) : Prop :=
  ∀ n e, readEvent json cols types event rows ≠ .error (.error n e)

end Event

/-- **A row event leaves the buffer rectangular, with the events so far and
this one counted, exactly when no cell fails.** A call that fails leaves
neither the buffer without the event nor the one with it. -/
theorem rectangular_iff (json : JsonParsers) (cols : List CellSpec) (stamp : TxnStamp)
    (stmt : Nat) (event : RowEventType) (rows : List RawRow) (f : Filled)
    {events : List (RowEventType × Nat)} (hwidth : f.buffer.fields.length = cols.length)
    (h : Consistent events f) :
    (appendRowFormatChanges json cols stamp stmt event rows f).Ends
        (Consistent (events ++ [(event, rows.length)])) (Whole events (event, rows.length)) ↔
      NoCellError json cols (f.buffer.fields.map Builder.type) event rows :=
  (appendRowFormatChanges_follows event rows hwidth h).ends_iff

/-- The appender of a table, before its first row. -/
def emptyBuffer (types : List BuilderType) : Filled :=
  ⟨{ fields := types.map fun t => { type := t } }, 0⟩

theorem consistent_emptyBuffer (types : List BuilderType) : Consistent [] (emptyBuffer types) := by
  refine ⟨⟨rfl, rfl, rfl, rfl, rfl, ?_⟩, ⟨rfl, rfl, rfl, rfl, rfl, rfl⟩⟩
  intro b hb
  obtain ⟨t, -, rfl⟩ := List.mem_map.mp hb
  rfl

/-- A stamp in file-position mode. -/
def sampleStamp : TxnStamp := ⟨none, none, some "binlog.000001", 4⟩

/-- An INSERT of the row `('ab', NULL, 7)`. -/
theorem rectangular_iff_sample :
    (appendRowFormatChanges {} sampleCols sampleStamp 0 .insert [⟨sampleImage, sampleImage⟩]
      (emptyBuffer [.string, .int8, .int8])).Ends (Consistent [(.insert, 1)])
        (Whole [] (.insert, 1)) := by
  refine (rectangular_iff {} sampleCols sampleStamp 0 .insert _ _ rfl
    (consistent_emptyBuffer _)).mpr fun n e h => ?_
  have hread : readEvent {} sampleCols [.string, .int8, .int8] .insert
      [⟨sampleImage, sampleImage⟩] = .ok () := rfl
  have hne := hread.symm.trans h
  cases hne

/-! ## The cell that fails -/

/-- A TINYINT column and an ENUM with one value. -/
def enumCols : List CellSpec :=
  [⟨1, 0, ⟨.int8, .plain⟩⟩,
   ⟨247, 1, ⟨.enum, .enum fun i => if i = 1 then some [97] else none⟩⟩]

/-- A row whose ENUM has the number 2. -/
def unknownValue : RawImage := ⟨Slice.ofList [1, 2], fun _ => false⟩

/-- The second cell fails, and its column stays behind the others; the row
is in no counter. -/
theorem failing_cell_tears_buffer :
    Consistent [] (emptyBuffer [.int8, .string]) ∧
      ∃ f', appendRowFormatChanges {} enumCols sampleStamp 0 .insert [⟨unknownValue, unknownValue⟩]
          (emptyBuffer [.int8, .string]) = .error .enumValue f' ∧
        f'.buffer.action.length = 1 ∧ f'.buffer.fields.map (fun b => b.entries.length) = [1, 0] ∧
        f'.buffer.counters = {} ∧ ∀ events, ¬ Consistent events f' := by
  refine ⟨consistent_emptyBuffer _, _, rfl, rfl, rfl, rfl, fun events h => ?_⟩
  have hlen := h.1.fields { type := .string } (by decide)
  cases hlen

end MyDuck.RowCells
