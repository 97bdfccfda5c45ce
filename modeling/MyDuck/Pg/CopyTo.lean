/-
MyDuck.Pg.CopyTo — COPY TO STDOUT (`handleCopyToStdout` in
`connection_handler.go`).

The writer produces a byte stream through a pipe. In text format the
reader takes lines from a buffered reader and sends the response header
with the first of them; in every other format it sends the header first
and then what the pipe gives, piece by piece.

`bufio.Reader.ReadSlice` returns a line with its line feed, and an error
when the buffer is full without one. At the end of the stream it returns
the bytes behind the last line feed together with io.EOF, and the loop
drops them. `copy_to_stdout_iff` says for which streams the client gets
the stream all the same.

What fails outside of the loop is part of the input: the start of the
writer, the opening of the pipe, a read, the writer itself. A failed reader
cancels the context, and both cases of the select then return an error.
Sending does not fail here.
-/
import MyDuck.Pg.CopyFrom

namespace MyDuck.CopyTo

open CopyFrom (Format)

inductive Message where
  | copyOutResponse (columns : Nat)
  | copyData (data : List UInt8)
  | copyDone
  | commandComplete (rows : Int)
  deriving DecidableEq, Repr

/-- What the writer and the pipe do. -/
structure Writer where
  /-- Everything in front of the reader succeeds. -/
  starts : Bool := true
  /-- The pipe is opened for reading. -/
  opens : Bool := true
  /-- `globalErr` is set by then. -/
  early : Bool := false
  /-- The stream, as `pipe.Read` gives it. -/
  reads : List (List UInt8)
  /-- The last read gives io.EOF, and not another error. -/
  eof : Bool := true
  /-- The row count, unless the writer fails. -/
  result : Option Int
  deriving DecidableEq, Repr

def Writer.stream (w : Writer) : List UInt8 := w.reads.flatten

/-- The size of the buffer of `bufio.NewReader`. -/
def bufferSize : Nat := 4096

/-- The slices that `ReadSlice('\n')` returns until it returns an error,
and whether that is `bufio.ErrBufferFull`. -/
def readSlices (buffered : List UInt8) : List UInt8 → List (List UInt8) × Bool
  | [] => ([], false)
  | b :: rest =>
    if b = 10 then
      let (lines, full) := readSlices [] rest
      ((buffered ++ [b]) :: lines, full)
    else if buffered.length + 1 = bufferSize then ([], true)
    else readSlices (buffered ++ [b]) rest

/-- The messages of the loop over the lines. -/
def sendLines : List (List UInt8) → List Message
  | [] => []
  | line :: lines => .copyOutResponse (line.count 9 + 1) :: (line :: lines).map .copyData

/-- The messages of the reader, and whether it ends without an error. -/
def readPipe (format : Format) (w : Writer) : List Message × Bool :=
  match format with
  | .text =>
    let (lines, full) := readSlices [] w.stream
    (sendLines lines, !full && w.eof)
  | _ => (.copyOutResponse 1 :: (w.reads.filter (· ≠ [])).map .copyData, w.eof)

/-- What is sent, and whether the handler returns nil. -/
def handleCopyToStdout (format : Format) (w : Writer) : List Message × Bool :=
  if !w.starts || !w.opens || w.early then ([], false)
  else
    let (sent, ok) := readPipe format w
    match w.result with
    | some rows => if ok then (sent ++ [.copyDone, .commandComplete rows], true) else (sent, false)
    | none => (sent, false)

/-! ## Delivery -/

def Delivered (stream : List UInt8) (sent : List Message) : Prop :=
  ∃ (columns : Nat) (payloads : List (List UInt8)) (rows : Int), payloads.flatten = stream ∧
    sent = .copyOutResponse columns :: payloads.map .copyData ++ [.copyDone, .commandComplete rows]

/-- When the handler returns nil, the client has got the stream. -/
def Unchanged (format : Format) (w : Writer) : Prop :=
  (handleCopyToStdout format w).2 = true → Delivered w.stream (handleCopyToStdout format w).1

/-- Something outside of the loop fails. -/
def Writer.Fails (w : Writer) : Prop :=
  w.starts = false ∨ w.opens = false ∨ w.early = true ∨ w.eof = false ∨ w.result = none

/-- A line, or what stands behind the last one, fills the buffer. -/
def LineTooLong (stream : List UInt8) : Prop :=
  ∃ l, l <:+: stream ∧ l.length = bufferSize ∧ 10 ∉ l

/-! ## Lines -/

/-- A list without the separator stands on one side of it. -/
theorem infix_of_not_mem {α : Type} {l a b : List α} {x : α} (h : l <:+: a ++ x :: b)
    (hx : x ∉ l) : l <:+: a ∨ l <:+: b := by
  obtain ⟨s, t, hst⟩ := h
  rcases List.append_eq_append_iff.mp hst with ⟨u, ha, -⟩ | ⟨u, hsl, hu⟩
  · exact .inl ⟨s, u, ha.symm⟩
  · cases u with
    | nil => exact .inl ⟨s, [], by simpa using hsl⟩
    | cons y u =>
      obtain ⟨rfl, hb⟩ := List.cons.inj hu
      rcases List.append_eq_append_iff.mp hsl with ⟨v, -, hl⟩ | ⟨v, -, hv⟩
      · exact absurd (by simp [hl]) hx
      · cases v with
        | nil =>
          have hl : x :: u = l := hv
          exact absurd (by simp [← hl]) hx
        | cons z v =>
          obtain ⟨-, hu'⟩ := List.cons.inj hv
          exact .inr ⟨v, t, by rw [hb, hu']; rfl⟩

/-- What the slices are: they end in a line feed, and what is left of the
stream has none. -/
theorem readSlices_lines (buffered stream : List UInt8) (hb : 10 ∉ buffered) :
    ∃ rest, buffered ++ stream = (readSlices buffered stream).1.flatten ++ rest ∧
      ((readSlices buffered stream).2 = false → 10 ∉ rest) ∧
      ∀ line ∈ (readSlices buffered stream).1, line.getLast? = some 10 := by
  induction stream generalizing buffered with
  | nil => exact ⟨buffered, by simp [readSlices], fun _ => hb, by simp [readSlices]⟩
  | cons b stream ih =>
    unfold readSlices
    split
    · next h =>
      obtain ⟨rest, heq, hrest, hlines⟩ := ih [] (by simp)
      refine ⟨rest, ?_, hrest, ?_⟩
      · simpa using heq
      · intro line hline
        rcases List.mem_cons.mp hline with rfl | hline
        · simp [h]
        · exact hlines line hline
    · next h =>
      split
      · exact ⟨buffered ++ b :: stream, by simp, by simp, by simp⟩
      · have hb' : 10 ∉ buffered ++ [b] := by
          simp only [List.mem_append, List.mem_singleton, not_or]
          exact ⟨hb, Ne.symm h⟩
        obtain ⟨rest, heq, hrest, hlines⟩ := ih (buffered ++ [b]) hb'
        exact ⟨rest, by simpa using heq, hrest, hlines⟩

/-- The buffer is full exactly when a line does not fit. -/
theorem readSlices_full_iff (buffered stream : List UInt8) (hb : 10 ∉ buffered)
    (hlen : buffered.length < bufferSize) :
    (readSlices buffered stream).2 = true ↔ LineTooLong (buffered ++ stream) := by
  induction stream generalizing buffered with
  | nil =>
    refine iff_of_false (by simp [readSlices]) ?_
    rintro ⟨l, hl, hlen', -⟩
    have := hl.length_le
    simp only [List.append_nil] at this
    omega
  | cons b stream ih =>
    unfold readSlices
    split
    · next h =>
      subst h
      rw [show (readSlices [] stream).2 = true ↔ LineTooLong stream from
        ih [] (by simp) (by simp [bufferSize])]
      constructor
      · rintro ⟨l, hl, hlen', hnot⟩
        exact ⟨l, hl.trans ⟨buffered ++ [10], [], by simp⟩, hlen', hnot⟩
      · rintro ⟨l, hl, hlen', hnot⟩
        rcases infix_of_not_mem hl hnot with hbuf | hrest
        · have := hbuf.length_le
          omega
        · exact ⟨l, hrest, hlen', hnot⟩
    · next h =>
      have hb' : 10 ∉ buffered ++ [b] := by
        simp only [List.mem_append, List.mem_singleton, not_or]
        exact ⟨hb, Ne.symm h⟩
      split
      · next hfull =>
        refine iff_of_true rfl ⟨buffered ++ [b], ⟨[], stream, by simp⟩, by simpa using hfull, hb'⟩
      · next hroom =>
        rw [ih (buffered ++ [b]) hb' (by simp; omega)]
        simp

/-! ## Which streams are delivered -/

theorem flatten_filter_ne_nil (reads : List (List UInt8)) :
    (reads.filter (· ≠ [])).flatten = reads.flatten := by
  induction reads with
  | nil => rfl
  | cons r reads ih =>
    cases r with
    | nil | cons b r => simpa using ih

/-- The handler returns nil when nothing fails. -/
theorem handleCopyToStdout_of_not_fails {w : Writer} (hw : ¬ w.Fails) (format : Format) :
    ∃ rows, handleCopyToStdout format w =
      if (readPipe format w).2 then
        ((readPipe format w).1 ++ [.copyDone, .commandComplete rows], true)
      else ((readPipe format w).1, false) := by
  simp only [Writer.Fails, not_or] at hw
  obtain ⟨hstarts, hopens, hearly, -, hresult⟩ := hw
  obtain ⟨rows, hrows⟩ := Option.ne_none_iff_exists'.mp hresult
  exact ⟨rows, by simp_all [handleCopyToStdout]⟩

theorem unchanged_of_fails {w : Writer} (hw : w.Fails) (format : Format) : Unchanged format w := by
  intro hnil
  exfalso
  unfold handleCopyToStdout at hnil
  split at hnil
  · cases hnil
  · next hstarts =>
    dsimp only at hnil
    have hread : (readPipe format w).2 = true → w.eof = true := by
      cases format <;> simp [readPipe]
    rcases hw with h | h | h | h | h
    · simp [h] at hstarts
    · simp [h] at hstarts
    · simp [h] at hstarts
    · split at hnil
      · split at hnil
        · next hok => simp [hread hok] at h
        · cases hnil
      · cases hnil
    · rw [h] at hnil
      cases hnil

/-- A format whose pieces are sent as they are read. -/
theorem unchanged_of_not_text {w : Writer} {format : Format} (hf : format ≠ .text) :
    Unchanged format w := by
  by_cases hw : w.Fails
  · exact unchanged_of_fails hw format
  · obtain ⟨rows, heq⟩ := handleCopyToStdout_of_not_fails hw format
    intro hnil
    have hread : (readPipe format w).1 =
        .copyOutResponse 1 :: (w.reads.filter (· ≠ [])).map .copyData := by
      cases format <;> first | rfl | exact absurd rfl hf
    rw [heq] at hnil ⊢
    split at hnil
    · next hok =>
      rw [if_pos hok, hread]
      exact ⟨1, w.reads.filter (· ≠ []), rows, flatten_filter_ne_nil w.reads, rfl⟩
    · cases hnil

/-- The text messages deliver the stream exactly when the lines are all of
it and there is one. -/
theorem delivered_lines_iff {stream rest : List UInt8} {lines : List (List UInt8)} {rows : Int}
    (hstream : stream = lines.flatten ++ rest) :
    Delivered stream (sendLines lines ++ [.copyDone, .commandComplete rows]) ↔
      lines ≠ [] ∧ rest = [] := by
  cases lines with
  | nil =>
    refine iff_of_false ?_ (by simp)
    rintro ⟨columns, payloads, rows', -, hsent⟩
    cases hsent
  | cons line lines =>
    constructor
    · rintro ⟨columns, payloads, rows', hpay, hsent⟩
      obtain ⟨-, htail⟩ := List.cons.inj hsent
      have hmap := (List.append_inj' htail rfl).1
      have hlines : line :: lines = payloads :=
        List.map_injective_iff.mpr (fun a b hab => Message.copyData.inj hab) hmap
      subst hlines
      refine ⟨by simp, ?_⟩
      rw [← hpay] at hstream
      exact List.self_eq_append_right.mp hstream
    · rintro ⟨-, rfl⟩
      exact ⟨_, line :: lines, rows, by simpa using hstream.symm, rfl⟩

/-- The lines are all of the stream, and there is one, when it ends in a
line feed. -/
theorem getLast?_lines_iff {rest : List UInt8} {lines : List (List UInt8)} (hrest : 10 ∉ rest)
    (hlines : ∀ line ∈ lines, line.getLast? = some 10) :
    (lines.flatten ++ rest).getLast? = some 10 ↔ lines ≠ [] ∧ rest = [] := by
  constructor
  · intro hlast
    have hnil : rest = [] := by
      by_contra hne
      rw [List.getLast?_append_of_ne_nil _ hne] at hlast
      exact hrest (List.mem_of_getLast? hlast)
    refine ⟨?_, hnil⟩
    rintro rfl
    simp [hnil] at hlast
  · rintro ⟨hne, rfl⟩
    obtain ⟨init, last, rfl⟩ := List.eq_nil_or_concat lines |>.resolve_left hne
    have hlast := hlines last (by simp)
    have hne' : last ≠ [] := by
      rintro rfl
      cases hlast
    simp [List.getLast?_append_of_ne_nil _ hne', hlast]

/-- The client gets the stream unchanged exactly when the format is not
text, when something fails outside of the loop, when a line does not fit
the buffer, or when the stream is not empty and ends in a line feed. -/
theorem copy_to_stdout_iff (format : Format) (w : Writer) :
    Unchanged format w ↔ format ≠ .text ∨ w.Fails ∨ LineTooLong w.stream ∨
      w.stream.getLast? = some 10 := by
  by_cases hf : format = .text
  · by_cases hw : w.Fails
    · exact iff_of_true (unchanged_of_fails hw format) (.inr (.inl hw))
    · subst hf
      obtain ⟨rows, heq⟩ := handleCopyToStdout_of_not_fails hw .text
      have heof : w.eof = true := by
        simp only [Writer.Fails, not_or] at hw
        simpa using hw.2.2.2.1
      have hfull := readSlices_full_iff [] w.stream (by simp) (by simp [bufferSize])
      obtain ⟨rest, hstream, hrest, hlines⟩ := readSlices_lines [] w.stream (by simp)
      rw [List.nil_append] at hfull hstream
      cases hslices : (readSlices [] w.stream).2 with
      | true =>
        have hread : (readPipe .text w).2 = false := by simp [readPipe, hslices]
        refine iff_of_true ?_ (.inr (.inr (.inl (hfull.mp hslices))))
        simp [Unchanged, heq, hread]
      | false =>
        have hread : readPipe .text w = (sendLines (readSlices [] w.stream).1, true) := by
          simp [readPipe, hslices, heof]
        have hlong : ¬ LineTooLong w.stream := fun h => by simp [hfull.mpr h] at hslices
        have hlast : w.stream.getLast? = some 10 ↔
            (readSlices [] w.stream).1 ≠ [] ∧ rest = [] := by
          have hiff := getLast?_lines_iff (hrest hslices) hlines
          rwa [← hstream] at hiff
        simp only [Unchanged, heq, hread, if_true, true_implies, hw, hlong, false_or, ne_eq,
          not_true, hlast]
        exact delivered_lines_iff hstream
  · exact iff_of_true (unchanged_of_not_text hf) (.inl hf)

/-- A result without rows, and one whose last line has no line feed. -/
theorem copy_to_stdout_drops :
    handleCopyToStdout .text { reads := [], result := some 0 } =
      ([.copyDone, .commandComplete 0], true) ∧
    ¬ Unchanged .text { reads := [], result := some 0 } ∧
    handleCopyToStdout .text { reads := [[49, 10, 50]], result := some 2 } =
      ([.copyOutResponse 1, .copyData [49, 10], .copyDone, .commandComplete 2], true) ∧
    ¬ Unchanged .text { reads := [[49, 10, 50]], result := some 2 } := by
  have hempty : handleCopyToStdout .text { reads := [], result := some 0 } =
      ([.copyDone, .commandComplete 0], true) := by decide
  have hlast : handleCopyToStdout .text { reads := [[49, 10, 50]], result := some 2 } =
      ([.copyOutResponse 1, .copyData [49, 10], .copyDone, .commandComplete 2], true) := by
    decide
  refine ⟨hempty, fun h => ?_, hlast, fun h => ?_⟩
  · obtain ⟨columns, payloads, rows, -, hsent⟩ := h (by rw [hempty])
    rw [hempty] at hsent
    cases hsent
  · obtain ⟨columns, payloads, rows, hpay, hsent⟩ := h (by rw [hlast])
    rw [hlast] at hsent
    rcases payloads with _ | ⟨p, _ | ⟨p', payloads⟩⟩
    · cases hsent
    · cases hsent
      cases hpay
    · cases hsent

end MyDuck.CopyTo
