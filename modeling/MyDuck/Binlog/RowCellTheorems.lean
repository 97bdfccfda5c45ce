/-
MyDuck.Binlog.RowCellTheorems — the positions of the cells of a row.
-/
import MyDuck.Binlog.RowCells

namespace MyDuck.RowCells

open MyDuck.Delta MyDuck.Rbr
open MyDuck.Binlog (TxnStamp)

/-! ## Where the cells start -/

/-- The lengths of the cells of an image that are not NULL, each taken
where the cells before it end. -/
def cellLengths (im : RawImage) : List CellSpec → Nat → Nat → Decoded (List Nat)
  | [], _, _ => .ok []
  | c :: cs, i, pos =>
    if im.isNull i then cellLengths im cs (i + 1) pos
    else do
      let n ← cellLength im.data pos c.typ c.metadata
      let ns ← cellLengths im cs (i + 1) (pos + n.toNat)
      return n.toNat :: ns

section Positions

variable {json : JsonParsers} {im : RawImage}

theorem cellValue_aligned {data : Slice} {pos : Nat} {typ : UInt8} {metadata : UInt16}
    {column : CellColumn} {b b' : Builder} {n : Nat} (hw : Writable typ metadata)
    (h : cellValue json data pos typ metadata column b = .ok (n, b')) :
    cellLength data pos typ metadata = .ok (n : Int) ∧ ∃ e, b' = b.append e := by
  cases cellValue_reads json data pos typ metadata column b.type hw with
  | fails fault hf => rw [hf b rfl] at h; cases h
  | appends m e hlen hf =>
    rw [hf b rfl] at h
    cases h
    exact ⟨hlen, e, rfl⟩

theorem map_eq_ok {ε σ τ : Type} {f : σ → τ} {o : Outcome ε σ} {t : τ} :
    o.map f = .ok t ↔ ∃ s, o = .ok s ∧ f s = t := by
  cases o <;> simp [Outcome.map]

/-- The loop over the first columns ends where their cells end. -/
theorem appendCells_position {cols : List CellSpec} (hw : ∀ c ∈ cols, Writable c.typ c.metadata)
    {bs bs' : List Builder} {i pos p : Nat}
    (h : appendCells json im cols bs i pos = .ok (p, bs')) :
    ∃ ns, cellLengths im cols i pos = .ok ns ∧ p = pos + ns.sum := by
  induction cols generalizing bs bs' i pos with
  | nil =>
    obtain ⟨rfl, -⟩ := Prod.mk.inj (Outcome.ok.inj h)
    exact ⟨[], rfl, rfl⟩
  | cons c cs ih =>
    have hcs : ∀ c ∈ cs, Writable c.typ c.metadata := fun c hc => hw c (List.mem_cons_of_mem _ hc)
    cases bs with
    | nil => cases h
    | cons b bs =>
      rw [appendCells] at h
      rw [cellLengths]
      split at h
      next hnull =>
        obtain ⟨⟨q, rest⟩, hrest, heq⟩ := map_eq_ok.mp h
        obtain ⟨rfl, -⟩ := Prod.mk.inj heq
        obtain ⟨ns, hns, hq⟩ := ih hcs hrest
        exact ⟨ns, by rw [if_pos hnull, hns], hq⟩
      next hnull =>
        split at h
        next n b' hcell =>
          obtain ⟨⟨q, rest⟩, hrest, heq⟩ := map_eq_ok.mp h
          obtain ⟨rfl, -⟩ := Prod.mk.inj heq
          obtain ⟨ns, hns, hq⟩ := ih hcs hrest
          have hlen := (cellValue_aligned (hw c List.mem_cons_self) hcell).1
          refine ⟨n :: ns, ?_, by rw [hq, List.sum_cons]; omega⟩
          rw [if_neg hnull, hlen]
          change (cellLengths im cs (i + 1) (pos + n) >>= fun ns => pure (n :: ns)) = .ok (n :: ns)
          rw [hns]
          rfl
        · cases h
        · cases h

/-- The loop over the columns is the loop over the first of them, and then
the loop over the others from the position reached. -/
theorem appendCells_append {pre post : List CellSpec} {bs bs' cs : List Builder} {i pos p : Nat}
    (hlen : bs.length = pre.length) (h : appendCells json im pre bs i pos = .ok (p, bs')) :
    appendCells json im (pre ++ post) (bs ++ cs) i pos
      = (appendCells json im post cs (i + pre.length) p).map fun r => (r.1, bs' ++ r.2) := by
  induction pre generalizing bs bs' i pos with
  | nil =>
    obtain rfl := List.length_eq_zero_iff.mp hlen
    obtain ⟨rfl, rfl⟩ := Prod.mk.inj (Outcome.ok.inj h)
    simp only [List.nil_append, List.length_nil, Nat.add_zero]
    cases appendCells json im post cs i pos <;> rfl
  | cons c pre ih =>
    cases bs with
    | nil => cases hlen
    | cons b bs =>
      have hlen' : bs.length = pre.length := by simpa using hlen
      have hnext : i + 1 + pre.length = i + (c :: pre).length := by
        rw [List.length_cons]; omega
      have hcomp : ∀ (x : Builder) (ys : List Builder) (o : Outcome CellError (Nat × List Builder)),
          (o.map fun r => (r.1, ys ++ r.2)).map (fun r => (r.1, x :: r.2))
            = o.map fun r => (r.1, x :: ys ++ r.2) := by
        intro x ys o
        cases o <;> rfl
      rw [appendCells] at h
      rw [List.cons_append, List.cons_append, appendCells]
      split at h
      next hnull =>
        obtain ⟨⟨q, rest⟩, hrest, heq⟩ := map_eq_ok.mp h
        obtain ⟨rfl, rfl⟩ := Prod.mk.inj heq
        rw [if_pos hnull, ih hlen' hrest, hnext, hcomp]
      next hnull =>
        rw [if_neg hnull]
        split at h
        next n b' hcell =>
          obtain ⟨⟨q, rest⟩, hrest, heq⟩ := map_eq_ok.mp h
          obtain ⟨rfl, rfl⟩ := Prod.mk.inj heq
          dsimp only
          rw [ih hlen' hrest, hnext, hcomp]
        · cases h
        · cases h

end Positions

/-- **Cell decoding stays aligned.** A cell that decodes has the length
that `CellLength` gives for the same arguments, and appends one entry; so
whenever the loop over a row gets to a cell, it starts that cell at the
sum of the lengths of the cells before it that are not NULL. -/
theorem cells_aligned (json : JsonParsers) (cols : List CellSpec)
    (hw : ∀ c ∈ cols, Writable c.typ c.metadata) :
    (∀ c ∈ cols, ∀ (data : Slice) (pos : Nat) (b b' : Builder) (n : Nat),
      cellValue json data pos c.typ c.metadata c.column b = .ok (n, b') →
        cellLength data pos c.typ c.metadata = .ok (n : Int) ∧ ∃ e, b' = b.append e) ∧
    ∀ (im : RawImage) (pre post : List CellSpec) (c : CellSpec) (bs bs' cs : List Builder)
      (p : Nat),
      cols = pre ++ c :: post → bs.length = pre.length →
      appendCells json im pre bs 0 0 = .ok (p, bs') →
        (∃ ns, cellLengths im pre 0 0 = .ok ns ∧ p = ns.sum) ∧
        appendCells json im cols (bs ++ cs) 0 0
          = (appendCells json im (c :: post) cs pre.length p).map fun r => (r.1, bs' ++ r.2) := by
  refine ⟨fun c hc data pos b b' n h => cellValue_aligned (hw c hc) h, ?_⟩
  intro im pre post c bs bs' cs p hcols hlen h
  subst hcols
  have hpre : ∀ c ∈ pre, Writable c.typ c.metadata := fun c hc =>
    hw c (List.mem_append_left _ hc)
  obtain ⟨ns, hns, hp⟩ := appendCells_position hpre h
  refine ⟨⟨ns, hns, by simpa using hp⟩, ?_⟩
  rw [appendCells_append hlen h, Nat.zero_add]

/-- A VARCHAR and two TINYINT columns. -/
def sampleCols : List CellSpec :=
  [⟨15, 40, ⟨.varchar, .string some⟩⟩, ⟨1, 0, ⟨.int8, .plain⟩⟩, ⟨1, 0, ⟨.int8, .plain⟩⟩]

def sampleBuilders : List Builder := [{ type := .string }, { type := .int8 }, { type := .int8 }]

/-- The row `('ab', NULL, 7)`. -/
def sampleImage : RawImage := ⟨Slice.ofList [2, 97, 98, 7], fun i => i = 1⟩

/-- The last cell of the row starts behind the three bytes of the first. -/
theorem cells_aligned_sample :
    ∃ ns, cellLengths sampleImage (sampleCols.take 2) 0 0 = .ok ns ∧ 3 = ns.sum := by
  have h := (cells_aligned {} sampleCols (by decide)).2 sampleImage (sampleCols.take 2) []
    ⟨1, 0, ⟨.int8, .plain⟩⟩ (sampleBuilders.take 2)
    [⟨.string, [.bytes [97, 98]]⟩, ⟨.int8, [.null]⟩] [] 3 rfl rfl rfl
  exact h.1

end MyDuck.RowCells
