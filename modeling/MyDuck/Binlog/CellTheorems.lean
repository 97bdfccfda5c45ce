/-
MyDuck.Binlog.CellTheorems — the length of a cell.

`CellLength` and `CellValue` compute the length of a cell in two switches.
`Reads len type` is what a decoder owes: with a builder of that type it
either fails, whatever the builder holds, or it reports the length that
`len` computed and appends one entry. One lemma for each kind of cell says
so, and the dispatch on the type byte puts them together. Only the
fraction of a TIMESTAMP2 or a DATETIME2 needs the metadata to be one that
MySQL writes: the two switches differ for more than six digits.
-/
import MyDuck.Binlog.Rbr

namespace MyDuck.Rbr

/-! ## What a decoder owes -/

/-- What a decoder does with every builder of one type: it fails in one
way, or it consumes one number of bytes, which is the one `len` computed,
and appends one entry. -/
inductive Reads (len : Decoded Int) (type : BuilderType)
    (f : Builder → Decoded (Nat × Builder)) : Prop where
  | fails (fault : CellFault) (h : ∀ b, b.type = type → f b = .error fault)
  | appends (n : Nat) (e : Entry) (hlen : len = .ok (n : Int))
      (h : ∀ b, b.type = type → f b = .ok (n, b.append e))

section Rules

variable {len : Decoded Int} {type : BuilderType} {α : Type}

theorem reads_error (fault : CellFault) : Reads len type (fun _ => .error fault) :=
  .fails fault fun _ _ => rfl

theorem reads_ok {n : Nat} (hlen : len = .ok (n : Int)) (e : Entry) :
    Reads len type (fun b => .ok (n, b.append e)) :=
  .appends n e hlen fun _ _ => rfl

/-- A step in front of the rest, which may use what the step gave. -/
theorem reads_bind {x : Decoded α} {f : α → Builder → Decoded (Nat × Builder)}
    (h : ∀ a, x = .ok a → Reads len type (f a)) :
    Reads len type (fun b => x >>= fun a => f a b) := by
  cases x with
  | error fault => exact reads_error fault
  | ok a => exact h a rfl

/-- The decoder is another one on the builders of the type. -/
theorem reads_congr {f g : Builder → Decoded (Nat × Builder)} (hg : Reads len type g)
    (hfg : ∀ b, b.type = type → f b = g b) : Reads len type f := by
  cases hg with
  | fails fault h => exact .fails fault fun b hb => by rw [hfg b hb, h b hb]
  | appends n e hlen h => exact .appends n e hlen fun b hb => by rw [hfg b hb, h b hb]

/-- The `Append` at the end of a decoder. -/
theorem reads_appendTo {n : Nat} (hlen : len = .ok (n : Int)) (t : BuilderType) (e : Entry) :
    Reads len type (fun b => appendTo t e b >>= fun b => pure (n, b)) := by
  by_cases ht : type = t
  · exact .appends n e hlen fun b hb => by rw [appendTo, if_pos (hb.trans ht)]; rfl
  · exact .fails .panic fun b hb => by rw [appendTo, if_neg (by rwa [hb])]; rfl

theorem reads_appendTime {n : Nat} (hlen : len = .ok (n : Int)) (t : Instant) :
    Reads len type (fun b => appendTime t b >>= fun b => pure (n, b)) := by
  cases type with
  | timestamp unit =>
    exact .appends n (.int (timestampFromTime t unit)) hlen fun b hb => by
      simp only [appendTime, hb]
      rfl
  | _ => exact .fails .panic fun b hb => by simp only [appendTime, hb]; rfl

end Rules

/-! ## The cells -/

section Cells

variable {data : Slice} {pos : Nat} {metadata : UInt16} {column : CellColumn}
  {type : BuilderType}

theorem integerCell_reads {size : Nat} (bytes : List UInt8) (s u : BuilderType) :
    Reads (.ok (size : Int)) type (integerCell size bytes column s u) := by
  unfold integerCell
  dsimp only
  split <;> exact reads_appendTo rfl _ _

theorem tinyCell_reads : Reads (.ok 1) type (tinyCell data pos column) :=
  reads_bind fun bytes _ => integerCell_reads bytes _ _

theorem yearCell_reads : Reads (.ok 1) type (yearCell data pos) :=
  reads_bind fun _ _ => reads_appendTo rfl _ _

theorem shortCell_reads : Reads (.ok 2) type (shortCell data pos column) :=
  reads_bind fun bytes _ => integerCell_reads bytes _ _

theorem int24Cell_reads : Reads (.ok 3) type (int24Cell data pos column) := by
  unfold int24Cell
  refine reads_bind fun bytes _ => ?_
  dsimp only
  split
  · exact reads_appendTo rfl _ _
  · by_cases ht : type = .int32 ∨ type = .uint32
    · exact reads_congr (reads_ok rfl _) fun b hb => if_pos (by rwa [hb])
    · exact reads_congr (reads_error (.error 0 (.unexpectedBuilder type))) fun b hb => by
        rw [if_neg (by rwa [hb]), hb]

theorem longCell_reads : Reads (.ok 4) type (longCell data pos column) :=
  reads_bind fun bytes _ => integerCell_reads bytes _ _

theorem longLongCell_reads : Reads (.ok 8) type (longLongCell data pos column) :=
  reads_bind fun bytes _ => integerCell_reads bytes _ _

theorem floatCell_reads (size : Nat) (t : BuilderType) :
    Reads (.ok (size : Int)) type (floatCell size t data pos) :=
  reads_bind fun _ _ => reads_appendTo rfl _ _

theorem bitCell_reads :
    Reads (.ok (bitBytes metadata : Int)) type (bitCell data pos metadata) := by
  unfold bitCell
  dsimp only
  split
  · exact reads_error _
  · exact reads_bind fun _ _ => reads_appendTo rfl _ _

theorem timestampCell_reads : Reads (.ok 4) type (timestampCell data pos) :=
  reads_bind fun _ _ => reads_appendTime rfl _

theorem dateCell_reads : Reads (.ok 3) type (dateCell data pos) :=
  reads_bind fun _ _ => reads_appendTo rfl _ _

theorem timeCell_reads : Reads (.ok 3) type (timeCell data pos) :=
  reads_bind fun _ _ => reads_appendTo rfl _ _

theorem dateTimeCell_reads : Reads (.ok 8) type (dateTimeCell data pos) :=
  reads_bind fun _ _ => reads_appendTime rfl _

/-- The bytes of a fraction, for as many digits as MySQL writes. -/
theorem fraction_size (hfsp : metadata.toNat ≤ 6) {r : Nat × Nat}
    (h : fraction data pos metadata = .ok r) : r.2 = (metadata.toNat + 1) / 2 := by
  have hread : ∀ (n : Nat) (f : Nat → Nat),
      ((orPanic (data.read? pos n) >>= fun bytes => pure (beNat bytes))
        >>= fun d => (pure (f d, n) : Decoded (Nat × Nat))) = .ok r → r.2 = n := by
    intro n f h
    cases hr : data.read? pos n with
    | none => rw [hr] at h; cases h
    | some bytes => rw [hr] at h; cases h; rfl
  rw [fraction] at h
  generalize metadata.toNat = m at hfsp h ⊢
  interval_cases m
  · cases h; rfl
  · exact hread 1 _ h
  · exact hread 1 _ h
  · exact hread 2 _ h
  · exact hread 2 _ h
  · exact hread 3 _ h
  · exact hread 3 _ h

theorem timestamp2Cell_reads (hfsp : metadata.toNat ≤ 6) :
    Reads (.ok ((4 + (metadata.toNat + 1) / 2 : Nat) : Int)) type
      (timestamp2Cell data pos metadata) := by
  refine reads_bind fun _ _ => reads_bind fun r hr => ?_
  rw [← fraction_size hfsp hr]
  exact reads_appendTime rfl _

theorem dateTime2Cell_reads (hfsp : metadata.toNat ≤ 6) :
    Reads (.ok ((5 + (metadata.toNat + 1) / 2 : Nat) : Int)) type
      (dateTime2Cell data pos metadata) := by
  refine reads_bind fun _ _ => reads_bind fun r hr => ?_
  rw [← fraction_size hfsp hr]
  exact reads_appendTime rfl _

theorem time2Cell_reads :
    Reads (.ok ((3 + (metadata.toNat + 1) / 2 : Nat) : Int)) type
      (time2Cell data pos metadata) :=
  reads_bind fun _ _ => reads_bind fun _ _ => reads_appendTo rfl _ _

theorem appendDecimal_reads {len : Decoded Int} {l : Nat} (hlen : len = .ok (l : Int))
    (isNegative : Bool) (coeff : Nat) :
    Reads len type (appendDecimal isNegative coeff l) := by
  have hfit : ∀ (bound : Nat) (num : Int), Reads len type
      (fun b => if coeff < bound then .ok (l, b.append (.int num)) else .error .panic) := by
    intro bound num
    split
    · exact reads_ok hlen _
    · exact reads_error _
  cases type with
  | decimal128 scale =>
    exact reads_congr (hfit (2 ^ 127) _) fun b hb => by
      simp only [appendDecimal, hb]
      rfl
  | decimal256 scale =>
    exact reads_congr (hfit (2 ^ 255) _) fun b hb => by
      simp only [appendDecimal, hb]
      rfl
  | _ =>
    exact reads_congr (reads_error _) fun b hb => by
      simp only [appendDecimal, hb]
      rfl

theorem decimalScale_reads {len : Decoded Int} {f : Int → Builder → Decoded (Nat × Builder)}
    (h : ∀ scale, Reads len type (f scale)) :
    Reads len type (fun b => decimalScale b >>= fun scale => f scale b) := by
  cases type with
  | decimal128 scale => exact reads_congr (h scale) fun b hb => by rw [decimalScale, hb]; rfl
  | decimal256 scale => exact reads_congr (h scale) fun b hb => by rw [decimalScale, hb]; rfl
  | _ => exact reads_congr (reads_error .panic) fun b hb => by rw [decimalScale, hb]; rfl

theorem newDecimalCell_reads :
    Reads (decimalLayout (highByte metadata) (lowByte metadata) >>= fun layout =>
      pure layout.length) type (newDecimalCell data pos metadata) := by
  refine reads_bind fun layout hlayout => ?_
  rw [hlayout]
  dsimp only
  split
  · exact reads_error _
  next hl =>
  have hlen : (Except.ok layout : Decoded DecimalLayout) >>= (fun layout => pure layout.length)
      = .ok ((layout.length.toNat : Nat) : Int) := by
    rw [Int.toNat_of_nonneg (by omega)]
    rfl
  refine reads_bind fun bytes _ => reads_bind fun signs _ => reads_bind fun first _ =>
    reads_bind fun full _ => ?_
  split
  · exact appendDecimal_reads hlen _ _
  · refine reads_bind fun frac _ => reads_bind fun last _ => decimalScale_reads fun scale => ?_
    split
    · exact reads_bind fun coeff _ => appendDecimal_reads hlen _ _
    · split
      · exact reads_error _
      · exact appendDecimal_reads hlen _ _

theorem decodeString_reads {len : Decoded Int} {size : Nat} (hlen : len = .ok (size : Int))
    (n : Nat) (src : List UInt8) :
    Reads len type (fun b => decodeString n src column >>= fun utf8str =>
      appendTo .string (.bytes utf8str) b >>= fun b => pure (size, b)) :=
  reads_bind fun _ _ => reads_appendTo hlen _ _

theorem varcharCell_reads :
    Reads (stringLength data pos (metadata > 255) >>= fun r =>
      pure ((r.2 + r.1 : Nat) : Int)) type (varcharCell data pos metadata column) := by
  refine reads_bind fun r hr => ?_
  rw [hr]
  refine reads_bind fun src _ => ?_
  split
  · exact reads_appendTo rfl _ _
  · exact decodeString_reads rfl _ _

theorem enumCell_reads :
    Reads (.ok (lowByte metadata : Int)) type (enumCell data pos metadata column) := by
  refine reads_bind fun bytes _ => ?_
  dsimp only
  split
  · split
    · exact reads_appendTo rfl _ _
    · exact reads_error _
  · exact reads_error _

theorem setCell_reads :
    Reads (.ok (lowByte metadata : Int)) type (setCell data pos metadata column) := by
  refine reads_bind fun bytes _ => ?_
  dsimp only
  split
  · split
    · exact reads_appendTo rfl _ _
    · exact reads_error _
  · exact reads_error _

theorem blobLength_congr {e e' : CellError} {l : Nat}
    (h : blobLength data pos metadata e = .ok l) : blobLength data pos metadata e' = .ok l := by
  rw [blobLength] at h
  split at h
  next hm => rw [blobLength, if_pos hm]; exact h
  · cases h

theorem jsonEntry_reads {len : Decoded Int} {size : Nat} (hlen : len = .ok (size : Int))
    (parse : List UInt8 → Option (List UInt8)) (src : List UInt8) :
    Reads len type (jsonEntry parse src size) :=
  reads_bind fun _ _ => reads_appendTo hlen _ _

theorem blobCell_reads (json : JsonParsers) (isJson : Bool) :
    Reads (blobLength data pos metadata (.blobMetadata metadata pos) >>= fun l =>
      pure ((metadata.toNat + l : Nat) : Int)) type
      (blobCell json isJson data pos metadata column) := by
  refine reads_bind fun l hl => ?_
  have hlen : (blobLength data pos metadata (.blobMetadata metadata pos) >>= fun l =>
      (pure ((metadata.toNat + l : Nat) : Int) : Decoded Int))
      = .ok ((l + metadata.toNat : Nat) : Int) := by
    rw [hl, Nat.add_comm l]
    rfl
  dsimp only
  split
  · exact reads_bind fun _ _ => jsonEntry_reads hlen _ _
  split
  · exact reads_bind fun _ _ => jsonEntry_reads hlen _ _
  -- the builder decides what a blob is
  cases type with
  | binary =>
    exact reads_congr (reads_bind fun src _ => reads_ok hlen (.bytes src)) fun b hb => by
      rw [hb]
      rfl
  | string =>
    exact reads_congr (reads_bind fun src _ => reads_bind fun utf8str _ =>
      reads_ok hlen (.bytes utf8str)) fun b hb => by rw [hb]; rfl
  | _ =>
    exact reads_congr (reads_error _) fun b hb => by
      simp only [hb]
      rfl

theorem geometryCell_reads :
    Reads (blobLength data pos metadata (.blobMetadata metadata pos) >>= fun l =>
      pure ((metadata.toNat + l : Nat) : Int)) type (geometryCell data pos metadata) := by
  refine reads_bind fun l hl => reads_bind fun src _ => reads_appendTo ?_ _ _
  rw [blobLength_congr hl, Nat.add_comm l]
  rfl

theorem charCell_reads :
    Reads (stringLength data pos (maxLength metadata > 255) >>= fun r =>
      pure ((r.2 + r.1 : Nat) : Int)) type (charCell data pos metadata column) := by
  refine reads_bind fun r hr => ?_
  rw [hr]
  refine reads_bind fun src _ => ?_
  dsimp only
  split
  · exact decodeString_reads rfl _ _
  by_cases ht : column.ftype.isBinary = true ∧ type = .binary
  · exact reads_congr (reads_ok rfl _) fun b hb => if_pos (by rwa [hb])
  · exact reads_congr (decodeString_reads rfl _ _) fun b hb => if_neg (by rwa [hb])

theorem stringCell_reads :
    Reads (if highByte metadata = FieldType.enum.byte.toNat ∨
        highByte metadata = FieldType.set.byte.toNat then .ok (lowByte metadata : Int)
      else stringLength data pos (maxLength metadata > 255) >>= fun r =>
        pure ((r.2 + r.1 : Nat) : Int)) type (stringCell data pos metadata column) := by
  unfold stringCell
  by_cases henum : highByte metadata = FieldType.enum.byte.toNat
  · simp only [if_pos (Or.inl henum), if_pos henum]
    exact enumCell_reads
  by_cases hset : highByte metadata = FieldType.set.byte.toNat
  · simp only [if_pos (Or.inr hset), if_neg henum, if_pos hset]
    exact setCell_reads
  · simp only [if_neg (not_or.mpr ⟨henum, hset⟩), if_neg henum, if_neg hset]
    exact charCell_reads

end Cells

/-! ## All types -/

/-- The metadata MySQL writes for a type: a fraction has at most six
digits. The metadata of the other types is not restricted here. -/
def Writable (typ : UInt8) (metadata : UInt16) : Prop :=
  typ = FieldType.timestamp2.byte ∨ typ = FieldType.dateTime2.byte → metadata.toNat ≤ 6

instance decidableWritable (typ : UInt8) (metadata : UInt16) :
    Decidable (Writable typ metadata) :=
  inferInstanceAs (Decidable (_ → _))

theorem byte_of_ofByte? {typ : UInt8} {t : FieldType} (h : FieldType.ofByte? typ = some t) :
    typ = t.byte := by
  have hbyte : t.byte = typ := by simpa using List.find?_some h
  exact hbyte.symm

/-- **The two switches agree**, for every type byte. -/
theorem cellValue_reads (json : JsonParsers) (data : Slice) (pos : Nat) (typ : UInt8)
    (metadata : UInt16) (column : CellColumn) (type : BuilderType) (h : Writable typ metadata) :
    Reads (cellLength data pos typ metadata) type
      (cellValue json data pos typ metadata column) := by
  unfold cellValue
  rw [cellLength]
  cases ht : FieldType.ofByte? typ with
  | none => exact reads_error _
  | some t =>
    have htyp := byte_of_ofByte? ht
    cases t with
    | decimal => exact reads_error _
    | tiny => exact tinyCell_reads
    | short => exact shortCell_reads
    | long => exact longCell_reads
    | float => exact floatCell_reads 4 _
    | double => exact floatCell_reads 8 _
    | null => exact reads_error _
    | timestamp => exact timestampCell_reads
    | longLong => exact longLongCell_reads
    | int24 => exact int24Cell_reads
    | date => exact dateCell_reads
    | time => exact timeCell_reads
    | dateTime => exact dateTimeCell_reads
    | year => exact yearCell_reads
    | newDate => exact dateCell_reads
    | varchar => exact varcharCell_reads
    | bit => exact bitCell_reads
    | timestamp2 => exact timestamp2Cell_reads (h (.inl htyp))
    | dateTime2 => exact dateTime2Cell_reads (h (.inr htyp))
    | time2 => exact time2Cell_reads
    | vector => exact blobCell_reads json false
    | json => exact blobCell_reads json true
    | newDecimal => exact newDecimalCell_reads
    | enum => exact enumCell_reads
    | set => exact setCell_reads
    | tinyBlob | mediumBlob | longBlob | blob => exact blobCell_reads json false
    | varString => exact varcharCell_reads
    | string => exact stringCell_reads
    | geometry => exact geometryCell_reads

/-- What a decoder does depends on the type of the builder only, whatever
the metadata is. -/
theorem cellValue_reads_some (json : JsonParsers) (data : Slice) (pos : Nat) (typ : UInt8)
    (metadata : UInt16) (column : CellColumn) (type : BuilderType) :
    ∃ len, Reads len type (cellValue json data pos typ metadata column) := by
  by_cases h : Writable typ metadata
  · exact ⟨_, cellValue_reads json data pos typ metadata column type h⟩
  -- more digits than MySQL writes: the fraction is not read
  simp only [Writable, Classical.not_imp, not_le] at h
  obtain ⟨htyp, hfsp⟩ := h
  have hfrac : ∀ pos, fraction data pos metadata = .ok (0, 0) := by
    intro pos
    rw [fraction]
    split <;> first | omega | rfl
  rcases htyp with rfl | rfl
  · refine ⟨.ok 4, reads_bind fun _ _ => ?_⟩
    simp only [hfrac]
    exact reads_appendTime rfl _
  · refine ⟨.ok 5, reads_bind fun _ _ => ?_⟩
    simp only [hfrac]
    exact reads_appendTime rfl _

end MyDuck.Rbr
