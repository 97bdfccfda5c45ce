/-
MyDuck.Pg.LeadingComments — `RemoveLeadingComments` of `pgserver/stmt.go`.

The function goes over the bytes of a query and drops the white space and
the comments in front of it. `RemoveComments` (MyDuck.Pg.Comments) goes over
the runes, drops the comments everywhere and copies the white space. On the
leading part the two do the same, round by round, so taking the leading
comments away first changes at most the white space in front
(`removeComments_removeLeadingComments`).
-/
import MyDuck.Base.GoText
import MyDuck.Base.Utf8
import MyDuck.Pg.Comments

namespace MyDuck.Comments

open GoText Lexical Utf8
open Strings (lineFeed)

/-! ## The source -/

/-- `unicode.IsSpace` of a byte that is taken for a rune. -/
def isSpaceByte (b : UInt8) : Bool :=
  (0x09 ≤ b && b ≤ 0x0d) || b == 0x20 || b == 0x85 || b == 0xa0

/-- The bytes behind the first line feed, if there is one. -/
def behindLine : List UInt8 → Option (List UInt8)
  | [] => none
  | b :: bs => if b = byte lineFeed then some bs else behindLine bs

/-- The bytes behind a block comment that is open `nestLevel` times, if it
ends. -/
def behindBlock : Nat → List UInt8 → Option (List UInt8)
  | 0, bs => some bs
  | _ + 1, [] => none
  | _ + 1, [_] => none
  | nestLevel + 1, b :: d :: bs =>
    if b = byte '/' ∧ d = byte '*' then behindBlock (nestLevel + 2) bs
    else if b = byte '*' ∧ d = byte '/' then behindBlock nestLevel bs
    else behindBlock (nestLevel + 1) (d :: bs)

/-- The loop; `fuel` is the most rounds there can be. -/
def skipLeading : Nat → List UInt8 → List UInt8
  | 0, query => query
  | _ + 1, [] => []
  | fuel + 1, b :: bs =>
    if b = byte '-' ∧ bs.head? = some (byte '-') then
      match behindLine bs.tail with
      | none => []
      | some rest => skipLeading fuel rest
    else if b = byte '/' ∧ bs.head? = some (byte '*') then
      match behindBlock 1 bs.tail with
      | none => []
      | some rest => skipLeading fuel rest
    else if isSpaceByte b then skipLeading fuel bs
    else b :: bs

def removeLeadingComments (query : List UInt8) : List UInt8 := skipLeading query.length query

/-! ## Bytes and runes -/

theorem behindLine_append {bs : List UInt8} (h : byte lineFeed ∉ bs) (rest : List UInt8) :
    behindLine (bs ++ rest) = behindLine rest := by
  induction bs with
  | nil => rfl
  | cons b bs ih =>
    rw [List.mem_cons, not_or] at h
    rw [List.cons_append, behindLine, if_neg (Ne.symm h.1), ih h.2]

/-- What the loops find in the bytes is what they find in the runes. -/
def Part.behind (p : Part) : Option (List UInt8) := if p.closed then some (encode p.rest) else none

@[simp] theorem behind_push (p : Part) (c : Char) : Part.behind (p.push c) = Part.behind p := rfl

theorem behindLine_encode (cs : List Char) :
    behindLine (encode cs) = Part.behind (lineLoop cs) := by
  induction cs with
  | nil => rfl
  | cons c cs ih =>
    rw [lineLoop]
    by_cases hc : c.toNat < 0x80
    · rw [encode_ascii hc, behindLine]
      by_cases hfeed : c = lineFeed
      · rw [if_pos (congrArg byte hfeed), if_pos hfeed]
        rfl
      · rw [if_neg fun h => hfeed ((byte_inj hc (by decide)).mp h), if_neg hfeed, ih, behind_push]
    · have hfeed : c ≠ lineFeed := fun h => hc (h ▸ by decide)
      rw [encode_cons, behindLine_append (byte_not_mem_high (by decide) (Nat.le_of_not_lt hc)),
        if_neg hfeed, ih, behind_push]

theorem behindBlock_append {bs : List UInt8} (hslash : byte '/' ∉ bs) (hstar : byte '*' ∉ bs)
    (nestLevel : Nat) (rest : List UInt8) :
    behindBlock (nestLevel + 1) (bs ++ rest) = behindBlock (nestLevel + 1) rest := by
  induction bs with
  | nil => rfl
  | cons b bs ih =>
    rw [List.mem_cons, not_or] at hslash hstar
    have hrest := ih hslash.2 hstar.2
    cases hbs : bs ++ rest with
    | nil =>
      obtain ⟨rfl, rfl⟩ := List.append_eq_nil_iff.mp hbs
      rfl
    | cons d ds =>
      rw [List.cons_append, hbs, behindBlock, if_neg fun h => hslash.1 h.1.symm,
        if_neg fun h => hstar.1 h.1.symm, ← hbs, hrest]

theorem behindBlock_encode (nestLevel : Nat) (cs : List Char) :
    behindBlock nestLevel (encode cs) = Part.behind (blockRest nestLevel cs) := by
  have hslash : '/'.toNat < 0x80 := by decide
  have hstar : '*'.toNat < 0x80 := by decide
  have hhigh : ∀ {c : Char}, ¬ c.toNat < 0x80 → ∀ depth rest,
      behindBlock (depth + 1) (encode (c :: rest)) = behindBlock (depth + 1) (encode rest) :=
    fun hc depth rest => behindBlock_append (byte_not_mem_high hslash (Nat.le_of_not_lt hc))
      (byte_not_mem_high hstar (Nat.le_of_not_lt hc)) depth (encode rest)
  fun_induction blockRest nestLevel cs with
  | case1 cs => simp [behindBlock, Part.behind]
  | case2 => rfl
  | case3 depth c =>
    by_cases hc : c.toNat < 0x80
    · rw [encode_ascii hc]
      rfl
    · rw [hhigh hc]
      rfl
  | case4 depth c d cs hopen ih =>
    obtain ⟨rfl, rfl⟩ := hopen
    rw [encode_ascii hslash, encode_ascii hstar, behindBlock, if_pos ⟨rfl, rfl⟩, ih, behind_push,
      behind_push]
  | case5 depth c d cs hopen hclose ih =>
    obtain ⟨rfl, rfl⟩ := hclose
    have hne : byte '*' ≠ byte '/' := by decide
    rw [encode_ascii hstar, encode_ascii hslash, behindBlock, if_neg fun h => hne h.1,
      if_pos ⟨rfl, rfl⟩, ih, behind_push, behind_push]
  | case6 depth c d cs hopen hclose ih =>
    rw [behind_push, ← ih]
    by_cases hc : c.toNat < 0x80
    · -- the byte behind it is a star or a slash when the rune is
      obtain ⟨e, es, hes⟩ : ∃ e es, encode (d :: cs) = e :: es := by
        obtain ⟨e, es, hes⟩ := List.exists_cons_of_ne_nil (String.utf8EncodeChar_ne_nil (c := d))
        exact ⟨e, es ++ encode cs, by rw [encode_cons, hes]; rfl⟩
      have hhead : ∀ {a : Char}, a.toNat < 0x80 → e = byte a → d = a := fun ha he => by
        have hiff := head_encode_eq_byte_iff ha (d :: cs)
        rw [hes, he] at hiff
        simpa using hiff
      rw [encode_ascii hc, hes, behindBlock,
        if_neg fun h => hopen ⟨(byte_inj hc hslash).mp h.1, hhead hstar h.2⟩,
        if_neg fun h => hclose ⟨(byte_inj hc hstar).mp h.1, hhead hslash h.2⟩]
    · rw [hhigh hc]

/-! ## Round by round -/

/-- `strings.TrimLeftFunc` with `unicode.IsSpace`. -/
def trimLeft (s : List Char) : List Char := s.dropWhile unicodeSpace

theorem trimLeft_append {w : List Char} (h : ∀ c ∈ w, unicodeSpace c = true) (s : List Char) :
    trimLeft (w ++ s) = trimLeft s := by
  rw [trimLeft, List.dropWhile_append_of_pos h]
  rfl

variable (u : Unicode)

theorem removeComments_cons (c : Char) (cs : List Char) :
    removeComments u (c :: cs) =
      (round u c cs).1.flatMap Piece.written ++ removeComments u (round u c cs).2 := by
  rw [removeComments, pieces_cons, List.flatMap_append]
  rfl

theorem rest_of_not_closed_line {cs : List Char} (h : (lineLoop cs).closed = false) :
    (lineLoop cs).rest = [] := by
  fun_induction lineLoop cs with
  | case1 => rfl
  | case2 cs => simp at h
  | case3 c cs hc ih => exact ih h

theorem rest_of_not_closed_block {depth : Nat} {cs : List Char}
    (h : (blockRest depth cs).closed = false) : (blockRest depth cs).rest = [] := by
  fun_induction blockRest depth cs with
  | case1 => simp at h
  | case2 => rfl
  | case3 => rfl
  | case4 depth c d cs hopen ih => exact ih h
  | case5 depth c d cs hopen hclose ih => exact ih h
  | case6 depth c d cs hopen hclose ih => exact ih h

/-- What is written for a line comment is white space. -/
theorem trimLeft_lineComment (text s : List Char) :
    trimLeft (Piece.written ⟨.lineComment, text⟩ ++ s) = trimLeft s := by
  refine trimLeft_append (fun c hc => ?_) s
  simp only [Piece.written] at hc
  split_ifs at hc with hlast
  · obtain rfl := List.mem_singleton.mp hc
    decide
  · simp at hc

theorem isSpaceByte_byte {c : Char} (h : c.toNat < 0x80) :
    isSpaceByte (byte c) = unicodeSpace c := by
  have hall : ∀ n < 0x80, isSpaceByte (UInt8.ofNat n) =
      ((0x09 ≤ n && n ≤ 0x0d) || (0x2000 ≤ n && n ≤ 0x200a) ||
        [0x20, 0x85, 0xa0, 0x1680, 0x2028, 0x2029, 0x202f, 0x205f, 0x3000].contains n) := by
    decide
  exact hall c.toNat h

theorem isSpaceByte_high {c : Char} (h : 0x80 ≤ c.toNat) {b : UInt8} {bs rest : List UInt8}
    (hb : String.utf8EncodeChar c ++ rest = b :: bs) : isSpaceByte b = false := by
  obtain ⟨e, es, heq, hlow, -⟩ := utf8EncodeChar_high h
  rw [heq] at hb
  obtain ⟨rfl, -⟩ := List.cons.inj hb
  have hne : ∀ n : UInt8, n.toNat < 0xC0 → (e == n) = false := fun n hn => by
    rw [beq_eq_false_iff_ne]
    rintro rfl
    omega
  have hle : ¬ e ≤ 0x0d := fun h => by
    have hnat : e.toNat ≤ 13 := UInt8.le_iff_toNat_le.mp h
    omega
  simp [isSpaceByte, hle, hne 0x20 (by decide), hne 0x85 (by decide), hne 0xa0 (by decide)]

theorem round_space {c : Char} (h : unicodeSpace c = true) (cs : List Char) :
    round u c cs = ([plainPiece c], cs) := by
  have hne : ∀ {d : Char}, unicodeSpace d = false → c ≠ d := fun hd hcd => by
    rw [hcd, hd] at h
    exact Bool.noConfusion h
  have htag : tag? u c cs = none := by
    rw [tag?, if_neg (hne (by decide))]
  rw [round, if_neg fun hc => hne (by decide) hc.1, if_neg fun hc => hne (by decide) hc.1,
    if_neg (hne (by decide)), if_neg fun hc => hne (by decide) hc.1, htag]
  exact if_neg (hne (by decide))

theorem skipLeading_line (fuel : Nat) (cs : List Char) :
    skipLeading (fuel + 1) (encode ('-' :: '-' :: cs)) =
      ((Part.behind (lineLoop cs)).map (skipLeading fuel)).getD [] := by
  have hdash : '-'.toNat < 0x80 := by decide
  rw [encode_ascii hdash, encode_ascii hdash, skipLeading, if_pos ⟨rfl, rfl⟩, List.tail_cons,
    behindLine_encode]
  cases Part.behind (lineLoop cs) <;> rfl

theorem skipLeading_block (fuel : Nat) (cs : List Char) :
    skipLeading (fuel + 1) (encode ('/' :: '*' :: cs)) =
      ((Part.behind (blockRest 1 cs)).map (skipLeading fuel)).getD [] := by
  have hne : byte '/' ≠ byte '-' := by decide
  rw [encode_ascii (by decide), encode_ascii (by decide), skipLeading, if_neg fun h => hne h.1,
    if_pos ⟨rfl, rfl⟩, List.tail_cons, behindBlock_encode]
  cases Part.behind (blockRest 1 cs) <;> rfl

theorem skipLeading_other (fuel : Nat) {c : Char} {cs : List Char}
    (hline : ¬ (c = '-' ∧ cs.head? = some '-')) (hblock : ¬ (c = '/' ∧ cs.head? = some '*')) :
    skipLeading (fuel + 1) (encode (c :: cs)) =
      if c.toNat < 0x80 ∧ unicodeSpace c = true then skipLeading fuel (encode cs)
      else encode (c :: cs) := by
  by_cases hc : c.toNat < 0x80
  · have hpair : ∀ {a b : Char}, a.toNat < 0x80 → b.toNat < 0x80 → ¬ (c = a ∧ cs.head? = some b) →
        ¬ (byte c = byte a ∧ (encode cs).head? = some (byte b)) := fun ha hb hnot h =>
      hnot ⟨(byte_inj hc ha).mp h.1, (head_encode_eq_byte_iff hb cs).mp h.2⟩
    rw [encode_ascii hc, skipLeading, if_neg (hpair (by decide) (by decide) hline),
      if_neg (hpair (by decide) (by decide) hblock), isSpaceByte_byte hc]
    simp [hc]
  · obtain ⟨b, bs, hbytes⟩ : ∃ b bs, encode (c :: cs) = b :: bs := by
      obtain ⟨b, bs, hb, -⟩ := utf8EncodeChar_high (Nat.le_of_not_lt hc)
      exact ⟨b, bs ++ encode cs, by rw [encode_cons, hb]; rfl⟩
    have hfirst : ∀ {a : Char}, a.toNat < 0x80 → b ≠ byte a := fun ha hb => by
      have hiff := head_encode_eq_byte_iff ha (c :: cs)
      rw [hbytes, hb] at hiff
      obtain rfl : c = _ := by simpa using hiff
      exact hc ha
    rw [hbytes, skipLeading, if_neg fun h => hfirst (by decide) h.1,
      if_neg fun h => hfirst (by decide) h.1, isSpaceByte_high (Nat.le_of_not_lt hc) hbytes]
    simp [hc]

/-- What is left behind a comment is short enough. -/
theorem length_encode_le_of_text {taken rest cs : List Char} (h : taken ++ rest = cs) :
    (encode rest).length ≤ (encode cs).length := by
  rw [← h, encode_append, List.length_append]
  exact Nat.le_add_left _ _

/-- **The loop over the bytes** goes along with the pass over the runes. -/
theorem skipLeading_encode (fuel : Nat) (q : List Char) (hfuel : (encode q).length ≤ fuel) :
    ∃ q', skipLeading fuel (encode q) = encode q' ∧
      trimLeft (removeComments u q) = trimLeft (removeComments u q') := by
  induction fuel generalizing q with
  | zero => exact ⟨q, rfl, rfl⟩
  | succ fuel ih =>
    cases q with
    | nil => exact ⟨[], rfl, rfl⟩
    | cons c cs =>
      -- behind a comment the two go on at the same place, or both are at the end
      have hcomment : ∀ {p : Part} {ds : List Char}, p.taken ++ p.rest = ds →
          (p.closed = false → p.rest = []) → (encode ds).length ≤ fuel →
          skipLeading (fuel + 1) (encode (c :: cs)) =
            ((Part.behind p).map (skipLeading fuel)).getD [] →
          trimLeft (removeComments u (c :: cs)) = trimLeft (removeComments u p.rest) →
          ∃ q', skipLeading (fuel + 1) (encode (c :: cs)) = encode q' ∧
            trimLeft (removeComments u (c :: cs)) = trimLeft (removeComments u q') := by
        intro p ds htext hopen hlength hskip hremove
        rw [hskip, hremove]
        cases hclosed : p.closed with
        | true =>
          simp only [Part.behind, hclosed, if_true, Option.map_some, Option.getD_some]
          exact ih p.rest ((length_encode_le_of_text htext).trans hlength)
        | false =>
          rw [hopen hclosed]
          exact ⟨[], by simp [Part.behind, hclosed], rfl⟩
      by_cases hline : c = '-' ∧ cs.head? = some '-'
      · obtain ⟨rfl, hhead⟩ := hline
        obtain ⟨ds, rfl⟩ : ∃ ds, cs = '-' :: ds := ⟨_, (head_tail hhead).symm⟩
        rw [encode_ascii (by decide), encode_ascii (by decide)] at hfuel
        simp only [List.length_cons] at hfuel
        refine hcomment (lineLoop_text ds) rest_of_not_closed_line (by omega)
          (skipLeading_line fuel ds) ?_
        rw [removeComments_cons, round, if_pos ⟨rfl, rfl⟩, List.flatMap_singleton]
        exact trimLeft_lineComment _ _
      · by_cases hblock : c = '/' ∧ cs.head? = some '*'
        · obtain ⟨rfl, hhead⟩ := hblock
          obtain ⟨ds, rfl⟩ : ∃ ds, cs = '*' :: ds := ⟨_, (head_tail hhead).symm⟩
          rw [encode_ascii (by decide), encode_ascii (by decide)] at hfuel
          simp only [List.length_cons] at hfuel
          refine hcomment (blockRest_text 1 ds) rest_of_not_closed_block (by omega)
            (skipLeading_block fuel ds) ?_
          rw [removeComments_cons, round, if_neg hline, if_pos ⟨rfl, rfl⟩]
          rfl
        · rw [skipLeading_other fuel hline hblock]
          split_ifs with hspace
          · rw [encode_ascii hspace.1] at hfuel
            obtain ⟨q', hskip, hq'⟩ := ih cs (by simpa using hfuel)
            refine ⟨q', hskip, ?_⟩
            rw [removeComments_cons, round_space u hspace.2, ← hq']
            exact trimLeft_append (by simpa [plainPiece, Piece.written] using hspace.2) _
          · exact ⟨c :: cs, rfl, rfl⟩

/-- **The two strippers agree**: for every text in UTF-8, what is left
without its leading comments is such a text, and `RemoveComments` makes the
same of both, but for white space in front. -/
theorem removeComments_removeLeadingComments (u : Unicode) (q : List Char) :
    (decode (removeLeadingComments (encode q))).map (fun q' => trimLeft (removeComments u q')) =
      some (trimLeft (removeComments u q)) := by
  obtain ⟨q', hskip, hq'⟩ := skipLeading_encode u (encode q).length q le_rfl
  rw [removeLeadingComments, hskip, decode_encode, hq']
  rfl

end MyDuck.Comments
