/-
MyDuck.Pg.CopyDialect — the options of the COPY statements for DuckDB
(`NewDuckDataWriter` in `datawriter.go`, `buildSQL` and
`singleQuotedDuckChar` in `dataloader.go`).

A COPY statement of PostgreSQL in text or CSV format becomes a COPY
statement of DuckDB in CSV format. The delimiter and the NULL string are
written as the parser prints a string constant; of the quote and the escape
only the first rune is written, as `strconv.QuoteRune` prints it.

DuckDB reads the options again: `readOptions` is that reading. A text that
is printed for a clause either is read as the value that was asked for,
whatever stands behind it (`Reads`), or is read as something else, whatever
stands behind it (`Misreads`). `MyDuck.Pg.CopyDialectTheorems` puts the
clauses together.

What the code takes from libraries is a parameter, `Printing`: how the
parser writes a string constant that needs escapes, how DuckDB reads one,
and which runes are printable.
-/
import MyDuck.Backend.LoadData
import MyDuck.Pg.CopyOptions
import MyDuck.Pg.CopyFrom

namespace MyDuck.CopyDialect

open CopyOptions (Text)
open Strings (backslash)
open Strings renaming singleQuote → quote
open LoadData (quoteIdentifierANSI inQuotes)

/-! ## The libraries -/

/-- The parser writes such a constant between quotes as it is. -/
def Plain (s : Text) : Prop :=
  ∀ c ∈ s, 0x20 ≤ c.toNat ∧ c.toNat < 0x7F ∧ c ≠ quote ∧ c ≠ backslash

instance (s : Text) : Decidable (Plain s) :=
  inferInstanceAs (Decidable (∀ c ∈ s, _))

structure Printing where
  /-- A constant between `e'` and the quote behind it. -/
  encode : Text → Text
  /-- What DuckDB reads behind `e'`: the value, and the text behind the
  constant. -/
  decode : Text → Option (Text × Text)
  isPrint : Char → Bool
  decode_encode : ∀ s rest, rest.head? ≠ some quote →
    decode (encode s ++ quote :: rest) = some (s, rest)
  encode_head : ∀ s, ¬ Plain s → ∃ c w, encode s = c :: w ∧ c ≠ quote

/-- `String` of a string constant of the parser. -/
def Printing.constant (lib : Printing) (s : Text) : Text :=
  if Plain s then inQuotes s else 'e' :: quote :: (lib.encode s ++ [quote])

/-- `singleQuotedDuckChar`: the first rune, as `strconv.QuoteRune` writes
it. -/
def Printing.duckChar (lib : Printing) (s : Text) : Text :=
  LoadData.singleQuotedDuckChar lib.isPrint s

/-! ## The statements -/

/-- `tree.CopyOptions`. The constants are given by their values. -/
structure Options where
  copyFormat : CopyFrom.Format
  delimiter : Option Text := none
  null : Option Text := none
  hasHeader : Bool := false
  header : Bool := false
  quote : Option Text := none
  escape : Option Text := none
  deriving DecidableEq, Repr

section Statements

variable (lib : Printing)

def headerClause (o : Options) : Text :=
  ", HEADER ".toList ++ (if o.hasHeader && o.header then "true".toList else "false".toList)

/-- A clause that has a default in text format. -/
def clause (o : Options) (name : Text) (option : Option Text) (print : Text → Text)
    (default : Text) : Text :=
  match option with
  | some s => ", ".toList ++ name ++ ' ' :: print s
  | none => if o.copyFormat = .text then ", ".toList ++ name ++ ' ' :: default else []

def defaultDelimiter : Text := [backslash, 't']

def defaultNull : Text := [backslash, 'N']

/-- The clauses of `NewDuckDataWriter` behind FORMAT CSV. -/
def writerClauses (o : Options) : Text :=
  headerClause o ++
  clause o "DELIMITER".toList o.delimiter lib.constant (inQuotes defaultDelimiter) ++
  clause o "QUOTE".toList o.quote lib.duckChar (inQuotes []) ++
  clause o "ESCAPE".toList o.escape lib.duckChar (inQuotes []) ++
  -- the printed constant has its quotes already
  clause o "NULLSTR".toList o.null (fun s => inQuotes (lib.constant s)) (inQuotes defaultNull) ++
  ")".toList

/-- The clauses of `buildSQL` behind AUTO_DETECT. -/
def loaderClauses (o : Options) : Text :=
  headerClause o ++
  clause o "SEP".toList o.delimiter lib.constant (inQuotes defaultDelimiter) ++
  clause o "QUOTE".toList o.quote lib.duckChar (inQuotes []) ++
  clause o "ESCAPE".toList o.escape lib.duckChar (inQuotes []) ++
  clause o "NULLSTR".toList o.null lib.constant (inQuotes defaultNull) ++
  ")".toList

end Statements

/-! ## What DuckDB reads -/

inductive Key where
  | header
  | delimiter
  | quote
  | escape
  | null
  deriving DecidableEq, Repr

inductive Setting where
  | word (w : Text)
  | literal (s : Text)
  deriving DecidableEq, Repr

/-- SEP is another name of DELIMITER. -/
def keyOf (name : Text) : Option Key :=
  if name = "HEADER".toList then some .header
  else if name = "DELIMITER".toList ∨ name = "SEP".toList then some .delimiter
  else if name = "QUOTE".toList then some .quote
  else if name = "ESCAPE".toList then some .escape
  else if name = "NULLSTR".toList then some .null
  else none

/-- A literal behind its first quote: the value, and the text behind the
literal. A quote is written twice, a backslash is a character as any other. -/
def readLiteral : Text → Option (Text × Text)
  | [] => none
  | [c] => if c = quote then some ([], []) else none
  | c :: d :: cs =>
    if c = quote then
      if d = quote then (readLiteral cs).map fun p => (quote :: p.1, p.2) else some ([], d :: cs)
    else (readLiteral (d :: cs)).map fun p => (c :: p.1, p.2)

section Reading

variable (lib : Printing)

def readSetting (text : Text) : Option (Setting × Text) :=
  match text with
  | [] => none
  | c :: cs =>
    if c = quote then (readLiteral cs).map fun p => (.literal p.1, p.2)
    else if (c = 'e' ∨ c = 'E') ∧ cs.head? = some quote then
      (lib.decode cs.tail).map fun p => (.literal p.1, p.2)
    else if c.isAlpha then
      some (.word ((c :: cs).takeWhile Char.isAlpha), (c :: cs).dropWhile Char.isAlpha)
    else none

/-- The clauses up to the closing parenthesis. -/
def readClauses : ℕ → Text → Option (List (Key × Setting))
  | 0, _ => none
  | _ + 1, [] => none
  | n + 1, c :: cs =>
    if c = ')' then (if cs = [] then some [] else none)
    else if c = ',' ∧ cs.head? = some ' ' then
      (keyOf (cs.tail.takeWhile (· ≠ ' '))).bind fun key =>
        (readSetting lib (cs.tail.dropWhile (· ≠ ' ')).tail).bind fun p =>
          (readClauses n p.2).map ((key, p.1) :: ·)
    else none

def readOptions (text : Text) : Option (List (Key × Setting)) :=
  readClauses lib text.length text

end Reading

/-! ## What was asked for -/

/-- An option that has a default in text format. -/
def requestedOption (o : Options) (key : Key) (option : Option Text) (default : Text) :
    List (Key × Setting) :=
  match option with
  | some s => [(key, .literal s)]
  | none => if o.copyFormat = .text then [(key, .literal default)] else []

def requested (o : Options) : List (Key × Setting) :=
  (.header, .word (if o.hasHeader && o.header then "true".toList else "false".toList)) ::
    (requestedOption o .delimiter o.delimiter defaultDelimiter ++
      requestedOption o .quote o.quote [] ++ requestedOption o .escape o.escape [] ++
      requestedOption o .null o.null defaultNull)

/-- DuckDB reads the text and gives every option the value of the list, and
no value to the other ones. -/
def Assigns (lib : Printing) (text : Text) (values : List (Key × Setting)) : Prop :=
  ∃ settings, readOptions lib text = some settings ∧
    ∀ key, settings.lookup key = values.lookup key

/-- The writer and the loader give the options the values that were asked
for. -/
def SameDialect (lib : Printing) (o : Options) : Prop :=
  Assigns lib (writerClauses lib o) (requested o) ∧ Assigns lib (loaderClauses lib o) (requested o)

/-- An option that is missing, empty, or one character that Go prints as it
is between single quotes, or a backslash. -/
def Printable (lib : Printing) : Option Text → Prop
  | none => True
  | some [] => True
  | some [c] => c = backslash ∨ (c ≠ quote ∧ lib.isPrint c = true)
  | some _ => False

/-! ## Single values -/

/-- What stands behind a value. -/
def Delimited (rest : Text) : Prop := rest.head? = some ',' ∨ rest.head? = some ')'

theorem Delimited.head_ne_quote {rest : Text} (h : Delimited rest) : rest.head? ≠ some quote := by
  rcases h with h | h <;> rw [h] <;> decide

section Values

variable (lib : Printing)

/-- The text is read as the value, whatever stands behind it. -/
def Reads (text : Text) (value : Setting) : Prop :=
  ∀ rest, Delimited rest → readSetting lib (text ++ rest) = some (value, rest)

/-- The text is not read as the value, whatever stands behind it. -/
def Misreads (text : Text) (value : Setting) : Prop :=
  ∀ rest after, Delimited rest → readSetting lib (text ++ rest) ≠ some (value, after)

variable {lib}

variable {rest s : Text} {c : Char}

theorem Delimited.cons (h : Delimited rest) : ∃ c cs, rest = c :: cs ∧ (c = ',' ∨ c = ')') := by
  cases rest with
  | nil => simp [Delimited] at h
  | cons c cs => exact ⟨c, cs, rfl, by simpa [Delimited] using h⟩

theorem readLiteral_cons_of_ne (hc : c ≠ quote) (cs : Text) :
    readLiteral (c :: cs) = (readLiteral cs).map fun p => (c :: p.1, p.2) := by
  cases cs <;> simp [readLiteral, hc]

theorem readLiteral_quote (h : rest.head? ≠ some quote) :
    readLiteral (quote :: rest) = some ([], rest) := by
  cases rest with
  | nil => simp [readLiteral]
  | cons d cs =>
    have hd : d ≠ quote := by simpa using h
    simp [readLiteral, hd]

theorem readLiteral_doubled (rest : Text) :
    readLiteral (quote :: quote :: rest) = (readLiteral rest).map fun p => (quote :: p.1, p.2) := by
  simp [readLiteral]

theorem readLiteral_of_not_mem (hs : quote ∉ s) (h : rest.head? ≠ some quote) :
    readLiteral (s ++ quote :: rest) = some (s, rest) := by
  induction s with
  | nil => exact readLiteral_quote h
  | cons c s ih =>
    rw [List.mem_cons, not_or] at hs
    rw [List.cons_append, readLiteral_cons_of_ne (Ne.symm hs.1), ih hs.2]
    rfl

theorem readSetting_quote (cs : Text) :
    readSetting lib (quote :: cs) = (readLiteral cs).map fun p => (.literal p.1, p.2) := by
  simp [readSetting]

theorem inQuotes_append (s rest : Text) : inQuotes s ++ rest = quote :: (s ++ quote :: rest) := by
  have hquote : LoadData.inQuotes s = quote :: (s ++ [quote]) := rfl
  simp [hquote]

theorem readSetting_inQuotes (hs : quote ∉ s) (h : rest.head? ≠ some quote) :
    readSetting lib (inQuotes s ++ rest) = some (.literal s, rest) := by
  rw [inQuotes_append, readSetting_quote, readLiteral_of_not_mem hs h]
  rfl

theorem reads_inQuotes (hs : quote ∉ s) : Reads lib (inQuotes s) (.literal s) :=
  fun _ h => readSetting_inQuotes hs h.head_ne_quote

theorem misreads_inQuotes {t : Text} (hs : quote ∉ s) (hst : s ≠ t) :
    Misreads lib (inQuotes s) (.literal t) := by
  intro rest after h heq
  rw [readSetting_inQuotes hs h.head_ne_quote] at heq
  simp only [Option.some.injEq, Prod.mk.injEq, Setting.literal.injEq] at heq
  exact hst heq.1

/-- A word ends in front of what stands behind it. -/
theorem Delimited.word_ends (h : Delimited rest) :
    rest.takeWhile Char.isAlpha = [] ∧ rest.dropWhile Char.isAlpha = rest := by
  obtain ⟨d, ds, rfl, hd⟩ := h.cons
  rcases hd with rfl | rfl <;> simp

theorem reads_word {cs : Text} (hw : ∀ d ∈ c :: cs, d.isAlpha = true) (hc : c ≠ 'e' ∧ c ≠ 'E') :
    Reads lib (c :: cs) (.word (c :: cs)) := by
  intro rest h
  have halpha : c.isAlpha = true := hw c (by simp)
  have hquote : c ≠ quote := by
    rintro rfl
    exact absurd halpha (by decide)
  have htake : (c :: cs ++ rest).takeWhile Char.isAlpha = c :: cs := by
    rw [List.takeWhile_append_of_pos hw, h.word_ends.1, List.append_nil]
  have hdrop : (c :: cs ++ rest).dropWhile Char.isAlpha = rest := by
    rw [List.dropWhile_append_of_pos hw, h.word_ends.2]
  rw [List.cons_append] at htake hdrop ⊢
  simp [readSetting, hquote, hc, halpha, htake, hdrop]

/-! ### Constants of the parser -/

theorem Plain.quote_not_mem (h : Plain s) : quote ∉ s :=
  fun hs => (h quote hs).2.2.1 rfl

theorem plain_e : Plain ['e'] := by
  intro c hc
  rw [List.mem_singleton] at hc
  subst hc
  exact ⟨by decide, by decide, by decide, by decide⟩

theorem readSetting_escape (cs : Text) :
    readSetting lib ('e' :: quote :: cs) =
      (lib.decode cs).map fun p => (.literal p.1, p.2) := by
  have he : 'e' ≠ quote := by decide
  simp [readSetting, he]

theorem reads_constant (s : Text) : Reads lib (lib.constant s) (.literal s) := by
  by_cases hs : Plain s
  · rw [Printing.constant, if_pos hs]
    exact reads_inQuotes hs.quote_not_mem
  · intro rest h
    rw [Printing.constant, if_neg hs]
    have htext : 'e' :: quote :: (lib.encode s ++ [quote]) ++ rest =
        'e' :: quote :: (lib.encode s ++ quote :: rest) := by
      simp
    rw [htext, readSetting_escape, lib.decode_encode s rest h.head_ne_quote]
    rfl

/-- A constant that is put between quotes once more: the literal ends at the
first quote of the constant. -/
theorem misreads_quoted_constant (s : Text) :
    Misreads lib (inQuotes (lib.constant s)) (.literal s) := by
  intro rest after h heq
  rw [inQuotes_append, readSetting_quote] at heq
  obtain ⟨⟨value, behind⟩, hread, hvalue⟩ := Option.map_eq_some_iff.mp heq
  simp only [Prod.mk.injEq, Setting.literal.injEq] at hvalue
  obtain ⟨rfl, rfl⟩ := hvalue
  by_cases hs : Plain value
  · rw [Printing.constant, if_pos hs, inQuotes_append] at hread
    cases value with
    | nil =>
      -- two quotes stand for one
      rw [List.nil_append, readLiteral_doubled] at hread
      obtain ⟨p, -, hp⟩ := Option.map_eq_some_iff.mp hread
      simp at hp
    | cons c w =>
      have hc : c ≠ quote := (hs c (by simp)).2.2.1
      rw [readLiteral_quote (by simpa using hc)] at hread
      simp at hread
  · obtain ⟨c, w, hw, hc⟩ := lib.encode_head value hs
    rw [Printing.constant, if_neg hs, hw] at hread
    have he : 'e' ≠ quote := by decide
    simp only [List.cons_append] at hread
    rw [readLiteral_cons_of_ne he, readLiteral_quote (by simpa using hc)] at hread
    simp only [Option.map_some, Option.some.injEq, Prod.mk.injEq] at hread
    -- the value is the letter in front of the constant, which is plain
    exact hs (hread.1 ▸ plain_e)

/-! ### The first rune -/

theorem quote_not_mem_hexDigits (width n : ℕ) : quote ∉ LoadData.hexDigits width n := by
  intro h
  obtain ⟨i, -, hi⟩ := List.mem_map.mp h
  have hlt : n / 16 ^ i % 16 < 16 := Nat.mod_lt _ (by decide)
  generalize n / 16 ^ i % 16 = k at hi hlt
  revert hi
  interval_cases k <;> decide

/-- A rune that is not printable is written as a backslash and what has no
quote. -/
theorem quoteRune_of_not_print {isPrint : Char → Bool} (hquote : c ≠ quote) (hslash : c ≠ backslash)
    (hc : isPrint c = false) :
    ∃ w, LoadData.quoteRune isPrint c = inQuotes (backslash :: w) ∧ quote ∉ w := by
  have hcond : ¬ (c = quote ∨ c = backslash) := by
    rintro (h | h)
    · exact hquote h
    · exact hslash h
  rw [LoadData.quoteRune, if_neg hcond, if_neg (by simp [hc])]
  refine ⟨_, rfl, ?_⟩
  split
  all_goals first | decide | skip
  have hx : quote ≠ 'x' := by decide
  have hu : quote ≠ 'u' := by decide
  have hU : quote ≠ 'U' := by decide
  split_ifs
  · simp [hx, quote_not_mem_hexDigits]
  · simp [hu, quote_not_mem_hexDigits]
  · simp [hU, quote_not_mem_hexDigits]

theorem duckChar_cons (c : Char) (s : Text) : lib.duckChar (c :: s) =
    if c = backslash then inQuotes [backslash] else LoadData.quoteRune lib.isPrint c := rfl

theorem quoteRune_of_print {isPrint : Char → Bool} (hquote : c ≠ quote) (hslash : c ≠ backslash)
    (hc : isPrint c = true) : LoadData.quoteRune isPrint c = inQuotes [c] := by
  have hcond : ¬ (c = quote ∨ c = backslash) := by
    rintro (h | h)
    · exact hquote h
    · exact hslash h
  rw [LoadData.quoteRune, if_neg hcond, if_pos hc]

/-- The quote itself is written with a backslash in front of it, which is
none of DuckDB's escapes: the literal goes on behind it. -/
theorem readSetting_quoteRune_quote (isPrint : Char → Bool) (rest : Text) :
    readSetting lib (LoadData.quoteRune isPrint quote ++ rest) =
      (readLiteral rest).map fun p => (.literal (backslash :: quote :: p.1), p.2) := by
  have htext : LoadData.quoteRune isPrint quote = inQuotes [backslash, quote] := by
    rw [LoadData.quoteRune, if_pos (.inl rfl)]
  have hslash : backslash ≠ quote := by decide
  rw [htext, inQuotes_append, readSetting_quote, List.cons_append, List.singleton_append,
    readLiteral_cons_of_ne hslash, readLiteral_doubled]
  cases readLiteral rest <;> rfl

theorem reads_duckChar (hs : Printable lib (some s)) : Reads lib (lib.duckChar s) (.literal s) := by
  cases s with
  | nil => exact reads_inQuotes (List.not_mem_nil)
  | cons c s =>
    cases s with
    | cons d s => exact absurd hs id
    | nil =>
      rw [duckChar_cons]
      by_cases hc : c = backslash
      · subst hc
        rw [if_pos rfl]
        exact reads_inQuotes (by decide)
      · obtain ⟨hquote, hprint⟩ := hs.resolve_left hc
        rw [if_neg hc, quoteRune_of_print hquote hc hprint]
        exact reads_inQuotes (by simpa using Ne.symm hquote)

theorem misreads_duckChar (hs : ¬ Printable lib (some s)) :
    Misreads lib (lib.duckChar s) (.literal s) := by
  cases s with
  | nil => exact absurd trivial hs
  | cons c s =>
    rw [duckChar_cons]
    by_cases hslash : c = backslash
    · -- of a longer text the first rune is read
      subst hslash
      rw [if_pos rfl]
      refine misreads_inQuotes (by decide) ?_
      rintro heq
      exact hs ((List.cons.inj heq).2 ▸ Or.inl rfl)
    rw [if_neg hslash]
    by_cases hquote : c = quote
    · subst hquote
      intro rest after h heq
      rw [readSetting_quoteRune_quote] at heq
      obtain ⟨p, -, hp⟩ := Option.map_eq_some_iff.mp heq
      simp only [Prod.mk.injEq, Setting.literal.injEq, List.cons.injEq] at hp
      exact hslash hp.1.1.symm
    by_cases hprint : lib.isPrint c = true
    · rw [quoteRune_of_print hquote hslash hprint]
      refine misreads_inQuotes (by simpa using Ne.symm hquote) ?_
      intro heq
      exact hs ((List.cons.inj heq).2 ▸ Or.inr ⟨hquote, hprint⟩)
    · obtain ⟨w, hw, hmem⟩ := quoteRune_of_not_print hquote hslash (Bool.eq_false_iff.mpr hprint)
      rw [hw]
      have hfree : quote ∉ backslash :: w := by
        rw [List.mem_cons, not_or]
        exact ⟨by decide, hmem⟩
      refine misreads_inQuotes hfree ?_
      intro heq
      exact hslash (List.cons.inj heq).1.symm

end Values

end MyDuck.CopyDialect
