/-
MyDuck.Pg.Comments — `RemoveComments` of `pgserver/stmt.go`.

One pass over the runes of a query, with a branch for line comments, block
comments, strings, dollar quoted strings and quoted identifiers; what none
of them takes is copied. `pieces` is the pass, with what every round takes
its runes for, and `removeComments` is what it writes.

A string with a doubled quote in it is two rounds of the pass, one for
each of its halves.
-/
import MyDuck.Pg.Lexer

namespace MyDuck.Comments

open Lexical
open Strings (singleQuote doubleQuote backslash lineFeed)

/-- `unicode.IsLetter` and `unicode.IsDigit`. -/
structure Unicode where
  isLetter : Char → Bool
  isDigit : Char → Bool

/-- What a rune was taken for. -/
inductive Mark where
  | plain
  | lineComment
  | blockComment
  | string
  | dollarString
  | identifier
  deriving DecidableEq, Repr

structure Piece where
  mark : Mark
  text : List Char
  deriving DecidableEq, Repr

def plainPiece (c : Char) : Piece := ⟨.plain, [c]⟩

/-! ## The source -/

/-- Up to the line feed of a line comment. -/
def lineLoop : List Char → Part
  | [] => ⟨[], [], false⟩
  | c :: cs => if c = lineFeed then ⟨[c], cs, true⟩ else (lineLoop cs).push c

/-- Up to the next quote; in a string, with two runes for a backslash. -/
def quoteLoop (q : Char) (escapes : Bool) : List Char → Part
  | [] => ⟨[], [], false⟩
  | [c] => ⟨[c], [], c = q⟩
  | c :: d :: cs =>
    if c = q then ⟨[c], d :: cs, true⟩
    else if escapes ∧ c = backslash then ((quoteLoop q escapes cs).push d).push c
    else (quoteLoop q escapes (d :: cs)).push c

def stringLoop : List Char → Part := quoteLoop singleQuote true

def identifierLoop : List Char → Part := quoteLoop doubleQuote false

variable (u : Unicode)

def isTagRune (c : Char) : Bool := u.isLetter c || u.isDigit c || c == '_'

/-- The tag that the pass sees behind a dollar. -/
def tag? (c : Char) (cs : List Char) : Option (List Char) :=
  if c = '$' then delimiter? (fun _ => true) (isTagRune u) cs else none

/-- `len(tag)`, in bytes; the pass takes it for a number of runes. -/
def byteLength (tag : List Char) : ℕ := (tag.map Char.utf8Size).sum

/-- Up to the end of a dollar quoted string, behind its tag. -/
def dollarLoop (tag cs : List Char) : Part := upTo tag (byteLength tag) (cs.drop tag.length)

/-- One round of the pass. -/
def round (c : Char) (cs : List Char) : List Piece × List Char :=
  if c = '-' ∧ cs.head? = some '-' then
    ([⟨.lineComment, c :: '-' :: (lineLoop cs.tail).taken⟩], (lineLoop cs.tail).rest)
  else if c = '/' ∧ cs.head? = some '*' then
    ([⟨.blockComment, c :: '*' :: (blockRest 1 cs.tail).taken⟩], (blockRest 1 cs.tail).rest)
  else if c = singleQuote then ([⟨.string, c :: (stringLoop cs).taken⟩], (stringLoop cs).rest)
  else if c = 'E' ∧ cs.head? = some singleQuote then
    ([plainPiece c, ⟨.string, singleQuote :: (stringLoop cs.tail).taken⟩],
      (stringLoop cs.tail).rest)
  else
    match tag? u c cs with
    | some tag =>
      ([⟨.dollarString, tag ++ (dollarLoop tag (c :: cs)).taken⟩],
        (dollarLoop tag (c :: cs)).rest)
    | none =>
      if c = doubleQuote then
        ([⟨.identifier, c :: (identifierLoop cs).taken⟩], (identifierLoop cs).rest)
      else ([plainPiece c], cs)

/-- What is written for a piece; for a line comment its line feed, if it
has one. -/
def Piece.written (p : Piece) : List Char :=
  match p.mark with
  | .lineComment => if p.text.getLast? = some lineFeed then [lineFeed] else []
  | .blockComment => []
  | _ => p.text

theorem lineLoop_text (cs : List Char) : (lineLoop cs).taken ++ (lineLoop cs).rest = cs := by
  fun_induction lineLoop cs <;> simp_all

theorem quoteLoop_text (q : Char) (escapes : Bool) (cs : List Char) :
    (quoteLoop q escapes cs).taken ++ (quoteLoop q escapes cs).rest = cs := by
  fun_induction quoteLoop q escapes cs <;> simp_all

theorem stringLoop_text (cs : List Char) :
    (stringLoop cs).taken ++ (stringLoop cs).rest = cs :=
  quoteLoop_text _ _ cs

theorem identifierLoop_text (cs : List Char) :
    (identifierLoop cs).taken ++ (identifierLoop cs).rest = cs :=
  quoteLoop_text _ _ cs

variable {u} in
theorem tag_cuts {c : Char} {cs tag : List Char} (h : tag? u c cs = some tag) :
    tag <+: c :: cs ∧ tag ≠ [] := by
  unfold tag? at h
  split_ifs at h with hc
  rw [hc]
  exact delimiter_cuts h

theorem dollarLoop_text {tag cs : List Char} (h : tag <+: cs) :
    tag ++ (dollarLoop tag cs).taken ++ (dollarLoop tag cs).rest = cs := by
  obtain ⟨rest, rfl⟩ := h
  rw [dollarLoop, List.drop_left, List.append_assoc, upTo_text]

/-- The pieces of a round and what is behind them are the text. -/
theorem round_text (c : Char) (cs : List Char) :
    (round u c cs).1.flatMap Piece.text ++ (round u c cs).2 = c :: cs := by
  unfold round
  cases htag : tag? u c cs with
  | none =>
    dsimp only
    split_ifs with h1 h2 h3 h4 h5
    · simp [lineLoop_text, head_tail h1.2]
    · simp [blockRest_text, head_tail h2.2]
    · simp [stringLoop_text]
    · simp [stringLoop_text, plainPiece, head_tail h4.2]
    · simp [identifierLoop_text]
    · simp [plainPiece]
  | some tag =>
    dsimp only
    split_ifs with h1 h2 h3 h4
    · simp [lineLoop_text, head_tail h1.2]
    · simp [blockRest_text, head_tail h2.2]
    · simp [stringLoop_text]
    · simp [stringLoop_text, plainPiece, head_tail h4.2]
    · simpa using dollarLoop_text (tag_cuts htag).1

theorem round_nonempty (c : Char) (cs : List Char) : (round u c cs).1.flatMap Piece.text ≠ [] := by
  unfold round
  cases htag : tag? u c cs with
  | none => split_ifs <;> simp [plainPiece]
  | some tag => split_ifs <;> simp [plainPiece, (tag_cuts htag).2]

theorem length_rest_of_text {taken rest cs : List Char} {c : Char} (h : taken ++ rest = c :: cs)
    (hne : taken ≠ []) : rest.length ≤ cs.length := by
  have hlen := congrArg List.length h
  have hpos := List.length_pos_iff.mpr hne
  simp only [List.length_append, List.length_cons] at hlen
  omega

theorem round_shorter (c : Char) (cs : List Char) : (round u c cs).2.length ≤ cs.length :=
  length_rest_of_text (round_text u c cs) (round_nonempty u c cs)

/-- What the whole pass takes the text for. -/
def pieces (q : List Char) : List Piece :=
  (Scanner.scanAll (round u) (round_shorter u) q).flatten

def removeComments (q : List Char) : List Char := (pieces u q).flatMap Piece.written

@[simp] theorem pieces_nil : pieces u [] = [] := rfl

theorem pieces_cons (c : Char) (cs : List Char) :
    pieces u (c :: cs) = (round u c cs).1 ++ pieces u (round u c cs).2 := by
  rw [pieces, Scanner.scanAll_cons, List.flatten_cons]
  rfl

end MyDuck.Comments
