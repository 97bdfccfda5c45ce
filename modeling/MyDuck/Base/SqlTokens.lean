/-
MyDuck.Base.SqlTokens — the tokens of an SQL text.

The lexer reads one character at a time: words, symbols, and texts in
single or double quotes, in which the quote itself is written twice. What
is never closed is a token of its own, so that every text has tokens, and
those in front of a place do not depend on what comes behind it.

`skips_escape` says that an escaped text is one token with that text as
its value. A text that was put between quotes as it is has this property
exactly when it has no quote in it (`literal_raw_iff`).
-/
import MyDuck.Base.Strings

namespace MyDuck.Sql

open Strings (singleQuote doubleQuote)

/-! ## The lexer -/

inductive Token where
  | word (text : List Char)
  | quoted (quote : Char) (text : List Char)
  | symbol (c : Char)
  | unterminated (quote : Char) (text : List Char)
  deriving DecidableEq, Repr

/-- What the lexer is reading; `closing` is behind a quote that may be the
end, or the first of two. -/
inductive Mode where
  | plain
  | word (text : List Char)
  | inside (quote : Char) (text : List Char)
  | closing (quote : Char) (text : List Char)
  deriving DecidableEq, Repr

def isQuote (c : Char) : Bool := c == singleQuote || c == doubleQuote

def isWordChar (c : Char) : Bool := c.isAlphanum || c == '_'

/-- A character that no token reads on with. -/
def start (c : Char) : List Token × Mode :=
  if isQuote c then ([], .inside c [])
  else if isWordChar c then ([], .word [c])
  else if c.isWhitespace then ([], .plain)
  else ([.symbol c], .plain)

/-- The tokens that are complete, and what is read next. -/
def step : Mode → Char → List Token × Mode
  | .plain, c => start c
  | .word text, c =>
    if isWordChar c then ([], .word (text ++ [c])) else (.word text :: (start c).1, (start c).2)
  | .inside q text, c => if c = q then ([], .closing q text) else ([], .inside q (text ++ [c]))
  | .closing q text, c =>
    if c = q then ([], .inside q (text ++ [q])) else (.quoted q text :: (start c).1, (start c).2)

def finish : Mode → List Token
  | .plain => []
  | .word text => [.word text]
  | .inside q text => [.unterminated q text]
  | .closing q text => [.quoted q text]

def lex : Mode → List Char → List Token
  | mode, [] => finish mode
  | mode, c :: cs => (step mode c).1 ++ lex (step mode c).2 cs

def tokens (sql : List Char) : List Token := lex .plain sql

/-- The tokens that are complete behind a text, and what is read then. -/
def feed : Mode → List Char → List Token × Mode
  | mode, [] => ([], mode)
  | mode, c :: cs =>
    ((step mode c).1 ++ (feed (step mode c).2 cs).1, (feed (step mode c).2 cs).2)

theorem lex_append (mode : Mode) (a b : List Char) :
    lex mode (a ++ b) = (feed mode a).1 ++ lex (feed mode a).2 b := by
  induction a generalizing mode with
  | nil => rfl
  | cons c a ih => simp [lex, feed, ih]

theorem feed_append (mode : Mode) (a b : List Char) :
    feed mode (a ++ b) =
      ((feed mode a).1 ++ (feed (feed mode a).2 b).1, (feed (feed mode a).2 b).2) := by
  induction a generalizing mode with
  | nil => rfl
  | cons c a ih => simp [feed, ih]

/-- A text leads from one mode to another and does not have the word. -/
def Skips (word : List Char) (mode : Mode) (text : List Char) (next : Mode) : Prop :=
  (feed mode text).2 = next ∧ .word word ∉ (feed mode text).1

instance (word : List Char) (mode : Mode) (text : List Char) (next : Mode) :
    Decidable (Skips word mode text next) :=
  inferInstanceAs (Decidable (_ ∧ _))

theorem Skips.append {word : List Char} {mode mode' next : Mode} {a b : List Char}
    (ha : Skips word mode a mode') (hb : Skips word mode' b next) :
    Skips word mode (a ++ b) next := by
  obtain ⟨rfl, hnota⟩ := ha
  obtain ⟨rfl, hnotb⟩ := hb
  rw [Skips, feed_append]
  exact ⟨rfl, by simp [hnota, hnotb]⟩

variable {q c : Char} {text : List Char}

/-- Another character than the quote ends the token. -/
theorem Skips.closing {word : List Char} (hc : c ≠ q) {next : Mode}
    (h : Skips word .plain (c :: text) next) (value : List Char) :
    Skips word (.closing q value) (c :: text) next := by
  obtain ⟨rfl, hnot⟩ := h
  constructor
  · simp [feed, step, hc]
  · simpa [feed, step, hc] using hnot

/-- The token behind the opening parenthesis of a call. -/
def firstArgument (function : List Char) : List Token → Option Token
  | [] => none
  | t :: ts =>
    if t = .word function ∧ ts.head? = some (.symbol '(') then ts.tail.head?
    else firstArgument function ts

theorem firstArgument_append {function : List Char} {front : List Token}
    (h : .word function ∉ front) (ts : List Token) :
    firstArgument function (front ++ ts) = firstArgument function ts := by
  induction front with
  | nil => rfl
  | cons t front ih =>
    have ht : t ≠ .word function := fun heq => h (heq ▸ List.mem_cons_self)
    simp [firstArgument, ht, ih fun hm => h (List.mem_cons_of_mem t hm)]

/-- What stands in front of a call does not matter. -/
theorem Skips.firstArgument_eq {function : List Char} {mode next : Mode} {front : List Char}
    (h : Skips function mode front next) (rest : List Char) :
    firstArgument function (lex mode (front ++ rest)) = firstArgument function (lex next rest) := by
  rw [lex_append, firstArgument_append h.2, h.1]

/-! ## Escaped texts -/

/-- Each quote is written twice. -/
def escape (q : Char) (text : List Char) : List Char :=
  text.flatMap fun c => if c = q then [q, q] else [c]

theorem feed_escape (q : Char) (text done : List Char) :
    feed (.inside q done) (escape q text) = ([], .inside q (done ++ text)) := by
  induction text generalizing done with
  | nil => simp [escape, feed]
  | cons c text ih =>
    have hcons : escape q (c :: text) = (if c = q then [q, q] else [c]) ++ escape q text := rfl
    rw [hcons]
    split
    · rename_i hc
      simp [feed, step, ih, hc]
    · rename_i hc
      simp [feed, step, ih, hc]

/-- **An escaped text** between quotes is one token. -/
theorem skips_escape (hq : isQuote q = true) (word text : List Char) :
    Skips word .plain (q :: (escape q text ++ [q])) (.closing q text) := by
  have hopen : feed .plain (q :: (escape q text ++ [q])) =
      feed (.inside q []) (escape q text ++ [q]) := by
    simp [feed, step, start, hq]
  rw [Skips, hopen, feed_append, feed_escape]
  simp [feed, step]

/-! ## Texts that are not escaped -/

/-- The value of a text up to the quote that closes it. -/
def literal (q : Char) : List Char → Option (List Char)
  | [] => none
  | [c] => if c = q then some [] else none
  | c :: d :: cs =>
    if c = q then (if d = q then (literal q cs).map (q :: ·) else some [])
    else (literal q (d :: cs)).map (c :: ·)

theorem head?_lex_of_literal {value : List Char} (h : literal q text = some value)
    (done : List Char) : (lex (.inside q done) text).head? = some (.quoted q (done ++ value)) := by
  fun_induction literal q text generalizing done value with
  | case1 => simp at h
  | case2 =>
    cases h
    simp [lex, step, finish]
  | case3 c hc => simp at h
  | case4 cs ih =>
    obtain ⟨rest, hrest, rfl⟩ := Option.map_eq_some_iff.mp h
    simp [lex, step, ih hrest]
  | case5 d cs hd =>
    cases h
    simp [lex, step, hd]
  | case6 c d cs hc ih =>
    obtain ⟨rest, hrest, rfl⟩ := Option.map_eq_some_iff.mp h
    have hnext := ih hrest (done ++ [c])
    simpa [lex, step, hc] using hnext

theorem head?_lex_of_open (h : literal q text = none) (done : List Char) :
    ∃ value, (lex (.inside q done) text).head? = some (.unterminated q value) := by
  fun_induction literal q text generalizing done with
  | case1 => exact ⟨done, rfl⟩
  | case2 => simp at h
  | case3 c hc => exact ⟨done ++ [c], by simp [lex, step, finish, hc]⟩
  | case4 cs ih =>
    obtain ⟨value, hvalue⟩ := ih (Option.map_eq_none_iff.mp h) (done ++ [q])
    exact ⟨value, by simpa [lex, step] using hvalue⟩
  | case5 d cs hd => simp at h
  | case6 c d cs hc ih =>
    obtain ⟨value, hvalue⟩ := ih (Option.map_eq_none_iff.mp h) (done ++ [c])
    exact ⟨value, by simpa [lex, step, hc] using hvalue⟩

/-- The first token behind a quote. -/
theorem head?_lex_inside_iff (text value : List Char) :
    (lex (.inside q []) text).head? = some (.quoted q value) ↔ literal q text = some value := by
  cases h : literal q text with
  | none =>
    obtain ⟨unclosed, hopen⟩ := head?_lex_of_open h []
    simp [hopen]
  | some found => simp [head?_lex_of_literal h []]

theorem literal_cons_of_ne (hc : c ≠ q) (cs : List Char) :
    literal q (c :: cs) = (literal q cs).map (c :: ·) := by
  cases cs with
  | nil | cons d cs => simp [literal, hc]

theorem literal_quote_quote (q : Char) (cs : List Char) :
    literal q (q :: q :: cs) = (literal q cs).map (q :: ·) := by
  simp [literal]

theorem literal_quote_of_ne {d : Char} (hd : d ≠ q) (cs : List Char) :
    literal q (q :: d :: cs) = some [] := by
  simp [literal, hd]

/-- A value with more quotes in front than were read is never reached. -/
theorem literal_ne_replicate_append (hc : c ≠ q) (rest text : List Char) (k : Nat) :
    literal q (text ++ q :: c :: rest) ≠ some (List.replicate (k + 1) q ++ text) := by
  -- two characters at a time: a pair of quotes gives one of the value, and
  -- so the value that is looked for gets ahead by one more
  induction text using List.twoStepInduction generalizing k with
  | nil =>
    rw [List.nil_append, literal_quote_of_ne hc]
    simp [List.replicate_succ]
  | singleton a =>
    rw [List.singleton_append]
    by_cases ha : a = q
    · subst ha
      rw [literal_quote_quote, literal_cons_of_ne hc]
      cases k <;> simp [List.replicate_succ, hc]
    · rw [literal_cons_of_ne ha]
      simp [List.replicate_succ, ha]
  | cons_cons a b text ih _ =>
    rw [List.cons_append, List.cons_append]
    by_cases ha : a = q
    · subst ha
      by_cases hb : b = a
      · subst hb
        have hshift : List.replicate (k + 1) b ++ b :: b :: text =
            b :: (List.replicate (k + 1 + 1) b ++ text) := by
          have htwo : b :: b :: text = List.replicate 2 b ++ text := rfl
          rw [htwo, ← List.append_assoc, List.replicate_append_replicate, ← List.cons_append,
            ← List.replicate_succ]
        rw [literal_quote_quote, hshift]
        intro h
        obtain ⟨value, hvalue, heq⟩ := Option.map_eq_some_iff.mp h
        exact ih (k + 1) (hvalue.trans (congrArg some (List.cons_inj_right b |>.mp heq)))
      · rw [literal_quote_of_ne hb]
        simp [List.replicate_succ]
    · rw [literal_cons_of_ne ha]
      simp [List.replicate_succ, ha]

/-- A text that begins with the quote is not its own value. -/
theorem literal_quote_ne (hc : c ≠ q) (rest text : List Char) :
    literal q (q :: (text ++ q :: c :: rest)) ≠ some (q :: text) := by
  cases text with
  | nil =>
    rw [List.nil_append, literal_quote_quote, literal_cons_of_ne hc]
    simp
  | cons a text =>
    rw [List.cons_append]
    by_cases ha : a = q
    · subst ha
      rw [literal_quote_quote]
      intro h
      obtain ⟨value, hvalue, heq⟩ := Option.map_eq_some_iff.mp h
      have hnext := literal_ne_replicate_append hc rest text 0
      exact hnext (hvalue.trans (congrArg some (List.cons_inj_right a |>.mp heq)))
    · rw [literal_quote_of_ne ha]
      simp

/-- **A text between quotes as it is** is its own value when it has no
quote in it, and only then. -/
theorem literal_raw_iff (hc : c ≠ q) (rest text : List Char) :
    literal q (text ++ q :: c :: rest) = some text ↔ q ∉ text := by
  induction text with
  | nil => simp [literal_quote_of_ne hc]
  | cons a text ih =>
    rw [List.cons_append]
    by_cases ha : a = q
    · subst ha
      simp [literal_quote_ne hc]
    · rw [literal_cons_of_ne ha, List.mem_cons, not_or, ← ih]
      simp [Ne.symm ha]

end MyDuck.Sql
