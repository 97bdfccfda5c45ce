/-
MyDuck.Base.Quoting — the quoted tokens of a text.

A dialect says which characters open a quoted token, of which kind, and
what a backslash in it stands for. A token ends at the character that
opened it, and that character twice stands for itself. What is outside
of quotes is a token for each character, so that two texts with the same
tokens have the same quoted tokens at the same places between the same
characters.
-/
import MyDuck.Base.Strings
import MyDuck.Base.Transducer

namespace MyDuck.Quoting

open Strings (backslash)

inductive Kind where
  | string
  | identifier
  deriving DecidableEq, Repr

inductive Token where
  | quoted (kind : Kind) (value : List Char)
  | plain (c : Char)
  deriving DecidableEq, Repr

structure Dialect where
  /-- The kind of token that a character opens. -/
  opens : Char → Option Kind
  /-- A backslash in the tokens of this quote escapes. -/
  escapes : Char → Bool
  /-- What an escaped character stands for. -/
  value : Char → List Char

/-- What is being read: `escaped` is behind a backslash, and `closing`
behind a quote that is the end, or the first of two. -/
inductive Mode where
  | outside
  | inside (kind : Kind) (quote : Char) (value : List Char)
  | escaped (kind : Kind) (quote : Char) (value : List Char)
  | closing (kind : Kind) (quote : Char) (value : List Char)
  deriving DecidableEq, Repr

/-- A text may not end inside of quotes. -/
def Mode.finish : Mode → Option (List Token)
  | .outside => some []
  | .inside _ _ _ => none
  | .escaped _ _ _ => none
  | .closing kind _ v => some [.quoted kind v]

namespace Dialect

variable (d : Dialect)

/-- A character that no quoted token reads on with. -/
def start (c : Char) : Mode × List Token :=
  match d.opens c with
  | some kind => (.inside kind c [], [])
  | none => (.outside, [.plain c])

def step : Mode → Char → Mode × List Token
  | .outside, c => d.start c
  | .inside kind q v, c =>
    if c = q then (.closing kind q v, [])
    else if d.escapes q ∧ c = backslash then (.escaped kind q v, [])
    else (.inside kind q (v ++ [c]), [])
  | .escaped kind q v, c => (.inside kind q (v ++ d.value c), [])
  | .closing kind q v, c =>
    if c = q then (.inside kind q (v ++ [q]), [])
    else ((d.start c).1, .quoted kind v :: (d.start c).2)

def lexer : Transducer Mode Char Token where
  step := d.step
  finish := Mode.finish

def tokens (text : List Char) : Option (List Token) := d.lexer.output .outside text

end Dialect

/-- The kind and the value so far of the quoted token that is read. -/
def Mode.token? : Mode → Option (Kind × List Char)
  | .outside => none
  | .inside kind _ v => some (kind, v)
  | .escaped kind _ v => some (kind, v)
  | .closing kind _ v => some (kind, v)

variable {d : Dialect}

/-- A step inside of a quoted token reads on in it, or ends it. -/
theorem token_step {mode : Mode} {kind : Kind} {v : List Char}
    (h : mode.token? = some (kind, v)) (c : Char) :
    (∃ w, (d.step mode c).1.token? = some (kind, v ++ w) ∧ (d.step mode c).2 = []) ∨
      ∃ ts, (d.step mode c).2 = .quoted kind v :: ts := by
  cases mode with
  | outside => simp [Mode.token?] at h
  | inside k q u =>
    obtain ⟨rfl, rfl⟩ : k = kind ∧ u = v := by simpa [Mode.token?] using h
    left
    by_cases hq : c = q
    · exact ⟨[], by simp [Dialect.step, Mode.token?, hq]⟩
    · by_cases he : d.escapes q = true ∧ c = backslash
      · exact ⟨[], by rw [Dialect.step, if_neg hq, if_pos he]; simp [Mode.token?]⟩
      · exact ⟨[c], by simp [Dialect.step, Mode.token?, hq, he]⟩
  | escaped k q u =>
    obtain ⟨rfl, rfl⟩ : k = kind ∧ u = v := by simpa [Mode.token?] using h
    exact .inl ⟨d.value c, rfl, rfl⟩
  | closing k q u =>
    obtain ⟨rfl, rfl⟩ : k = kind ∧ u = v := by simpa [Mode.token?] using h
    by_cases hq : c = q
    · exact .inl ⟨[q], by simp [Dialect.step, Mode.token?, hq]⟩
    · exact .inr ⟨(d.start c).2, by simp [Dialect.step, hq]⟩

/-- Inside of quotes, the next token begins with what was read of it. -/
theorem head_of_token {mode : Mode} {kind : Kind} {v : List Char}
    (h : mode.token? = some (kind, v)) {cs : List Char} {ts : List Token}
    (hts : d.lexer.output mode cs = some ts) :
    ∃ w us, ts = .quoted kind (v ++ w) :: us := by
  induction cs generalizing mode v ts with
  | nil =>
    cases mode with
    | closing k q u =>
      obtain ⟨rfl, rfl⟩ : k = kind ∧ u = v := by simpa [Mode.token?] using h
      obtain rfl : [.quoted k u] = ts := by simpa [Dialect.lexer, Mode.finish] using hts
      exact ⟨[], [], by simp⟩
    | outside => simp [Mode.token?] at h
    | inside | escaped => simp [Dialect.lexer, Mode.finish] at hts
  | cons c cs ih =>
    rw [Transducer.output_cons] at hts
    obtain ⟨us, hus, rfl⟩ := Option.map_eq_some_iff.mp hts
    rcases token_step (d := d) h c with ⟨w, hmode, hwritten⟩ | ⟨written, hwritten⟩
    · obtain ⟨w', rest, rfl⟩ := ih hmode hus
      refine ⟨w ++ w', rest, ?_⟩
      show (d.step mode c).2 ++ _ = _
      rw [hwritten, List.nil_append, List.append_assoc]
    · refine ⟨[], written ++ us, ?_⟩
      show (d.step mode c).2 ++ us = _
      rw [hwritten, List.append_nil, List.cons_append]

end MyDuck.Quoting
