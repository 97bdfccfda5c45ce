/-
MyDuck.Pg.Lexer — the parts of a query text that PostgreSQL's lexical
rules and the rewriting of query texts have in common.

Behind `$tag$` a string goes on to the next `$tag$`. Block comments
nest.
-/
import MyDuck.Base.Scanner
import MyDuck.Base.Strings

namespace MyDuck.Lexical

/-! ## Parts of a text -/

/-- What was read, what is behind it, and whether its end was found. -/
structure Part where
  taken : List Char
  rest : List Char
  closed : Bool
  deriving DecidableEq, Repr

def Part.push (c : Char) (p : Part) : Part := { p with taken := c :: p.taken }

@[simp] theorem Part.push_taken (c : Char) (p : Part) : (p.push c).taken = c :: p.taken := rfl

@[simp] theorem Part.push_rest (c : Char) (p : Part) : (p.push c).rest = p.rest := rfl

@[simp] theorem Part.push_closed (c : Char) (p : Part) : (p.push c).closed = p.closed := rfl

/-- The rest of a block comment that is open `depth` times. -/
def blockRest : ℕ → List Char → Part
  | 0, cs => ⟨[], cs, true⟩
  | _ + 1, [] => ⟨[], [], false⟩
  | _ + 1, [c] => ⟨[c], [], false⟩
  | depth + 1, c :: d :: cs =>
    if c = '/' ∧ d = '*' then ((blockRest (depth + 2) cs).push d).push c
    else if c = '*' ∧ d = '/' then ((blockRest depth cs).push d).push c
    else (blockRest (depth + 1) (d :: cs)).push c

/-- The delimiter of a dollar quoted string, behind its first dollar. -/
def delimiter? (first other : Char → Bool) (cs : List Char) : Option (List Char) :=
  if (cs.takeWhile other).head?.all first ∧ (cs.dropWhile other).head? = some '$' then
    some ('$' :: cs.takeWhile other ++ ['$'])
  else none

/-- A text up to a delimiter that is taken to be `width` characters long. -/
def upTo (tag : List Char) (width : ℕ) : List Char → Part
  | [] => ⟨[], [], false⟩
  | c :: cs =>
    if width ≤ (c :: cs).length ∧ (c :: cs).take width = tag then
      ⟨tag, (c :: cs).drop width, true⟩
    else (upTo tag width cs).push c

/-! ## A text is its tokens in a row -/

theorem blockRest_text (depth : ℕ) (cs : List Char) :
    (blockRest depth cs).taken ++ (blockRest depth cs).rest = cs := by
  fun_induction blockRest depth cs <;> simp_all

theorem upTo_text (tag : List Char) (width : ℕ) (cs : List Char) :
    (upTo tag width cs).taken ++ (upTo tag width cs).rest = cs := by
  induction cs with
  | nil => rfl
  | cons c cs ih =>
    by_cases h : width ≤ (c :: cs).length ∧ (c :: cs).take width = tag
    · rw [upTo, if_pos h]
      show tag ++ (c :: cs).drop width = _
      rw [← h.2, List.take_append_drop]
    · rw [upTo, if_neg h]
      simpa using ih

theorem head_tail {d : Char} {cs : List Char} (h : cs.head? = some d) : d :: cs.tail = cs := by
  cases cs with
  | nil => simp at h
  | cons c cs => simpa using h.symm

theorem delimiter_eq {first other : Char → Bool} {cs tag : List Char}
    (h : delimiter? first other cs = some tag) :
    ∃ w r, tag = '$' :: w ++ ['$'] ∧ cs = w ++ '$' :: r ∧ (∀ c ∈ w, other c = true) ∧
      w.head?.all first = true := by
  unfold delimiter? at h
  split_ifs at h with hcond
  obtain rfl := Option.some.inj h
  refine ⟨cs.takeWhile other, (cs.dropWhile other).tail, rfl, ?_, fun c hc => ?_, hcond.1⟩
  · rw [head_tail hcond.2, List.takeWhile_append_dropWhile]
  · exact List.mem_takeWhile_imp hc

theorem delimiter_cuts {first other : Char → Bool} {cs tag : List Char}
    (h : delimiter? first other cs = some tag) : tag <+: '$' :: cs ∧ tag ≠ [] := by
  obtain ⟨w, r, rfl, rfl, -⟩ := delimiter_eq h
  exact ⟨⟨r, by simp⟩, by simp⟩

end MyDuck.Lexical
