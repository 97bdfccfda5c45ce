/-
MyDuck.Transpiler.Converter — MySQL quotes as PostgreSQL quotes.

`normalizeStrings` is `NormalizeStrings` of `transpiler/converter.go`: one
pass over the text with seven states and a flag for a backslash. A string
in either of MySQL's quotes becomes one in single quotes, an identifier in
backticks becomes one in double quotes.

Read with each side's own rules, the tokens stay the same for every text
along `Keeps`, that is, unless

* a backslash stands for another character than the one behind it: the
  code drops the backslash and writes that character;
* an identifier has a double quote in it, which is written as it is and
  so ends the identifier;
* a quoted token has another kind of quote directly behind it: the code
  writes that quote as it is, stays outside of quotes, and reads the rest
  inside out.

In the first two cases, and in the third one behind a string, the tokens
do change (`normalized_tokens`). Behind an identifier they may come out
right, because the text read inside out can be the same text.
-/
import MyDuck.Base.Quoting

namespace MyDuck.Transpiler

open Quoting
open Quoting.Dialect (lexer step start)
open Strings (singleQuote doubleQuote backtick backslash)
open Transducer (feed next_of_step output_andThen output_cons output_of_silent)

/-! ## The source -/

inductive StringParserState where
  | notInString
  | inDoubleQuote
  | maybeEndDoubleQuote
  | inSingleQuote
  | maybeEndSingleQuote
  | inBackticks
  | maybeEndBackticks
  deriving DecidableEq, Repr

@[simp] theorem quotes_ne :
    (singleQuote ≠ doubleQuote ∧ singleQuote ≠ backtick ∧ singleQuote ≠ backslash) ∧
    (doubleQuote ≠ singleQuote ∧ doubleQuote ≠ backtick ∧ doubleQuote ≠ backslash) ∧
    (backtick ≠ singleQuote ∧ backtick ≠ doubleQuote ∧ backtick ≠ backslash) ∧
    (backslash ≠ singleQuote ∧ backslash ≠ doubleQuote ∧ backslash ≠ backtick) := by
  decide

structure Parser where
  state : StringParserState
  lastCharWasBackslash : Bool
  deriving DecidableEq, Repr

/-- One round of the loop, and what it writes. -/
def Parser.step (p : Parser) (c : Char) : Parser × List Char :=
  match p.state with
  | .notInString =>
    if c = singleQuote then ({ p with state := .inSingleQuote }, [singleQuote])
    else if c = doubleQuote then ({ p with state := .inDoubleQuote }, [singleQuote])
    else if c = backtick then ({ p with state := .inBackticks }, [doubleQuote])
    else (p, [c])
  | .inDoubleQuote =>
    if c = backslash then
      ({ p with lastCharWasBackslash := !p.lastCharWasBackslash },
        if p.lastCharWasBackslash then [c] else [])
    else if c = doubleQuote then
      if p.lastCharWasBackslash then ({ p with lastCharWasBackslash := false }, [c])
      else ({ p with state := .maybeEndDoubleQuote }, [])
    else if c = singleQuote then
      ({ p with lastCharWasBackslash := false }, [singleQuote, singleQuote])
    else ({ p with lastCharWasBackslash := false }, [c])
  | .maybeEndDoubleQuote =>
    if c = doubleQuote then ({ p with state := .inDoubleQuote }, [doubleQuote])
    else ({ p with state := .notInString }, [singleQuote, c])
  | .inSingleQuote =>
    if c = backslash then
      ({ p with lastCharWasBackslash := !p.lastCharWasBackslash },
        if p.lastCharWasBackslash then [c] else [])
    else if c = singleQuote then
      if p.lastCharWasBackslash then ({ p with lastCharWasBackslash := false }, [c, c])
      else ({ p with state := .maybeEndSingleQuote }, [])
    else ({ p with lastCharWasBackslash := false }, [c])
  | .maybeEndSingleQuote =>
    if c = singleQuote then ({ p with state := .inSingleQuote }, [singleQuote, singleQuote])
    else ({ p with state := .notInString }, [singleQuote, c])
  | .inBackticks =>
    if c = backtick then ({ p with state := .maybeEndBackticks }, []) else (p, [c])
  | .maybeEndBackticks =>
    if c = backtick then ({ p with state := .inBackticks }, [backtick])
    else ({ p with state := .notInString }, [doubleQuote, c])

/-- What is written behind the loop, when the end of a quote was unsure. -/
def Parser.finish (p : Parser) : List Char :=
  match p.state with
  | .maybeEndDoubleQuote => [singleQuote]
  | .maybeEndSingleQuote => [singleQuote]
  | .maybeEndBackticks => [doubleQuote]
  | _ => []

def normalizer : Transducer Parser Char Char where
  step := Parser.step
  finish p := some p.finish

def Parser.start : Parser := { state := .notInString, lastCharWasBackslash := false }

def normalizeStrings (q : List Char) : List Char := (normalizer.output .start q).getD []

theorem output_normalizer (p : Parser) (q : List Char) :
    normalizer.output p q = some ((normalizer.output p q).getD []) := by
  induction q generalizing p with
  | nil => rfl
  | cons c q ih => rw [output_cons, ih]; rfl

/-! ## The two dialects -/

/-- The characters that a backslash turns into others, in a MySQL string. -/
def mysqlEscape (c : Char) : List Char :=
  if c = '0' then [Char.ofNat 0]
  else if c = 'n' then [Char.ofNat 10]
  else if c = 't' then [Char.ofNat 9]
  else if c = 'b' then [Char.ofNat 8]
  else if c = 'r' then [Char.ofNat 13]
  else if c = 'Z' then [Char.ofNat 26]
  else if c = '%' ∨ c = '_' then [backslash, c]
  else [c]

def mysql : Dialect where
  opens c :=
    if c = singleQuote ∨ c = doubleQuote then some .string
    else if c = backtick then some .identifier
    else none
  escapes q := q ≠ backtick
  value := mysqlEscape

/-- Standard strings, and identifiers in double quotes. -/
def postgres : Dialect where
  opens c :=
    if c = singleQuote then some .string
    else if c = doubleQuote then some .identifier
    else none
  escapes _ := false
  value c := [c]

variable {c : Char} {cs : List Char} {ts : List Token}

theorem mysql_opens_none :
    mysql.opens c = none ↔ c ≠ singleQuote ∧ c ≠ doubleQuote ∧ c ≠ backtick := by
  by_cases h1 : c = singleQuote ∨ c = doubleQuote
  · have : ¬(c ≠ singleQuote ∧ c ≠ doubleQuote ∧ c ≠ backtick) := fun h => by
      rcases h1 with h1 | h1
      · exact h.1 h1
      · exact h.2.1 h1
    simp [mysql, h1, this]
  · by_cases h2 : c = backtick
    · simp [mysql, h2]
    · simp [mysql, h2, not_or.mp h1]

/-- An escape that does not stand for its character begins with another
one. -/
theorem mysqlEscape_head (h : mysqlEscape c ≠ [c]) : ∃ d w, mysqlEscape c = d :: w ∧ d ≠ c := by
  unfold mysqlEscape at h ⊢
  split_ifs at h ⊢ with h0 h1 h2 h3 h4 h5 h6
  · subst h0
    exact ⟨_, [], rfl, by decide⟩
  · subst h1
    exact ⟨_, [], rfl, by decide⟩
  · subst h2
    exact ⟨_, [], rfl, by decide⟩
  · subst h3
    exact ⟨_, [], rfl, by decide⟩
  · subst h4
    exact ⟨_, [], rfl, by decide⟩
  · subst h5
    exact ⟨_, [], rfl, by decide⟩
  · refine ⟨backslash, [c], rfl, ?_⟩
    rcases h6 with rfl | rfl
    · decide
    · decide
  · exact absurd rfl h

/-! ## In step -/

/-- A step of the MySQL lexer whose character the code treats as MySQL
does. -/
def Keeps : Mode → Char → Prop
  | .outside, _ => True
  | .inside kind _ _, c => kind = .identifier → c ≠ doubleQuote
  | .escaped _ _ _, c => mysqlEscape c = [c]
  | .closing _ q _, c => c = q ∨ mysql.opens c = none

instance decidableKeeps : ∀ mode c, Decidable (Keeps mode c)
  | .outside, _ => isTrue trivial
  | .inside kind _ _, c => inferInstanceAs (Decidable (kind = .identifier → c ≠ doubleQuote))
  | .escaped _ _ _, c => inferInstanceAs (Decidable (mysqlEscape c = [c]))
  | .closing _ q _, c => inferInstanceAs (Decidable (c = q ∨ mysql.opens c = none))

/-- The MySQL lexer, the code, and the PostgreSQL lexer on what the code has
written. -/
inductive Tracks : Mode → Parser × Mode → Prop
  | outside : Tracks .outside (⟨.notInString, false⟩, .outside)
  | single (v) : Tracks (.inside .string singleQuote v)
      (⟨.inSingleQuote, false⟩, .inside .string singleQuote v)
  | singleEscaped (v) : Tracks (.escaped .string singleQuote v)
      (⟨.inSingleQuote, true⟩, .inside .string singleQuote v)
  | singleClosing (v) : Tracks (.closing .string singleQuote v)
      (⟨.maybeEndSingleQuote, false⟩, .inside .string singleQuote v)
  | double (v) : Tracks (.inside .string doubleQuote v)
      (⟨.inDoubleQuote, false⟩, .inside .string singleQuote v)
  | doubleEscaped (v) : Tracks (.escaped .string doubleQuote v)
      (⟨.inDoubleQuote, true⟩, .inside .string singleQuote v)
  | doubleClosing (v) : Tracks (.closing .string doubleQuote v)
      (⟨.maybeEndDoubleQuote, false⟩, .inside .string singleQuote v)
  | backticks (v) : Tracks (.inside .identifier backtick v)
      (⟨.inBackticks, false⟩, .inside .identifier doubleQuote v)
  | backticksClosing (v) : Tracks (.closing .identifier backtick v)
      (⟨.maybeEndBackticks, false⟩, .inside .identifier doubleQuote v)

/-- The code with the PostgreSQL lexer behind it. -/
def normalized : Transducer (Parser × Mode) Char Token := normalizer.andThen postgres.lexer

theorem normalized_finish (s : Mode) (t : Parser × Mode) (h : Tracks s t) :
    normalized.finish t = mysql.lexer.finish s := by
  cases h <;> rfl

/-- Both machines on one character, unfolded. -/
theorem normalized_step_eq (p : Parser) (mode : Mode) (c : Char) :
    normalized.step (p, mode) c =
      (((p.step c).1, (postgres.lexer.feed mode (p.step c).2).1),
        (postgres.lexer.feed mode (p.step c).2).2) := rfl

section Step

attribute [local simp] normalized_step_eq Parser.step mysql postgres lexer step
  start feed

theorem normalized_step (s : Mode) (t : Parser × Mode) (c : Char) (h : Tracks s t)
    (hc : Keeps s c) :
    (normalized.step t c).2 = (mysql.lexer.step s c).2 ∧
      Tracks (mysql.lexer.step s c).1 (normalized.step t c).1 := by
  cases h with
  | outside =>
    by_cases h1 : c = singleQuote
    · subst h1
      exact ⟨rfl, .single []⟩
    by_cases h2 : c = doubleQuote
    · subst h2
      exact ⟨rfl, .double []⟩
    by_cases h3 : c = backtick
    · subst h3
      exact ⟨rfl, .backticks []⟩
    simp [h1, h2, h3, Tracks.outside]
  | single v =>
    by_cases h1 : c = singleQuote
    · subst h1
      exact ⟨rfl, .singleClosing v⟩
    by_cases h2 : c = backslash
    · subst h2
      exact ⟨rfl, .singleEscaped v⟩
    simp [h1, h2, Tracks.single]
  | singleEscaped v =>
    have hvalue : mysqlEscape c = [c] := hc
    by_cases h1 : c = singleQuote
    · subst h1
      simp [hvalue, Tracks.single]
    by_cases h2 : c = backslash
    · subst h2
      simp [hvalue, Tracks.single]
    simp [h1, h2, hvalue, Tracks.single]
  | singleClosing v =>
    by_cases h1 : c = singleQuote
    · subst h1
      exact ⟨rfl, .single _⟩
    have hplain := mysql_opens_none.mp (hc.resolve_left h1)
    simp [hplain, Tracks.outside]
  | double v =>
    by_cases h1 : c = doubleQuote
    · subst h1
      exact ⟨rfl, .doubleClosing v⟩
    by_cases h2 : c = backslash
    · subst h2
      exact ⟨rfl, .doubleEscaped v⟩
    by_cases h3 : c = singleQuote
    · subst h3
      exact ⟨rfl, .double _⟩
    simp [h1, h2, h3, Tracks.double]
  | doubleEscaped v =>
    have hvalue : mysqlEscape c = [c] := hc
    by_cases h1 : c = doubleQuote
    · subst h1
      simp [hvalue, Tracks.double]
    by_cases h2 : c = backslash
    · subst h2
      simp [hvalue, Tracks.double]
    by_cases h3 : c = singleQuote
    · subst h3
      simp [hvalue, Tracks.double]
    simp [h1, h2, h3, hvalue, Tracks.double]
  | doubleClosing v =>
    by_cases h1 : c = doubleQuote
    · subst h1
      exact ⟨rfl, .double _⟩
    have hplain := mysql_opens_none.mp (hc.resolve_left h1)
    simp [hplain, Tracks.outside]
  | backticks v =>
    have hc : c ≠ doubleQuote := hc rfl
    by_cases h1 : c = backtick
    · subst h1
      exact ⟨rfl, .backticksClosing v⟩
    simp [h1, hc, Tracks.backticks]
  | backticksClosing v =>
    by_cases h1 : c = backtick
    · subst h1
      exact ⟨rfl, .backticks _⟩
    have hplain := mysql_opens_none.mp (hc.resolve_left h1)
    simp [hplain, Tracks.outside]

end Step

/-! ## Out of step -/

/-- A step in which no identifier has a quote directly behind it. -/
def Apart : Mode → Char → Prop
  | .closing .identifier q _, c => c = q ∨ mysql.opens c = none
  | _, _ => True

/-- Inside of PostgreSQL's quotes, the next token begins with what was read
of it, whatever the code writes. -/
theorem head_of_normalized {p : Parser} {mode : Mode} {kind : Kind} {v : List Char}
    (h : mode.token? = some (kind, v)) (hts : normalized.output (p, mode) cs = some ts) :
    ∃ w us, ts = .quoted kind (v ++ w) :: us := by
  rw [normalized, output_andThen, output_normalizer, Option.bind_some] at hts
  exact head_of_token h hts

/-- The PostgreSQL lexer behind an identifier's double quotes, of which it
takes every second one as the end. -/
def lagging (v : List Char) (j : ℕ) : Mode :=
  if j % 2 = 0 then .inside .identifier doubleQuote (v ++ List.replicate (j / 2) doubleQuote)
  else .closing .identifier doubleQuote (v ++ List.replicate (j / 2) doubleQuote)

theorem lagging_quote (v : List Char) (j : ℕ) :
    postgres.lexer.step (lagging v j) doubleQuote = (lagging v (j + 1), []) := by
  by_cases h : j % 2 = 0
  · have h1 : (j + 1) % 2 ≠ 0 := by omega
    have h2 : (j + 1) / 2 = j / 2 := by omega
    simp [lagging, h, h1, h2, lexer, step]
  · have h1 : (j + 1) % 2 = 0 := by omega
    have h2 : (j + 1) / 2 = j / 2 + 1 := by omega
    simp [lagging, h, h1, h2, lexer, step, List.replicate_succ']

/-- The name that PostgreSQL reads when another character comes. -/
theorem lagging_other (v : List Char) (j : ℕ) (hc : c ≠ doubleQuote) (p : Parser)
    (hts : (normalized.output (p, (postgres.lexer.step (lagging v j) c).1) cs).map
      ((postgres.lexer.step (lagging v j) c).2 ++ ·) = some ts) :
    ∃ name us, ts = .quoted .identifier name :: us ∧
      ((j % 2 = 1 ∧ name = v ++ List.replicate (j / 2) doubleQuote) ∨
        ∃ w, name = v ++ List.replicate (j / 2) doubleQuote ++ c :: w) := by
  obtain ⟨us, hus, rfl⟩ := Option.map_eq_some_iff.mp hts
  by_cases h : j % 2 = 0
  · have hstep : postgres.lexer.step (lagging v j) c =
        (.inside .identifier doubleQuote (v ++ List.replicate (j / 2) doubleQuote ++ [c]), []) := by
      simp [lagging, h, hc, lexer, step, postgres]
    rw [hstep] at hus ⊢
    obtain ⟨w, vs, rfl⟩ := head_of_normalized rfl hus
    exact ⟨_, vs, rfl, .inr ⟨w, by simp⟩⟩
  · have hstep : (postgres.lexer.step (lagging v j) c).2 =
        .quoted .identifier (v ++ List.replicate (j / 2) doubleQuote) ::
          (postgres.start c).2 := by
      simp [lagging, h, hc, lexer, step]
    rw [hstep]
    exact ⟨_, _, rfl, .inl ⟨by omega, rfl⟩⟩

/-- A name with fewer double quotes, and then something else, is another
name. -/
theorem lagging_name_ne (v : List Char) {i j : ℕ} (hij : i < j) (hc : c ≠ doubleQuote)
    (u w : List Char) :
    v ++ List.replicate i doubleQuote ≠ v ++ List.replicate j doubleQuote ++ u ∧
      v ++ List.replicate i doubleQuote ++ c :: w ≠ v ++ List.replicate j doubleQuote ++ u := by
  obtain ⟨k, rfl⟩ : ∃ k, j = i + (k + 1) := ⟨j - i - 1, by omega⟩
  rw [List.replicate_add, List.replicate_succ]
  constructor
  · intro h
    have := congrArg List.length h
    simp at this
  · intro h
    simp only [List.append_assoc] at h
    have h := List.append_cancel_left (List.append_cancel_left h)
    exact hc (by simpa using (List.cons.inj h).1)

/-- So is one that goes on with another character. -/
theorem lagging_ne (v : List Char) {j : ℕ} (hj : 0 < j) (hc : c ≠ doubleQuote) (p : Parser)
    (hts : mysql.lexer.output
      (.inside .identifier backtick (v ++ List.replicate j doubleQuote ++ [c])) cs = some ts) :
    (normalized.output (p, (postgres.lexer.step (lagging v j) c).1) cs).map
      ((postgres.lexer.step (lagging v j) c).2 ++ ·) ≠ some ts := by
  intro hout
  obtain ⟨u, us, rfl⟩ := head_of_token rfl hts
  obtain ⟨name, vs, hname, hcases⟩ := lagging_other v j hc p hout
  have hsame := (Token.quoted.inj (List.cons.inj hname).1).2
  have hhalf : j / 2 < j := by omega
  rw [List.append_assoc] at hsame
  rcases hcases with ⟨-, rfl⟩ | ⟨w, rfl⟩
  · exact (lagging_name_ne v hhalf hc _ []).1 hsame.symm
  · exact (lagging_name_ne v hhalf hc _ w).2 hsame.symm

theorem lagging_end_ne (v : List Char) {j : ℕ} (hj : 0 < j) (hc : c ≠ doubleQuote) (p : Parser)
    (cs : List Char) (ts : List Token) :
    (normalized.output (p, (postgres.lexer.step (lagging v (j + 1)) c).1) cs).map
      ((postgres.lexer.step (lagging v (j + 1)) c).2 ++ ·) ≠
        some (.quoted .identifier (v ++ List.replicate j doubleQuote) :: ts) := by
  intro hout
  obtain ⟨name, vs, hname, hcases⟩ := lagging_other v (j + 1) hc p hout
  have hsame := (Token.quoted.inj (List.cons.inj hname).1).2
  rcases hcases with ⟨hodd, rfl⟩ | ⟨w, rfl⟩
  · have hhalf : (j + 1) / 2 < j := by omega
    refine (lagging_name_ne v hhalf hc [] []).1 ?_
    rw [List.append_nil, hsame]
  · -- the other character would be one of the double quotes
    rw [List.append_assoc] at hsame
    have hmem : c ∈ List.replicate j doubleQuote := by
      rw [List.append_cancel_left hsame]
      simp
    exact hc (List.eq_of_mem_replicate hmem)

section Leave

attribute [local simp] normalized_step_eq Parser.step feed

variable {cs : List Char} {ts : List Token} {c : Char}

/-- An identifier with double quotes in it, behind a backtick. -/
theorem closing_lags (v : List Char) {j : ℕ} (hj : 0 < j)
    (hcs : Along mysql.lexer.next Apart
      (.closing .identifier backtick (v ++ List.replicate j doubleQuote)) cs)
    (hts : mysql.lexer.output
      (.closing .identifier backtick (v ++ List.replicate j doubleQuote)) cs = some ts) :
    normalized.output (⟨.maybeEndBackticks, false⟩, lagging v j) cs ≠ some ts := by
  intro hout
  cases cs with
  | nil =>
    obtain rfl : [.quoted .identifier (v ++ List.replicate j doubleQuote)] = ts := by
      simpa [lexer, Mode.finish] using hts
    have hend : (lagging v (j + 1)).finish =
        some [.quoted .identifier (v ++ List.replicate j doubleQuote)] := by
      have hfinish : normalized.output (⟨.maybeEndBackticks, false⟩, lagging v j) [] =
          postgres.lexer.output (lagging v j) [doubleQuote] := rfl
      rw [hfinish, output_of_silent (lagging_quote v j)] at hout
      exact hout
    by_cases h : (j + 1) % 2 = 0
    · simp [lagging, h, Mode.finish] at hend
    · simp [lagging, h, Mode.finish] at hend
      omega
  | cons c cs =>
    by_cases h1 : c = backtick
    · subst h1
      have hnext : mysql.lexer.step
          (.closing .identifier backtick (v ++ List.replicate j doubleQuote)) backtick =
          (.inside .identifier backtick (v ++ List.replicate j doubleQuote ++ [backtick]), []) := by
        simp [lexer, step]
      rw [output_of_silent hnext] at hts
      refine lagging_ne v hj (by simp) ⟨.inBackticks, false⟩ hts ?_
      simpa [output_cons] using hout
    · have hplain : mysql.opens c = none := hcs.1.resolve_left h1
      have hts' : ∃ us, ts = .quoted .identifier (v ++ List.replicate j doubleQuote) :: us := by
        rw [output_cons] at hts
        obtain ⟨us, -, rfl⟩ := Option.map_eq_some_iff.mp hts
        exact ⟨.plain c :: us, by simp [lexer, step, start, h1, hplain]⟩
      obtain ⟨us, rfl⟩ := hts'
      refine lagging_end_ne v hj (mysql_opens_none.mp hplain).2.1 ⟨.notInString, false⟩ cs us ?_
      simpa [output_cons, h1, lagging_quote] using hout

/-- An identifier with a double quote in it is read as another one. -/
theorem normalized_lags (v : List Char) {j : ℕ} (hj : 0 < j)
    (hcs : Along mysql.lexer.next Apart
      (.inside .identifier backtick (v ++ List.replicate j doubleQuote)) cs)
    (hts : mysql.lexer.output
      (.inside .identifier backtick (v ++ List.replicate j doubleQuote)) cs = some ts) :
    normalized.output (⟨.inBackticks, false⟩, lagging v j) cs ≠ some ts := by
  intro hout
  induction cs generalizing j ts with
  | nil => simp [lexer, Mode.finish] at hts
  | cons c cs ih =>
    by_cases h1 : c = doubleQuote
    · -- one more double quote: the lexer is still behind
      subst h1
      have hnext : mysql.lexer.step
          (.inside .identifier backtick (v ++ List.replicate j doubleQuote)) doubleQuote =
          (.inside .identifier backtick (v ++ List.replicate (j + 1) doubleQuote), []) := by
        simp [lexer, step, mysql, List.replicate_succ']
      have hlag : normalized.step (⟨.inBackticks, false⟩, lagging v j) doubleQuote =
          ((⟨.inBackticks, false⟩, lagging v (j + 1)), []) := by
        simp [lagging_quote]
      have hrest := hcs.2
      rw [next_of_step hnext] at hrest
      rw [output_of_silent hnext] at hts
      rw [output_of_silent hlag] at hout
      exact ih (Nat.succ_pos j) hrest hts hout
    by_cases h2 : c = backtick
    · -- the end of the identifier, or a doubled backtick
      subst h2
      have hnext : mysql.lexer.step
          (.inside .identifier backtick (v ++ List.replicate j doubleQuote)) backtick =
          (.closing .identifier backtick (v ++ List.replicate j doubleQuote), []) := by
        simp [lexer, step]
      have hlag : normalized.step (⟨.inBackticks, false⟩, lagging v j) backtick =
          ((⟨.maybeEndBackticks, false⟩, lagging v j), []) := by
        simp
      have hrest := hcs.2
      rw [next_of_step hnext] at hrest
      rw [output_of_silent hnext] at hts
      rw [output_of_silent hlag] at hout
      exact closing_lags v hj hrest hts hout
    · have hnext : mysql.lexer.step
          (.inside .identifier backtick (v ++ List.replicate j doubleQuote)) c =
          (.inside .identifier backtick (v ++ List.replicate j doubleQuote ++ [c]), []) := by
        simp [lexer, step, mysql, h2]
      rw [output_of_silent hnext] at hts
      refine lagging_ne v hj h1 ⟨.inBackticks, false⟩ hts ?_
      simpa [output_cons, h2] using hout

/-- A string with an escape for another character is read as another
one. -/
theorem escape_ne (v : List Char) {q : Char} (hc : mysqlEscape c ≠ [c]) (p : Parser)
    (hts : mysql.lexer.output (.escaped .string q v) (c :: cs) = some ts) :
    normalized.output (p, .inside .string singleQuote (v ++ [c])) cs ≠ some ts := by
  intro hout
  obtain ⟨d, w, hvalue, hd⟩ := mysqlEscape_head hc
  have hnext : mysql.lexer.step (.escaped .string q v) c =
      (.inside .string q (v ++ d :: w), []) := by
    simp [lexer, step, mysql, hvalue]
  rw [output_of_silent hnext] at hts
  obtain ⟨w1, us, rfl⟩ := head_of_token rfl hts
  obtain ⟨w2, vs, hsame⟩ := head_of_normalized rfl hout
  have hvalues := (Token.quoted.inj (List.cons.inj hsame).1).2
  simp only [List.append_assoc] at hvalues
  exact hd (List.cons.inj (List.append_cancel_left hvalues)).1

/-- Such an escape has none of the characters that the code looks for. -/
theorem escaped_ordinary (hc : mysqlEscape c ≠ [c]) :
    c ≠ singleQuote ∧ c ≠ doubleQuote ∧ c ≠ backslash := by
  refine ⟨?_, ?_, ?_⟩ <;> (rintro rfl; exact hc (by decide))

/-- The tokens of a string with another quote directly behind it. -/
theorem tokens_of_adjacent {q : Char} (hne : c ≠ q) {kind : Kind} (hc : mysql.opens c = some kind)
    (v : List Char) (hts : mysql.lexer.output (.closing .string q v) (c :: cs) = some ts) :
    ∃ w us, ts = .quoted .string v :: .quoted kind w :: us := by
  have hnext : mysql.lexer.step (.closing .string q v) c =
      (.inside kind c [], [.quoted .string v]) := by
    simp [lexer, step, start, hne, hc]
  rw [output_cons, hnext] at hts
  obtain ⟨us, hus, rfl⟩ := Option.map_eq_some_iff.mp hts
  obtain ⟨w, vs, rfl⟩ := head_of_token rfl hus
  exact ⟨_, vs, rfl⟩

theorem single_adjacent_ne (v : List Char) (hne : c ≠ singleQuote) (hc : mysql.opens c ≠ none)
    (hts : mysql.lexer.output (.closing .string singleQuote v) (c :: cs) = some ts) :
    normalized.output (⟨.maybeEndSingleQuote, false⟩, .inside .string singleQuote v) (c :: cs) ≠
      some ts := by
  intro hout
  rw [output_cons] at hout
  obtain ⟨us, hus, rfl⟩ := Option.map_eq_some_iff.mp hout
  by_cases hd : c = doubleQuote
  · -- PostgreSQL reads an identifier
    subst hd
    obtain ⟨w, vs, hts⟩ := tokens_of_adjacent hne rfl v hts
    obtain ⟨w', vs', rfl⟩ : ∃ w' vs', us = .quoted .identifier ([] ++ w') :: vs' :=
      head_of_normalized rfl hus
    simp [lexer, step, start, postgres] at hts
  · obtain rfl : c = backtick := by
      by_contra hb
      exact hc (mysql_opens_none.mpr ⟨hne, hd, hb⟩)
    obtain ⟨w, vs, hts⟩ := tokens_of_adjacent hne rfl v hts
    simp [lexer, step, start, postgres] at hts

theorem double_adjacent_ne (v : List Char) (hne : c ≠ doubleQuote) (hc : mysql.opens c ≠ none)
    (hts : mysql.lexer.output (.closing .string doubleQuote v) (c :: cs) = some ts) :
    normalized.output (⟨.maybeEndDoubleQuote, false⟩, .inside .string singleQuote v) (c :: cs) ≠
      some ts := by
  intro hout
  rw [output_cons] at hout
  obtain ⟨us, hus, rfl⟩ := Option.map_eq_some_iff.mp hout
  by_cases hd : c = singleQuote
  · -- PostgreSQL reads on in the string
    subst hd
    obtain ⟨w, vs, hts⟩ := tokens_of_adjacent hne rfl v hts
    obtain ⟨w', vs', rfl⟩ := head_of_normalized (v := v ++ [singleQuote]) rfl hus
    simp [lexer, step] at hts
  · obtain rfl : c = backtick := by
      by_contra hb
      exact hc (mysql_opens_none.mpr ⟨hd, hne, hb⟩)
    obtain ⟨w, vs, hts⟩ := tokens_of_adjacent hne rfl v hts
    simp [lexer, step, start, postgres] at hts

/-- Where the code leaves the lexer, the tokens are others. -/
theorem normalized_leaves (s : Mode) (t : Parser × Mode) (c : Char) (cs : List Char)
    (ts : List Token) (h : Tracks s t) (hc : ¬ Keeps s c)
    (hcs : Along mysql.lexer.next Apart s (c :: cs))
    (hts : mysql.lexer.output s (c :: cs) = some ts) : normalized.output t (c :: cs) ≠ some ts := by
  cases h with
  | outside => exact absurd trivial hc
  | single v | double v => exact absurd nofun hc
  | singleEscaped v =>
    intro hout
    obtain ⟨h1, h2, h3⟩ := escaped_ordinary hc
    refine escape_ne v hc ⟨.inSingleQuote, false⟩ hts ?_
    simpa [output_cons, lexer, step, postgres, h1, h3] using hout
  | doubleEscaped v =>
    intro hout
    obtain ⟨h1, h2, h3⟩ := escaped_ordinary hc
    refine escape_ne v hc ⟨.inDoubleQuote, false⟩ hts ?_
    simpa [output_cons, lexer, step, postgres, h1, h2, h3] using hout
  | singleClosing v =>
    obtain ⟨hne, hopens⟩ := not_or.mp hc
    exact single_adjacent_ne v hne hopens hts
  | doubleClosing v =>
    obtain ⟨hne, hopens⟩ := not_or.mp hc
    exact double_adjacent_ne v hne hopens hts
  | backticks v =>
    obtain rfl : c = doubleQuote := by
      by_contra hne
      exact hc fun _ => hne
    intro hout
    have hnext : mysql.lexer.step (.inside .identifier backtick v) doubleQuote =
        (.inside .identifier backtick (v ++ List.replicate 1 doubleQuote), []) := by
      simp [lexer, step, mysql]
    have hlag : normalized.step (⟨.inBackticks, false⟩, .inside .identifier doubleQuote v)
        doubleQuote = ((⟨.inBackticks, false⟩, lagging v 1), []) := by
      simp [lexer, step, lagging]
    have hrest := hcs.2
    rw [next_of_step hnext] at hrest
    rw [output_of_silent hnext] at hts
    rw [output_of_silent hlag] at hout
    exact normalized_lags v Nat.one_pos hrest hts hout
  | backticksClosing v => exact absurd hcs.1 hc

end Leave

/-! ## The whole text -/

/-- The MySQL text keeps its tokens along `Keeps`; and unless an identifier
has a quote directly behind it, it keeps them only there. -/
theorem normalized_tokens (q : List Char) (ts : List Token) (h : mysql.tokens q = some ts) :
    (Along mysql.lexer.next Keeps .outside q → postgres.tokens (normalizeStrings q) = some ts) ∧
      (Along mysql.lexer.next Apart .outside q →
        (postgres.tokens (normalizeStrings q) = some ts ↔
          Along mysql.lexer.next Keeps .outside q)) := by
  have houtput : normalized.output (.start, .outside) q = postgres.tokens (normalizeStrings q) := by
    rw [normalized, output_andThen, output_normalizer]
    rfl
  rw [← houtput]
  constructor
  · intro hkeeps
    exact (Transducer.output_eq_of_simulation normalized_step normalized_finish .outside
      hkeeps).trans h
  · intro hapart
    exact Transducer.output_eq_iff_along normalized_step normalized_finish normalized_leaves
      .outside hapart h

/-- A string in double quotes with a single quote in it, an escaped quote,
and an identifier with a doubled backtick. -/
theorem normalized_tokens_of_clean :
    postgres.tokens (normalizeStrings
      ([doubleQuote, 'a', singleQuote, backslash, doubleQuote, doubleQuote, ' '] ++
        [backtick, 'b', backtick, backtick, backtick])) =
      some [.quoted .string ['a', singleQuote, doubleQuote], .plain ' ',
        .quoted .identifier ['b', backtick]] :=
  (normalized_tokens _ _ rfl).1 (by decide)

/-- A line feed becomes the letter, a double quote ends the identifier that
it is in, and of two strings the second one never ends. -/
theorem normalized_tokens_differ :
    (mysql.tokens [singleQuote, backslash, 'n', singleQuote] =
        some [.quoted .string [Char.ofNat 10]] ∧
      postgres.tokens (normalizeStrings [singleQuote, backslash, 'n', singleQuote]) =
        some [.quoted .string ['n']]) ∧
    (mysql.tokens [backtick, 'a', doubleQuote, 'b', backtick] =
        some [.quoted .identifier ['a', doubleQuote, 'b']] ∧
      postgres.tokens (normalizeStrings [backtick, 'a', doubleQuote, 'b', backtick]) = none) ∧
    (mysql.tokens [singleQuote, 'a', singleQuote, doubleQuote, 'b', doubleQuote] =
        some [.quoted .string ['a'], .quoted .string ['b']] ∧
      postgres.tokens (normalizeStrings
        [singleQuote, 'a', singleQuote, doubleQuote, 'b', doubleQuote]) = none) := by
  refine ⟨⟨rfl, rfl⟩, ⟨rfl, rfl⟩, rfl, rfl⟩

end MyDuck.Transpiler
