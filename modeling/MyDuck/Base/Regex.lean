/-
MyDuck.Base.Regex — regular expressions with groups, and a search that
prefers as backtracking engines do.

`results` lists the matches at the beginning of a text in the order of
preference: the first alternative, and as many repetitions as possible.
`find` takes the first match of the first place that has one, and `scan`
goes on behind it. `Matches` is the meaning of an expression without the
assertions about the characters around a place; `find_sound` says that what
is found is a part of the text and matches. Groups keep what they matched.
-/
import Mathlib

namespace MyDuck.Regex

inductive Expr where
  | empty
  | char (accepts : Char → Bool)
  | seq (a b : Expr)
  | alt (a b : Expr)
  | star (a : Expr)
  | group (i : Nat) (a : Expr)
  /-- An assertion about the characters in front of a place and behind it. -/
  | look (holds : Option Char → Option Char → Bool)

abbrev Captures := List (Nat × List Char)

/-- One match at the beginning of a text. -/
structure Result where
  consumed : List Char
  captures : Captures
  rest : List Char
  deriving DecidableEq, Repr

def Result.followedBy (first second : Result) : Result :=
  ⟨first.consumed ++ second.consumed, first.captures ++ second.captures, second.rest⟩

/-- The character in front of what is left, if `prev` was in front. -/
def Result.last (r : Result) (prev : Option Char) : Option Char := r.consumed.getLast?.or prev

/-- Repetitions, none of them empty; `fuel` is the most there can be. -/
def starResults (once : Option Char → List Char → List Result) :
    Nat → Option Char → List Char → List Result
  | 0, _, s => [⟨[], [], s⟩]
  | fuel + 1, prev, s =>
    ((once prev s).filter (·.consumed ≠ [])).flatMap
      (fun r => (starResults once fuel (r.last prev) r.rest).map r.followedBy) ++ [⟨[], [], s⟩]

/-- The matches at the beginning of a text, those preferred first; `prev` is
the character in front of the text. -/
def results : Expr → Option Char → List Char → List Result
  | .empty, _, s => [⟨[], [], s⟩]
  | .char _, _, [] => []
  | .char accepts, _, c :: cs => if accepts c then [⟨[c], [], cs⟩] else []
  | .seq a b, prev, s =>
    (results a prev s).flatMap fun r => (results b (r.last prev) r.rest).map r.followedBy
  | .alt a b, prev, s => results a prev s ++ results b prev s
  | .star a, prev, s => starResults (results a) s.length prev s
  | .group i a, prev, s =>
    (results a prev s).map fun r => ⟨r.consumed, r.captures ++ [(i, r.consumed)], r.rest⟩
  | .look holds, prev, s => if holds prev s.head? then [⟨[], [], s⟩] else []

/-- The first match of the first place that has one. -/
def findFrom (re : Expr) : Option Char → List Char → Option Result
  | prev, [] => (results re prev []).head?
  | prev, c :: cs => (results re prev (c :: cs)).head? <|> findFrom re (some c) cs

def find (re : Expr) (s : List Char) : Option Result := findFrom re none s

/-- What a search makes of a text: a match, or a character that it leaves. -/
inductive Step where
  | skip (c : Char)
  | hit (r : Result)

def Step.text : Step → List Char
  | .skip c => [c]
  | .hit r => r.consumed

def Step.hit? : Step → Option Result
  | .skip _ => none
  | .hit r => some r

/-- All matches of a text, each behind the one before, for an expression
that does not match the empty text; `fuel` is the length of the text. -/
def scan (re : Expr) : Nat → Option Char → List Char → List Step
  | 0, _, s => s.map .skip
  | fuel + 1, prev, s =>
    match (results re prev s).head? with
    | some r => .hit r :: scan re fuel (r.last prev) r.rest
    | none =>
      match s with
      | [] => []
      | c :: cs => .skip c :: scan re fuel (some c) cs

def findAll (re : Expr) (s : List Char) : List Result :=
  (scan re s.length none s).filterMap Step.hit?

/-- What a group matched last, or the empty text. -/
def submatch (captures : Captures) (i : Nat) : List Char :=
  ((captures.reverse.find? (·.1 == i)).map (·.2)).getD []

/-! ## Expressions -/

/-- `\w`. -/
def isWord (c : Char) : Bool := c.isAlphanum || c == '_'

/-- `\b`: one side has a character of a word, the other has not. -/
def boundary : Expr := .look fun prev next => prev.any isWord != next.any isWord

def plus (a : Expr) : Expr := .seq a (.star a)

def optional (a : Expr) : Expr := .alt a .empty

def sequence (parts : List Expr) : Expr := parts.foldr .seq .empty

/-! ## Meaning -/

/-- The texts an expression matches, with what its groups keep. What an
assertion says about the text around a match is left out. -/
inductive Matches : Expr → List Char → Captures → Prop
  | empty : Matches .empty [] []
  | char {accepts : Char → Bool} {c : Char} (h : accepts c = true) : Matches (.char accepts) [c] []
  | seq {a b : Expr} {s t : List Char} {ca cb : Captures} (ha : Matches a s ca)
      (hb : Matches b t cb) : Matches (.seq a b) (s ++ t) (ca ++ cb)
  | altLeft {a b : Expr} {s : List Char} {c : Captures} (h : Matches a s c) :
      Matches (.alt a b) s c
  | altRight {a b : Expr} {s : List Char} {c : Captures} (h : Matches b s c) :
      Matches (.alt a b) s c
  | starNil {a : Expr} : Matches (.star a) [] []
  | starCons {a : Expr} {s t : List Char} {ca ct : Captures} (ha : Matches a s ca)
      (ht : Matches (.star a) t ct) : Matches (.star a) (s ++ t) (ca ++ ct)
  | group {a : Expr} {s : List Char} {c : Captures} (i : Nat) (h : Matches a s c) :
      Matches (.group i a) s (c ++ [(i, s)])
  | look {holds : Option Char → Option Char → Bool} : Matches (.look holds) [] []

/-- A result is a match at the beginning of the text. -/
def Result.Sound (re : Expr) (s : List Char) (r : Result) : Prop :=
  s = r.consumed ++ r.rest ∧ Matches re r.consumed r.captures

variable {a : Expr} {s : List Char} {r : Result} {accepts : Char → Bool} {c : Captures}

theorem starResults_sound {once : Option Char → List Char → List Result}
    (honce : ∀ prev s, ∀ r ∈ once prev s, r.Sound a s) (fuel : Nat) (prev : Option Char)
    (s : List Char) : ∀ r ∈ starResults once fuel prev s, r.Sound (.star a) s := by
  have hstop : ∀ s : List Char, (⟨[], [], s⟩ : Result).Sound (.star a) s := fun s =>
    ⟨rfl, .starNil⟩
  induction fuel generalizing prev s with
  | zero =>
    intro r hr
    obtain rfl := List.mem_singleton.mp hr
    exact hstop s
  | succ fuel ih =>
    intro r hr
    rcases List.mem_append.mp hr with hr | hr
    · obtain ⟨first, hfirst, hr⟩ := List.mem_flatMap.mp hr
      obtain ⟨second, hsecond, rfl⟩ := List.mem_map.mp hr
      obtain ⟨rfl, hmatch⟩ := honce prev s first (List.mem_of_mem_filter hfirst)
      obtain ⟨hrest, hmore⟩ := ih (first.last prev) first.rest second hsecond
      exact ⟨by simp [Result.followedBy, ← hrest], .starCons hmatch hmore⟩
    · obtain rfl := List.mem_singleton.mp hr
      exact hstop s

/-- **What is listed matches.** -/
theorem results_sound (re : Expr) (prev : Option Char) (s : List Char) :
    ∀ r ∈ results re prev s, r.Sound re s := by
  induction re generalizing prev s with
  | empty =>
    intro r hr
    obtain rfl := List.mem_singleton.mp hr
    exact ⟨rfl, .empty⟩
  | char accepts =>
    intro r hr
    cases s with
    | nil => cases hr
    | cons c cs =>
      rw [results] at hr
      split at hr
      · rename_i hc
        obtain rfl := List.mem_singleton.mp hr
        exact ⟨rfl, .char hc⟩
      · cases hr
  | seq a b iha ihb =>
    intro r hr
    obtain ⟨first, hfirst, hr⟩ := List.mem_flatMap.mp hr
    obtain ⟨second, hsecond, rfl⟩ := List.mem_map.mp hr
    obtain ⟨rfl, hmatch⟩ := iha prev s first hfirst
    obtain ⟨hrest, hmore⟩ := ihb (first.last prev) first.rest second hsecond
    exact ⟨by simp [Result.followedBy, ← hrest], .seq hmatch hmore⟩
  | alt a b iha ihb =>
    intro r hr
    rcases List.mem_append.mp hr with hr | hr
    · exact ⟨(iha prev s r hr).1, .altLeft (iha prev s r hr).2⟩
    · exact ⟨(ihb prev s r hr).1, .altRight (ihb prev s r hr).2⟩
  | star a iha => exact starResults_sound iha s.length prev s
  | group i a iha =>
    intro r hr
    obtain ⟨inner, hinner, rfl⟩ := List.mem_map.mp hr
    exact ⟨(iha prev s inner hinner).1, .group i (iha prev s inner hinner).2⟩
  | look holds =>
    intro r hr
    rw [results] at hr
    split at hr
    · obtain rfl := List.mem_singleton.mp hr
      exact ⟨rfl, .look⟩
    · cases hr

theorem head_results_sound {re : Expr} {prev : Option Char} (h : (results re prev s).head? =
      some r) :
    r.Sound re s :=
  results_sound re prev s r (List.mem_of_mem_head? h)

/-- **What is found** is a part of the text and matches. -/
theorem find_sound {re : Expr} (h : find re s = some r) :
    ∃ before, s = before ++ (r.consumed ++ r.rest) ∧ Matches re r.consumed r.captures := by
  unfold find at h
  generalize none = prev at h
  induction s generalizing prev with
  | nil => exact ⟨[], head_results_sound h⟩
  | cons c cs ih =>
    rw [findFrom] at h
    cases hhead : (results re prev (c :: cs)).head? with
    | some found =>
      rw [hhead] at h
      cases h
      exact ⟨[], head_results_sound hhead⟩
    | none =>
      rw [hhead] at h
      obtain ⟨before, hs, hmatch⟩ := ih (some c) h
      exact ⟨c :: before, by rw [hs]; rfl, hmatch⟩

section Scan

variable {re : Expr} {fuel : Nat} {prev : Option Char}

theorem scan_hit {s : List Char} {r : Result} (h : (results re prev s).head? = some r) :
    scan re (fuel + 1) prev s = .hit r :: scan re fuel (r.last prev) r.rest := by
  rw [scan.eq_def]
  simp only [h]

theorem scan_skip {c : Char} {cs : List Char} (h : results re prev (c :: cs) = []) :
    scan re (fuel + 1) prev (c :: cs) = .skip c :: scan re fuel (some c) cs := by
  rw [scan.eq_def]
  simp only [h, List.head?_nil]

theorem scan_nil (h : results re prev [] = []) : scan re fuel prev [] = [] := by
  cases fuel with
  | zero => rfl
  | succ fuel =>
    rw [scan.eq_def]
    simp only [h, List.head?_nil]

/-- **A search** cuts the text, and each of its hits matches. -/
theorem scan_sound (re : Expr) (fuel : Nat) (prev : Option Char) (s : List Char) :
    (scan re fuel prev s).flatMap Step.text = s ∧
      ∀ r, .hit r ∈ scan re fuel prev s → Matches re r.consumed r.captures := by
  induction fuel generalizing prev s with
  | zero => simp [scan, List.flatMap_map, Step.text]
  | succ fuel ih =>
    cases hhead : (results re prev s).head? with
    | some r =>
      obtain ⟨hs, hmatch⟩ := head_results_sound hhead
      obtain ⟨htext, hhits⟩ := ih (r.last prev) r.rest
      rw [scan_hit hhead]
      refine ⟨by simp [Step.text, htext, ← hs], fun r' hr' => ?_⟩
      rcases List.mem_cons.mp hr' with heq | hr'
      · cases heq
        exact hmatch
      · exact hhits r' hr'
    | none =>
      have hnone := List.head?_eq_none_iff.mp hhead
      cases s with
      | nil => simp [scan_nil hnone]
      | cons c cs =>
        obtain ⟨htext, hhits⟩ := ih (some c) cs
        rw [scan_skip hnone]
        exact ⟨by simp [Step.text, htext], fun r hr => hhits r (by simpa using hr)⟩

end Scan

/-! ## The preferred match -/

/-- A repetition takes as many characters as it can. -/
theorem head_results_star_char (accepts : Char → Bool) (prev : Option Char) (s : List Char) :
    (results (.star (.char accepts)) prev s).head? =
      some ⟨s.takeWhile accepts, [], s.dropWhile accepts⟩ := by
  have hfuel : ∀ fuel prev, s.length ≤ fuel →
      (starResults (results (.char accepts)) fuel prev s).head? =
        some ⟨s.takeWhile accepts, [], s.dropWhile accepts⟩ := by
    intro fuel
    induction fuel generalizing s with
    | zero =>
      intro prev h
      obtain rfl : s = [] := List.eq_nil_of_length_eq_zero (by omega)
      rfl
    | succ fuel ih =>
      intro prev h
      cases s with
      | nil => simp [starResults, results]
      | cons c cs =>
        cases hc : accepts c with
        | true =>
          have hrest := ih cs (some c) (by simpa using h)
          simp [starResults, results, hc, hrest, Result.last, Result.followedBy]
        | false => simp [starResults, results, hc]
  exact hfuel s.length prev le_rfl

theorem head_results_seq {b : Expr} {prev : Option Char} {r' : Result}
    (ha : (results a prev s).head? = some r) (hb : (results b (r.last prev) r.rest).head? =
      some r') :
    (results (.seq a b) prev s).head? = some (r.followedBy r') := by
  obtain ⟨rs, hrs⟩ := List.head?_eq_some_iff.mp ha
  obtain ⟨rs', hrs'⟩ := List.head?_eq_some_iff.mp hb
  simp [results, hrs, hrs']

theorem head_results_group {i : Nat} {prev : Option Char} (h : (results a prev s).head? = some r) :
    (results (.group i a) prev s).head? =
      some ⟨r.consumed, r.captures ++ [(i, r.consumed)], r.rest⟩ := by
  rw [results, List.head?_map, h]
  rfl

theorem head_results_char {c : Char} (hc : accepts c = true) (prev : Option Char) (cs : List Char) :
    (results (.char accepts) prev (c :: cs)).head? = some ⟨[c], [], cs⟩ := by
  rw [results, if_pos hc]
  rfl

theorem head_results_plus_char {c : Char} (hc : accepts c = true) (prev : Option Char)
    (cs : List Char) :
    (results (plus (.char accepts)) prev (c :: cs)).head? =
      some ⟨(c :: cs).takeWhile accepts, [], (c :: cs).dropWhile accepts⟩ := by
  rw [plus, head_results_seq (head_results_char hc prev cs) (head_results_star_char accepts _ cs)]
  simp [Result.followedBy, hc]

/-! ## Reading a match -/

def groups : Expr → List Nat
  | .empty => []
  | .char _ => []
  | .seq a b => groups a ++ groups b
  | .alt a b => groups a ++ groups b
  | .star a => groups a
  | .group i a => groups a ++ [i]
  | .look _ => []

theorem Matches.captures_mem {re : Expr} (h : Matches re s c) : ∀ p ∈ c, p.1 ∈ groups re := by
  induction h with
  | empty => simp
  | char h => simp
  | seq ha hb iha ihb | altLeft h ih | altRight h ih => grind [groups]
  | starNil => simp
  | starCons ha ht iha iht | group i h ih => grind [groups]
  | look => simp

/-- What a group kept stays behind matches without that group. -/
theorem submatch_append_of_not_mem {i : Nat} {before after : Captures} (h : ∀ p ∈ after, p.1 ≠ i) :
    submatch (before ++ [(i, s)] ++ after) i = s := by
  have hnone : after.reverse.find? (·.1 == i) = none := by
    simpa using fun a b hmem => h (a, b) hmem
  simp [submatch, List.find?_append, hnone]

theorem matches_seq {b : Expr} :
    Matches (.seq a b) s c ↔
      ∃ s₁ s₂ c₁ c₂, s = s₁ ++ s₂ ∧ c = c₁ ++ c₂ ∧ Matches a s₁ c₁ ∧ Matches b s₂ c₂ := by
  constructor
  · rintro ⟨⟩
    exact ⟨_, _, _, _, rfl, rfl, ‹_›, ‹_›⟩
  · rintro ⟨s₁, s₂, c₁, c₂, rfl, rfl, ha, hb⟩
    exact .seq ha hb

theorem matches_char : Matches (.char accepts) s c ↔ ∃ d, s = [d] ∧ c = [] ∧ accepts d = true := by
  constructor
  · rintro ⟨⟩
    exact ⟨_, rfl, rfl, ‹_›⟩
  · rintro ⟨d, rfl, rfl, hd⟩
    exact .char hd

theorem matches_group {i : Nat} :
    Matches (.group i a) s c ↔ ∃ c', c = c' ++ [(i, s)] ∧ Matches a s c' := by
  constructor
  · rintro ⟨⟩
    exact ⟨_, rfl, ‹_›⟩
  · rintro ⟨c', rfl, h⟩
    exact .group i h

theorem Matches.star_char {re : Expr} (h : Matches re s c) (hre : re = .star (.char accepts)) :
    (∀ d ∈ s, accepts d = true) ∧ c = [] := by
  induction h with
  | starNil => simp
  | starCons ha ht iha iht =>
    cases hre
    obtain ⟨d, rfl, rfl, hd⟩ := matches_char.mp ha
    obtain ⟨hall, rfl⟩ := iht rfl
    simpa [hd] using hall
  | _ => cases hre

/-- A run of characters of one kind. -/
theorem Matches.plus_char (h : Matches (plus (.char accepts)) s c) :
    s ≠ [] ∧ (∀ d ∈ s, accepts d = true) ∧ c = [] := by
  obtain ⟨s₁, s₂, c₁, c₂, rfl, rfl, hone, hmore⟩ := matches_seq.mp h
  obtain ⟨d, rfl, rfl, hd⟩ := matches_char.mp hone
  obtain ⟨hall, rfl⟩ := hmore.star_char rfl
  simpa [hd] using hall

/-- A sequence of characters, one kind each. -/
theorem Matches.word {kinds : List (Char → Bool)} (h : Matches (sequence (kinds.map .char)) s c) :
    List.Forall₂ (fun accepts d => accepts d = true) kinds s ∧ c = [] := by
  induction kinds generalizing s c with
  | nil =>
    cases h
    exact ⟨.nil, rfl⟩
  | cons kind kinds ih =>
    obtain ⟨s₁, s₂, c₁, c₂, rfl, rfl, hone, hmore⟩ := matches_seq.mp h
    obtain ⟨d, rfl, rfl, hd⟩ := matches_char.mp hone
    obtain ⟨hall, rfl⟩ := ih hmore
    exact ⟨.cons hd hall, rfl⟩

end MyDuck.Regex
