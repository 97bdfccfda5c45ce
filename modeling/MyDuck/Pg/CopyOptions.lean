/-
MyDuck.Pg.CopyOptions — `ParseCopyOptions` of `pgserver/copy.go`.

The options of a COPY statement are read in one loop over the runes of the
text. It keeps the runes of the word that is being read, whether it is in
quotes, whether the word is a key or a value, and whether only a comma may
come. An option is looked at when a comma outside of quotes or the end of
the text comes.

The library of Go is a parameter where it is not spelled out here:
`Library` has the upper case of a rune, `strconv.ParseFloat`, and
`strconv.Unquote` with its rules for the text in double quotes.
-/
import MyDuck.Base.GoText
import MyDuck.Base.Strings

namespace MyDuck.CopyOptions

open GoText
open Strings (doubleQuote backslash lineFeed)
open Strings renaming singleQuote → quote

abbrev Text := List Char

def tab : Char := Char.ofNat 9

inductive OptionValueType where
  | bool
  | int
  | float
  | string
  deriving DecidableEq, Repr

inductive Value (F : Type) where
  | bool (b : Bool)
  | int (n : ℤ)
  | float (f : F)
  | string (s : Text)
  deriving DecidableEq, Repr

/-! ## The library -/

structure Library (F : Type) where
  upper : Char → Char
  upper_quote : ∀ c, upper c = quote ↔ c = quote
  /-- `strconv.ParseFloat` with 64 bits. -/
  parseFloat : Text → Option F
  /-- `strconv.Unquote` of a text in double quotes, without them. -/
  unquote : Text → Option Text
  unquote_nil : unquote [] = some []
  unquote_plain : ∀ c cs, c ≠ backslash → c ≠ doubleQuote → c ≠ lineFeed →
    unquote (c :: cs) = (unquote cs).map (c :: ·)
  unquote_lineFeed : ∀ cs, unquote (backslash :: 'n' :: cs) = (unquote cs).map (lineFeed :: ·)
  unquote_tab : ∀ cs, unquote (backslash :: 't' :: cs) = (unquote cs).map (tab :: ·)
  unquote_backslash : ∀ cs,
    unquote (backslash :: backslash :: cs) = (unquote cs).map (backslash :: ·)
  /-- The text would end there. -/
  unquote_doubleQuote : ∀ cs, unquote (doubleQuote :: cs) = none
  /-- Only the quote that the text is in can be escaped. -/
  unquote_quote : ∀ cs, unquote (backslash :: quote :: cs) = none
  /-- The last quote would be escaped. -/
  unquote_end : unquote [backslash] = none

def parseBool (v : Text) : Option Bool :=
  if (["1", "t", "T", "true", "TRUE", "True"].map String.toList).contains v then some true
  else if (["0", "f", "F", "false", "FALSE", "False"].map String.toList).contains v then some false
  else none

/-- `strings.ReplaceAll` of two quotes by one. -/
def replaceDoubled : Text → Text
  | [] => []
  | [c] => [c]
  | c :: d :: cs =>
    if c = quote ∧ d = quote then quote :: replaceDoubled cs else c :: replaceDoubled (d :: cs)

/-! ## Errors -/

inductive OptionError where
  | unsupported (k : Text)
  | invalidBool (k v : Text)
  | invalidInt (k v : Text)
  | invalidFloat (k v : Text)
  | invalidEscaped (k : Text)
  | invalidString (k v : Text)
  | expectedComma (rest : Text)
  deriving DecidableEq, Repr

inductive Failure where
  | error (e : OptionError)
  | panic
  deriving DecidableEq, Repr

/-- `v[i:j]`. -/
def slice (v : Text) (i j : ℕ) : Except Failure Text :=
  if i ≤ j ∧ j ≤ v.length then .ok ((v.take j).drop i) else .error .panic

/-! ## One option -/

variable {F : Type} (lib : Library F) (allowed : Text → Option OptionValueType)

/-- A result of the library, or the error for it. -/
def orError {α : Type} (r : Option α) (e : OptionError) : Except Failure α :=
  r.elim (.error (.error e)) .ok

def stringValue (k v : Text) : Except Failure Text :=
  if [('E' : Char), quote].isPrefixOf v ∧ [quote].isSuffixOf v then
    slice v 2 (v.length - 1) >>= fun inner => orError (lib.unquote inner) (.invalidEscaped k)
  else if [quote].isPrefixOf v ∧ [quote].isSuffixOf v then
    (slice v 1 (v.length - 1)).map replaceDoubled
  else .error (.error (.invalidString k v))

def optionValue (k v : Text) : OptionValueType → Except Failure (Value F)
  | .bool =>
    if v = [] then .ok (.bool true) else (orError (parseBool v) (.invalidBool k v)).map .bool
  | .int => (orError (atoi v) (.invalidInt k v)).map .int
  | .float => (orError (lib.parseFloat v) (.invalidFloat k v)).map .float
  | .string => (stringValue lib k v).map .string

/-- The variables of the function. -/
structure Scan (F : Type) where
  result : Text → Option (Value F)
  key : Text
  value : Text
  inQuotes : Bool
  expectComma : Bool
  readingKey : Bool
  sb : Text

def parseOption (s : Scan F) : Except Failure (Scan F) :=
  if trimSpace s.key = [] then .ok s
  else
    let k := (trimSpace s.key).map lib.upper
    match allowed k with
    | none => .error (.error (.unsupported k))
    | some type =>
      (optionValue lib k (trimSpace s.value) type).map fun v =>
        { s with
          result := Function.update s.result k (some v)
          key := []
          value := []
          readingKey := true }

/-- The word that was read becomes the key or the value. -/
def Scan.take (s : Scan F) : Scan F :=
  if s.readingKey then { s with key := s.sb } else { s with value := s.sb }

def Scan.write (s : Scan F) (c : Char) : Scan F := { s with sb := s.sb ++ [c] }

/-! ## The loop -/

/-- One round of the loop; `rest` is the text behind the rune. -/
def step (s : Scan F) (c : Char) (rest : Text) : Except Failure (Scan F) :=
  if s.expectComma = true ∧ c ≠ ',' ∧ unicodeSpace c = false then
    .error (.error (.expectedComma (c :: rest)))
  else if c = quote then .ok ({ s with inQuotes := !s.inQuotes }.write c)
  else if c = ',' then
    if s.inQuotes = false then
      (parseOption lib allowed s.take).map fun s' => { s' with expectComma := false, sb := [] }
    else .ok (s.write c)
  else if unicodeSpace c = true then
    if s.inQuotes = false then
      if s.sb = [] then .ok s
      else if s.readingKey then .ok { s with key := s.sb, sb := [], readingKey := false }
      else .ok { s with expectComma := true }
    else .ok (s.write c)
  else .ok (s.write c)

def loop : Scan F → Text → Except Failure (Scan F)
  | s, [] => .ok s
  | s, c :: cs => step lib allowed s c cs >>= fun s' => loop s' cs

def finish (s : Scan F) : Except Failure (Text → Option (Value F)) :=
  if s.sb = [] then .ok s.result else (parseOption lib allowed s.take).map Scan.result

/-- Before the first rune of an option, with what was read so far. -/
def Scan.clean (result : Text → Option (Value F)) : Scan F where
  result := result
  key := []
  value := []
  inQuotes := false
  expectComma := false
  readingKey := true
  sb := []

def parseFrom (s : Scan F) (options : Text) : Except Failure (Text → Option (Value F)) :=
  loop lib allowed s options >>= finish lib allowed

def parseCopyOptions (options : Text) : Except Failure (Text → Option (Value F)) :=
  parseFrom lib allowed (.clean fun _ => none) options

variable {lib allowed}

variable {s : Scan F} {c : Char} {w cs : Text} {q : Bool}

/-- An option that is taken is stored under its name. -/
theorem parseOption_ok {s' : Scan F} (h : parseOption lib allowed s = .ok s')
    (hkey : trimSpace s.key ≠ []) :
    ∃ type v, allowed ((trimSpace s.key).map lib.upper) = some type ∧
      optionValue lib ((trimSpace s.key).map lib.upper) (trimSpace s.value) type = .ok v ∧
      s' = { s with
        result := Function.update s.result ((trimSpace s.key).map lib.upper) (some v)
        key := []
        value := []
        readingKey := true } := by
  unfold parseOption at h
  rw [if_neg hkey] at h
  dsimp only at h
  cases htype : allowed ((trimSpace s.key).map lib.upper) with
  | none => simp [htype] at h
  | some type =>
    rw [htype] at h
    dsimp only at h
    cases hvalue : optionValue lib ((trimSpace s.key).map lib.upper) (trimSpace s.value) type with
    | error e => simp [hvalue, Except.map] at h
    | ok v =>
      rw [hvalue] at h
      exact ⟨type, v, rfl, hvalue, (Except.ok.inj h).symm⟩

/-! ## Words and white space -/

def Spaces (w : Text) : Prop := ∀ c ∈ w, unicodeSpace c = true

/-- Whether the text ends in quotes, when it begins in the state `q` and has
no comma and no white space outside of quotes. -/
def wordEnd : Bool → Text → Option Bool
  | q, [] => some q
  | q, c :: cs =>
    if c = quote then wordEnd (!q) cs
    else if q = false ∧ (c = ',' ∨ unicodeSpace c = true) then none
    else wordEnd q cs

theorem wordEnd_append (q : Bool) (a b : Text) :
    wordEnd q (a ++ b) = (wordEnd q a).bind (wordEnd · b) := by
  induction a generalizing q with
  | nil => rfl
  | cons c a ih =>
    rw [List.cons_append, wordEnd, wordEnd]
    split_ifs
    · exact ih (!q)
    · rfl
    · exact ih q

theorem space_ne (h : unicodeSpace c = true) : c ≠ quote ∧ c ≠ ',' := by
  constructor <;> (rintro rfl; revert h; decide)

/-- In quotes every text without a quote is part of the word. -/
theorem wordEnd_quoted (h : quote ∉ w) : wordEnd true w = some true := by
  induction w with
  | nil => rfl
  | cons c w ih =>
    obtain ⟨hc, hw⟩ := not_or.mp (mt List.mem_cons.mpr h)
    simp [wordEnd, Ne.symm hc, ih hw]

/-- Outside, one without white space and commas. -/
theorem wordEnd_plain (h : ∀ c ∈ w, c ≠ quote ∧ c ≠ ',' ∧ unicodeSpace c = false) :
    wordEnd false w = some false := by
  induction w with
  | nil => rfl
  | cons c w ih =>
    obtain ⟨h1, h2, h3⟩ := h c List.mem_cons_self
    simp [wordEnd, h1, h2, h3, ih fun d hd => h d (List.mem_cons_of_mem c hd)]

theorem trimSpace_eq (hfirst : ∀ c ∈ w.head?, unicodeSpace c = false)
    (hlast : ∀ c ∈ w.getLast?, unicodeSpace c = false) : trimSpace w = w := by
  have hdrop : w.dropWhile unicodeSpace = w := by
    cases w with
    | nil => rfl
    | cons c w => simp [hfirst c rfl]
  rw [trimSpace, hdrop, List.rdropWhile_eq_self_iff]
  intro hne
  simp [hlast _ (List.getLast?_eq_getLast_of_ne_nil hne)]

theorem word_head (h : wordEnd false w = some q) : ∀ c ∈ w.head?, unicodeSpace c = false := by
  cases w with
  | nil => simp
  | cons c w =>
    rintro d ⟨⟩
    by_contra hspace
    have hspace : unicodeSpace c = true := by simpa using hspace
    simp [wordEnd, space_ne hspace, hspace] at h

theorem word_last (h : wordEnd false w = some false) :
    ∀ c ∈ w.getLast?, unicodeSpace c = false := by
  intro c hc
  obtain ⟨w', rfl⟩ := List.getLast?_eq_some_iff.mp hc
  by_contra hspace
  have hspace : unicodeSpace c = true := by simpa using hspace
  rw [wordEnd_append] at h
  obtain ⟨q, -, hq⟩ := Option.bind_eq_some_iff.mp h
  cases q with
  | false => simp [wordEnd, space_ne hspace, hspace] at hq
  | true => simp [wordEnd, space_ne hspace] at hq

/-- A word that ends outside of quotes has no white space at its ends. -/
theorem trimSpace_word (h : wordEnd false w = some false) : trimSpace w = w :=
  trimSpace_eq (word_head h) (word_last h)

/-! ## Rounds of the loop -/

variable (lib allowed) in
theorem parseFrom_cons (s : Scan F) (c : Char) (cs : Text) :
    parseFrom lib allowed s (c :: cs) =
      step lib allowed s c cs >>= fun s' => parseFrom lib allowed s' cs := by
  unfold parseFrom
  rw [loop, bind_assoc]

theorem parseFrom_of_step {s' : Scan F} (h : step lib allowed s c cs = .ok s') :
    parseFrom lib allowed s (c :: cs) = parseFrom lib allowed s' cs := by
  rw [parseFrom_cons, h]
  rfl

theorem step_comma (hq : s.inQuotes = false) :
    step lib allowed s ',' cs =
      (parseOption lib allowed s.take).map fun s' =>
        { s' with expectComma := false, sb := [] } := by
  rw [step, if_neg (by simp), if_neg (by decide), if_pos rfl, if_pos hq]

theorem not_end (h : ¬(c = ',' ∧ q = false)) : c ≠ ',' ∨ q = true := by
  cases q with
  | false => exact .inl fun hc => h ⟨hc, rfl⟩
  | true => exact .inr rfl

/-- What a round does that does not end an option. -/
theorem step_cases {s' : Scan F} (hc : c ≠ ',' ∨ s.inQuotes = true)
    (h : step lib allowed s c cs = .ok s') :
    (s.expectComma = true → c = ',' ∨ unicodeSpace c = true) ∧
    ((c = quote ∧ s' = Scan.write { s with inQuotes := !s.inQuotes } c) ∨
      (unicodeSpace c = true ∧ s.inQuotes = false ∧
        s' = if s.sb = [] then s
          else if s.readingKey then { s with key := s.sb, sb := [], readingKey := false }
          else { s with expectComma := true }) ∨
      (c ≠ quote ∧ (s.inQuotes = false → c ≠ ',' ∧ unicodeSpace c = false) ∧ s' = s.write c)) := by
  by_cases hcomma : s.expectComma = true ∧ c ≠ ',' ∧ unicodeSpace c = false
  · simp [step, hcomma] at h
  refine ⟨fun he => ?_, ?_⟩
  · by_contra hnot
    obtain ⟨h1, h2⟩ := not_or.mp hnot
    exact hcomma ⟨he, h1, by simpa using h2⟩
  rw [step, if_neg hcomma] at h
  by_cases hquote : c = quote
  · rw [if_pos hquote] at h
    exact .inl ⟨hquote, (Except.ok.inj h).symm⟩
  rw [if_neg hquote] at h
  by_cases hspace : unicodeSpace c = true ∧ s.inQuotes = false
  · have hne := (space_ne hspace.1).2
    rw [if_neg hne, if_pos hspace.1, if_pos hspace.2] at h
    refine .inr (.inl ⟨hspace.1, hspace.2, ?_⟩)
    split_ifs at h ⊢ <;> exact (Except.ok.inj h).symm
  · refine .inr (.inr ⟨hquote, fun hq => ?_, ?_⟩)
    · refine ⟨hc.resolve_right (by simp [hq]), ?_⟩
      by_contra hs
      exact hspace ⟨by simpa using hs, hq⟩
    · by_cases hq : s.inQuotes = false
      · have h1 : c ≠ ',' := hc.resolve_right (by simp [hq])
        have h2 : ¬unicodeSpace c = true := fun hs => hspace ⟨hs, hq⟩
        rw [if_neg h1, if_neg h2] at h
        exact (Except.ok.inj h).symm
      · have hall : Except.ok (s.write c) = (Except.ok s' : Except Failure (Scan F)) := by
          simpa [hq] using h
        exact (Except.ok.inj hall).symm

theorem step_ne_panic (hc : c ≠ ',' ∨ s.inQuotes = true) :
    step lib allowed s c cs ≠ .error .panic := by
  intro h
  unfold step at h
  split_ifs at h with h1 h2 h3 h4
  · simp at h
  · rcases hc with hc | hc
    · exact hc h3
    · rw [hc] at h4
      exact Bool.noConfusion h4

theorem parseFrom_word (s : Scan F) (hcomma : s.expectComma = false)
    (h : wordEnd s.inQuotes w = some q) (cs : Text) :
    parseFrom lib allowed s (w ++ cs) =
      parseFrom lib allowed { s with sb := s.sb ++ w, inQuotes := q } cs := by
  induction w generalizing s with
  | nil =>
    obtain rfl : s.inQuotes = q := Option.some.inj h
    simp
  | cons c w ih =>
    rw [wordEnd] at h
    rw [List.cons_append]
    by_cases hquote : c = quote
    · rw [if_pos hquote] at h
      have hstep : step lib allowed s c (w ++ cs) =
          .ok ({ s with inQuotes := !s.inQuotes }.write c) := by
        simp [step, hcomma, hquote]
      rw [parseFrom_of_step hstep, ih (Scan.write { s with inQuotes := !s.inQuotes } c) hcomma h]
      simp [Scan.write]
    · rw [if_neg hquote] at h
      split_ifs at h with hend
      have hstep : step lib allowed s c (w ++ cs) = .ok (s.write c) := by
        by_cases hq : s.inQuotes = false
        · obtain ⟨hc, hspace⟩ := not_or.mp (not_and.mp hend hq)
          simp [step, hcomma, hquote, hc, hspace]
        · simp [step, hcomma, hquote, hq]
      rw [parseFrom_of_step hstep, ih (s.write c) hcomma h]
      simp [Scan.write]

/-- White space where no word is being read. -/
theorem parseFrom_spaces (s : Scan F) (hcomma : s.expectComma = false) (hq : s.inQuotes = false)
    (hsb : s.sb = []) (hw : Spaces w) (cs : Text) :
    parseFrom lib allowed s (w ++ cs) = parseFrom lib allowed s cs := by
  induction w with
  | nil => rfl
  | cons c w ih =>
    have hc := hw c List.mem_cons_self
    have hstep : step lib allowed s c (w ++ cs) = .ok s := by
      simp [step, hcomma, hq, hsb, hc, space_ne hc]
    rw [List.cons_append, parseFrom_of_step hstep]
    exact ih fun d hd => hw d (List.mem_cons_of_mem c hd)

theorem parseFrom_gap (s : Scan F) (hcomma : s.expectComma = false) (hq : s.inQuotes = false)
    (hkey : s.readingKey = true) (hsb : s.sb ≠ []) (hw : Spaces w) (hne : w ≠ []) (cs : Text) :
    parseFrom lib allowed s (w ++ cs) =
      parseFrom lib allowed { s with key := s.sb, sb := [], readingKey := false } cs := by
  obtain ⟨c, w, rfl⟩ := List.exists_cons_of_ne_nil hne
  have hc := hw c List.mem_cons_self
  have hstep : step lib allowed s c (w ++ cs) =
      .ok { s with key := s.sb, sb := [], readingKey := false } := by
    simp [step, hcomma, hq, hsb, hkey, hc, space_ne hc]
  rw [List.cons_append, parseFrom_of_step hstep]
  exact parseFrom_spaces { s with key := s.sb, sb := [], readingKey := false } hcomma hq rfl
    (fun d hd => hw d (List.mem_cons_of_mem c hd)) cs

theorem parseFrom_after (s : Scan F) (hq : s.inQuotes = false) (hkey : s.readingKey = false)
    (hsb : s.sb ≠ []) (hw : Spaces w) (hne : w ≠ []) (cs : Text) :
    parseFrom lib allowed s (w ++ cs) =
      parseFrom lib allowed { s with expectComma := true } cs := by
  induction w generalizing s with
  | nil => exact absurd rfl hne
  | cons c w ih =>
    have hc := hw c List.mem_cons_self
    have hstep : step lib allowed s c (w ++ cs) = .ok { s with expectComma := true } := by
      simp [step, hq, hsb, hkey, hc, space_ne hc]
    rw [List.cons_append, parseFrom_of_step hstep]
    by_cases hw' : w = []
    · subst hw'
      rfl
    · rw [ih { s with expectComma := true } hq hkey hsb
        (fun d hd => hw d (List.mem_cons_of_mem c hd)) hw']

theorem parseFrom_key {before name : Text} (hbefore : Spaces before)
    (hname : wordEnd false name = some q) (result : Text → Option (Value F)) (cs : Text) :
    parseFrom lib allowed (.clean result) (before ++ name ++ cs) =
      parseFrom lib allowed { Scan.clean result with sb := name, inQuotes := q } cs := by
  rw [List.append_assoc, parseFrom_spaces (.clean result) rfl rfl rfl hbefore,
    parseFrom_word (.clean result) rfl hname]
  rfl

theorem parseFrom_keyGap {before name gap : Text} (hbefore : Spaces before)
    (hname : wordEnd false name = some false) (hne : name ≠ []) (hgap : Spaces gap)
    (hgne : gap ≠ []) (result : Text → Option (Value F)) (cs : Text) :
    parseFrom lib allowed (.clean result) (before ++ name ++ gap ++ cs) =
      parseFrom lib allowed { Scan.clean result with key := name, readingKey := false } cs := by
  rw [List.append_assoc, parseFrom_key hbefore hname]
  exact parseFrom_gap { Scan.clean result with sb := name, inQuotes := false } rfl rfl rfl hne hgap
    hgne cs

/-! ## A library for samples -/

/-- The escapes of `strconv.Unquote` for single characters. -/
def unquoteSimple : Text → Option Text
  | [] => some []
  | [c] => if c = backslash ∨ c = doubleQuote ∨ c = lineFeed then none else some [c]
  | c :: d :: cs =>
    if c = backslash then
      if d = 'n' then (unquoteSimple cs).map (lineFeed :: ·)
      else if d = 't' then (unquoteSimple cs).map (tab :: ·)
      else if d = backslash then (unquoteSimple cs).map (backslash :: ·)
      else none
    else if c = doubleQuote ∨ c = lineFeed then none
    else (unquoteSimple (d :: cs)).map (c :: ·)

theorem unquoteSimple_plain (c : Char) (cs : Text) (h1 : c ≠ backslash) (h2 : c ≠ doubleQuote)
    (h3 : c ≠ lineFeed) : unquoteSimple (c :: cs) = (unquoteSimple cs).map (c :: ·) := by
  cases cs with
  | nil | cons d cs => simp [unquoteSimple, h1, h2, h3]

theorem unquoteSimple_doubleQuote (cs : Text) : unquoteSimple (doubleQuote :: cs) = none := by
  cases cs with
  | nil => rfl
  | cons d cs => rfl

theorem toUpper_quote (c : Char) : c.toUpper = quote ↔ c = quote := by
  unfold Char.toUpper
  split
  next h =>
    have hfirst : 97 ≤ c.toNat := h.1
    have hlast : c.toNat ≤ 122 := h.2
    constructor
    · intro heq
      have hnat := congrArg Char.toNat heq
      change (c.val + ('A'.val - 'a'.val)).toNat = 39 at hnat
      have hdiff : ('A'.val - 'a'.val).toNat = 2 ^ 32 - 32 := rfl
      have hc : c.val.toNat = c.toNat := rfl
      rw [UInt32.toNat_add, hdiff] at hnat
      omega
    · rintro rfl
      exact absurd hfirst (by decide)
  next => exact Iff.rfl

/-- Without floats. -/
def simpleLibrary : Library Unit where
  upper := Char.toUpper
  upper_quote := toUpper_quote
  parseFloat _ := none
  unquote := unquoteSimple
  unquote_nil := rfl
  unquote_plain := unquoteSimple_plain
  unquote_lineFeed _ := rfl
  unquote_tab _ := rfl
  unquote_backslash _ := rfl
  unquote_doubleQuote := unquoteSimple_doubleQuote
  unquote_quote _ := rfl
  unquote_end := rfl

def sampleAllowed (k : Text) : Option OptionValueType :=
  if k = "HEADER".toList then some .bool else if k = "NULL".toList then some .string else none

end MyDuck.CopyOptions
