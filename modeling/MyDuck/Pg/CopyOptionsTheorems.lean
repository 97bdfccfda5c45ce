/-
MyDuck.Pg.CopyOptionsTheorems — options that are printed and read back.

A printing of a map of options has white space where it may be, true with
or without the word, decimal numbers, and strings in one of the two forms.
`parse_printing_iff`: the map comes back unless

* a string in `E'...'` has a quote in it, which the loop takes for the end
  of the string and `strconv.Unquote` does not know as an escape, or a
  double quote, which ends the text that `strconv.Unquote` is given;
* a string stands directly behind its name: the two are then read as one
  name;
* the last option has no value, and white space behind it: the name is
  then kept as the key of an option to come, and nothing comes.
-/
import MyDuck.Pg.CopyOptions

namespace MyDuck.CopyOptions

open GoText
open Strings (doubleQuote backslash lineFeed)
open Strings renaming singleQuote → quote

variable {F : Type} {lib : Library F} {allowed : Text → Option OptionValueType}

/-! ## Values -/

theorem slice_between (a b c : Text) :
    slice (a ++ b ++ c) a.length (a.length + b.length) = .ok b := by
  have hle : a.length ≤ a.length + b.length ∧ a.length + b.length ≤ (a ++ b ++ c).length := by
    simp
  rw [slice, if_pos hle, ← List.length_append, List.take_left, List.drop_left]

theorem digit_class {c : Char} (h : c.isDigit = true) :
    c ≠ quote ∧ c ≠ ',' ∧ unicodeSpace c = false := by
  have hrange : 48 ≤ c.toNat ∧ c.toNat ≤ 57 := by
    simp only [Char.isDigit, Bool.and_eq_true, decide_eq_true_eq] at h
    exact h
  refine ⟨?_, ?_, ?_⟩
  · rintro rfl
    exact absurd h (by decide)
  · rintro rfl
    exact absurd h (by decide)
  · unfold unicodeSpace
    simp
    omega

theorem showInt_word (n : ℤ) : wordEnd false (showInt n) = some false := by
  apply wordEnd_plain
  have hdigits : ∀ c ∈ Nat.toDigits 10 n.natAbs, c ≠ quote ∧ c ≠ ',' ∧ unicodeSpace c = false :=
    fun c hc => digit_class (Nat.isDigit_of_mem_toDigits (by decide) (by decide) hc)
  unfold showInt
  split_ifs
  · intro c hc
    rcases List.mem_cons.mp hc with rfl | hc
    · decide
    · exact hdigits c hc
  · exact hdigits

def double (s : Text) : Text := s.flatMap fun c => if c = quote then [quote, quote] else [c]

theorem wordEnd_double (s : Text) : wordEnd true (double s) = some true := by
  induction s with
  | nil => rfl
  | cons c s ih =>
    have hcons : double (c :: s) = (if c = quote then [quote, quote] else [c]) ++ double s := rfl
    rw [hcons, wordEnd_append]
    by_cases hc : c = quote <;> simp [wordEnd, hc, ih]

theorem replaceDoubled_cons {c : Char} (hc : c ≠ quote) (w : Text) :
    replaceDoubled (c :: w) = c :: replaceDoubled w := by
  cases w with
  | nil => rfl
  | cons d w => simp [replaceDoubled, hc]

theorem replaceDoubled_double (s : Text) : replaceDoubled (double s) = s := by
  induction s with
  | nil => rfl
  | cons c s ih =>
    by_cases hc : c = quote
    · have hcons : double (c :: s) = quote :: quote :: double s := by simp [double, hc]
      rw [hcons, replaceDoubled, if_pos ⟨rfl, rfl⟩, ih, hc]
    · have hcons : double (c :: s) = c :: double s := by simp [double, hc]
      rw [hcons, replaceDoubled_cons hc, ih]

def escapeChar (c : Char) : Text :=
  if c = lineFeed then [backslash, 'n']
  else if c = tab then [backslash, 't']
  else if c = backslash then [backslash, backslash]
  else if c = quote then [backslash, quote]
  else [c]

def escape (s : Text) : Text := s.flatMap escapeChar

theorem quote_not_mem_escape {s : Text} (h : quote ∉ s) : quote ∉ escape s := by
  intro hmem
  obtain ⟨c, hc, hq⟩ := List.mem_flatMap.mp hmem
  have hne : c ≠ quote := fun heq => h (heq ▸ hc)
  unfold escapeChar at hq
  split_ifs at hq with h1 h2 h3
  · simp [quote, backslash] at hq
  · simp [quote, backslash] at hq
  · simp [quote, backslash] at hq
  · exact hne (List.mem_singleton.mp hq).symm

/-- What is in front of the first problem is read as it should be. -/
theorem unquote_escape (lib : Library F) {s : Text} (hq : quote ∉ s) (hd : doubleQuote ∉ s)
    (w : Text) : lib.unquote (escape s ++ w) = (lib.unquote w).map (s ++ ·) := by
  induction s with
  | nil => cases h : lib.unquote w <;> simp [escape, h]
  | cons c s ih =>
    obtain ⟨hq, hqs⟩ := not_or.mp (mt List.mem_cons.mpr hq)
    obtain ⟨hd, hds⟩ := not_or.mp (mt List.mem_cons.mpr hd)
    have hcons : escape (c :: s) ++ w = escapeChar c ++ (escape s ++ w) := by simp [escape]
    have hmap : ∀ r : Option Text, (r.map (s ++ ·)).map (c :: ·) = r.map (c :: s ++ ·) := by
      intro r
      cases r <;> rfl
    rw [hcons, escapeChar]
    split_ifs with h1 h2 h3 h4
    · subst h1
      rw [List.cons_append, List.singleton_append, lib.unquote_lineFeed, ih hqs hds, hmap]
    · subst h2
      rw [List.cons_append, List.singleton_append, lib.unquote_tab, ih hqs hds, hmap]
    · subst h3
      rw [List.cons_append, List.singleton_append, lib.unquote_backslash, ih hqs hds, hmap]
    · exact absurd h4.symm hq
    · rw [List.singleton_append, lib.unquote_plain c _ h3 (Ne.symm hd) h1, ih hqs hds, hmap]

/-- A double quote is not escaped, and ends the text. -/
theorem unquote_of_doubleQuote (lib : Library F) {s : Text} (hq : quote ∉ s)
    (hd : doubleQuote ∈ s) (w : Text) : lib.unquote (escape s ++ w) = none := by
  obtain ⟨a, b, hab, ha⟩ := List.eq_append_cons_of_mem hd
  subst hab
  have hqa : quote ∉ a := fun h => hq (List.mem_append_left _ h)
  have htext : escape (a ++ doubleQuote :: b) ++ w =
      escape a ++ (doubleQuote :: (escape b ++ w)) := by
    have hchar : escapeChar doubleQuote = [doubleQuote] := rfl
    simp [escape, hchar]
  rw [htext, unquote_escape lib hqa ha, lib.unquote_doubleQuote]
  rfl

/-! ## Printed options -/

/-- A value, and how it is printed: `bare` is true without the word. -/
inductive Shown where
  | bare
  | bool (b : Bool)
  | int (n : ℤ)
  | standard (s : Text)
  | escaped (s : Text)
  deriving DecidableEq, Repr

namespace Shown

def value : Shown → Value F
  | .bare => .bool true
  | .bool b => .bool b
  | .int n => .int n
  | .standard s => .string s
  | .escaped s => .string s

def type : Shown → OptionValueType
  | .bare => .bool
  | .bool _ => .bool
  | .int _ => .int
  | .standard _ => .string
  | .escaped _ => .string

def text : Shown → Text
  | .bare => []
  | .bool true => "TRUE".toList
  | .bool false => "FALSE".toList
  | .int n => showInt n
  | .standard s => [quote] ++ double s ++ [quote]
  | .escaped s => ['E', quote] ++ escape s ++ [quote]

/-- What may stand directly behind a name: nothing, and a string. -/
def Closes : Shown → Prop
  | .bool _ => False
  | .int _ => False
  | _ => True

/-- Integers have 64 bits. -/
def Fits : Shown → Prop
  | .int n => -2 ^ 63 ≤ n ∧ n < 2 ^ 63
  | _ => True

/-- A string with escapes has none of the two quotes in it. -/
def Readable : Shown → Prop
  | .escaped s => quote ∉ s ∧ doubleQuote ∉ s
  | _ => True

variable {v : Shown}

theorem text_word (h : ∀ s, v = .escaped s → quote ∉ s) : wordEnd false v.text = some false := by
  cases v with
  | bare => rfl
  | bool b => cases b <;> decide
  | int n => exact showInt_word n
  | standard s =>
    have hstart : wordEnd false [quote] = some true := rfl
    rw [text, wordEnd_append, wordEnd_append, hstart, Option.bind_some, wordEnd_double]
    rfl
  | escaped s =>
    have hstart : wordEnd false ['E', quote] = some true := by decide
    rw [text, wordEnd_append, wordEnd_append, hstart, Option.bind_some,
      wordEnd_quoted (quote_not_mem_escape (h s rfl))]
    rfl

theorem text_ne (h : v ≠ .bare) : v.text ≠ [] := by
  cases v with
  | bare => exact absurd rfl h
  | bool b => cases b <;> decide
  | int n =>
    show showInt n ≠ []
    unfold showInt
    split_ifs
    · simp
    · exact Nat.toDigits_ne_nil
  | standard s | escaped s => simp [text]

/-- A string opens quotes. -/
theorem text_opens (h : v.Closes) (hbare : v ≠ .bare) :
    ∃ lead tail, v.text = lead ++ [quote] ++ tail ∧
      wordEnd false (lead ++ [quote]) = some true := by
  cases v with
  | bare => exact absurd rfl hbare
  | bool b | int n => exact absurd h id
  | standard s => exact ⟨[], double s ++ [quote], by simp [text], rfl⟩
  | escaped s => exact ⟨['E'], escape s ++ [quote], by simp [text], by decide⟩

theorem quote_of_readable (h : v.Readable) : ∀ s, v = .escaped s → quote ∉ s := by
  rintro s rfl
  exact h.1

end Shown

theorem stringValue_standard (lib : Library F) (k s : Text) :
    stringValue lib k (Shown.standard s).text = .ok s := by
  have hslice : slice ([quote] ++ double s ++ [quote]) 1 (1 + (double s).length) = .ok (double s) :=
    slice_between [quote] (double s) [quote]
  have hlen : ([quote] ++ double s ++ [quote]).length - 1 = 1 + (double s).length := by
    simp
    omega
  have hnot : ¬([('E' : Char), quote].isPrefixOf ([quote] ++ double s ++ [quote]) = true ∧
      [quote].isSuffixOf ([quote] ++ double s ++ [quote]) = true) := by
    rintro ⟨h, -⟩
    exact absurd h (by simp [List.isPrefixOf, quote])
  have hboth : [quote].isPrefixOf ([quote] ++ double s ++ [quote]) = true ∧
      [quote].isSuffixOf ([quote] ++ double s ++ [quote]) = true := by
    constructor
    · simp [List.isPrefixOf]
    · simp [List.isSuffixOf]
  rw [Shown.text, stringValue, if_neg hnot, if_pos hboth, hlen, hslice]
  exact congrArg Except.ok (replaceDoubled_double s)

theorem stringValue_escape (lib : Library F) (k w : Text) :
    stringValue lib k (['E', quote] ++ w ++ [quote]) =
      orError (lib.unquote w) (.invalidEscaped k) := by
  have hslice : slice (['E', quote] ++ w ++ [quote]) 2 (2 + w.length) = .ok w :=
    slice_between ['E', quote] w [quote]
  have hlen : (['E', quote] ++ w ++ [quote]).length - 1 = 2 + w.length := by
    simp
    omega
  have hboth : [('E' : Char), quote].isPrefixOf (['E', quote] ++ w ++ [quote]) = true ∧
      [quote].isSuffixOf (['E', quote] ++ w ++ [quote]) = true := by
    constructor
    · simp [List.isPrefixOf]
    · simp [List.isSuffixOf]
  rw [stringValue, if_pos hboth, hlen, hslice]
  rfl

/-- The value of a readable text. -/
theorem optionValue_text (lib : Library F) (k : Text) {v : Shown} (hfits : v.Fits)
    (hread : v.Readable) :
    optionValue lib k v.text v.type = .ok v.value := by
  cases v with
  | bare => rfl
  | bool b => cases b <;> rfl
  | int n =>
    show (orError (atoi (showInt n)) _).map _ = _
    rw [atoi_showInt hfits.1 hfits.2]
    rfl
  | standard s =>
    show (stringValue lib k _).map _ = _
    rw [stringValue_standard]
    rfl
  | escaped s =>
    show (stringValue lib k _).map _ = _
    have hvalue := unquote_escape lib hread.1 hread.2 []
    rw [List.append_nil, lib.unquote_nil, Option.map_some, List.append_nil] at hvalue
    rw [Shown.text, stringValue_escape, hvalue]
    rfl

/-- One option as it is printed. -/
structure Printed where
  before : Text
  name : Text
  gap : Text
  shown : Shown
  after : Text
  before_spaces : Spaces before
  name_ne : name ≠ []
  name_plain : ∀ c ∈ name, c ≠ quote ∧ c ≠ ',' ∧ unicodeSpace c = false
  gap_spaces : Spaces gap
  gap_of_bare : shown = .bare → gap = []
  gap_nil : gap = [] → shown.Closes
  after_spaces : Spaces after
  fits : shown.Fits

namespace Printed

def text (o : Printed) : Text := o.before ++ o.name ++ o.gap ++ o.shown.text ++ o.after

/-- There is white space between the name and the value. -/
def Apart (o : Printed) : Prop := o.gap = [] → o.shown = .bare

/-- The name of the option in upper case. -/
def key (lib : Library F) (o : Printed) : Text := o.name.map lib.upper

/-- The variables behind the text of an option. -/
def read (o : Printed) (result : Text → Option (Value F)) : Scan F :=
  if o.shown = .bare then
    if o.after = [] then { Scan.clean result with sb := o.name }
    else { Scan.clean result with key := o.name, readingKey := false }
  else
    { Scan.clean result with
      key := o.name, readingKey := false, sb := o.shown.text, expectComma := o.after ≠ [] }

def store (lib : Library F) (o : Printed) (result : Text → Option (Value F)) :
    Text → Option (Value F) :=
  Function.update result (o.key lib) (some o.shown.value)

theorem parseFrom_name (o : Printed) (result : Text → Option (Value F)) (cs : Text) :
    parseFrom lib allowed (.clean result) (o.before ++ o.name ++ cs) =
      parseFrom lib allowed { Scan.clean result with sb := o.name } cs :=
  parseFrom_key o.before_spaces (wordEnd_plain o.name_plain) result cs

theorem parseFrom_value (o : Printed) (hapart : o.Apart) (hbare : o.shown ≠ .bare)
    (result : Text → Option (Value F)) (cs : Text) :
    parseFrom lib allowed (.clean result) (o.before ++ o.name ++ o.gap ++ cs) =
      parseFrom lib allowed { Scan.clean result with key := o.name, readingKey := false } cs := by
  exact parseFrom_keyGap o.before_spaces (wordEnd_plain o.name_plain) o.name_ne o.gap_spaces
    (fun h => hbare (hapart h)) result cs

/-- The text of an option, when its quotes are where they seem to be. -/
theorem parseFrom_text (o : Printed) (hapart : o.Apart)
    (hquotes : ∀ s, o.shown = .escaped s → quote ∉ s) (result : Text →
      Option (Value F)) (cs : Text) :
    parseFrom lib allowed (.clean result) (o.text ++ cs) =
      parseFrom lib allowed (o.read result) cs := by
  unfold read
  by_cases hbare : o.shown = .bare
  · have htext : o.text ++ cs = o.before ++ o.name ++ (o.after ++ cs) := by
      simp [text, o.gap_of_bare hbare, hbare, Shown.text]
    rw [htext, parseFrom_name, if_pos hbare]
    by_cases hafter : o.after = []
    · rw [if_pos hafter, hafter, List.nil_append]
    · rw [if_neg hafter, parseFrom_gap { Scan.clean result with sb := o.name } rfl rfl rfl
        o.name_ne o.after_spaces hafter]
      rfl
  · have htext : o.text ++ cs =
        o.before ++ o.name ++ o.gap ++ (o.shown.text ++ (o.after ++ cs)) := by
      simp [text]
    rw [htext, parseFrom_value o hapart hbare, if_neg hbare,
      parseFrom_word { Scan.clean result with key := o.name, readingKey := false } rfl
        (Shown.text_word hquotes)]
    by_cases hafter : o.after = []
    · simp [hafter, Scan.clean]
    · have hne : o.shown.text ≠ [] := Shown.text_ne hbare
      rw [parseFrom_after _ rfl rfl (by simpa [Scan.clean] using hne) o.after_spaces hafter]
      simp [hafter, Scan.clean]

theorem take_read (o : Printed) (result : Text → Option (Value F)) :
    (o.read result).take =
      { Scan.clean result with
        key := o.name
        value := o.shown.text
        readingKey := (o.read result).readingKey
        sb := (o.read result).sb
        expectComma := (o.read result).expectComma } := by
  unfold read
  by_cases hbare : o.shown = .bare
  · by_cases hafter : o.after = [] <;> simp [hbare, hafter, Scan.take, Scan.clean, Shown.text]
  · simp [hbare, Scan.take, Scan.clean]

theorem parseOption_read (o : Printed) (hallowed : allowed (o.key lib) = some o.shown.type)
    (hquotes : ∀ s, o.shown = .escaped s → quote ∉ s) (result : Text → Option (Value F)) :
    parseOption lib allowed (o.read result).take =
      (optionValue lib (o.key lib) o.shown.text o.shown.type).map fun v =>
        { Scan.clean (Function.update result (o.key lib) (some v)) with
          sb := (o.read result).sb
          expectComma := (o.read result).expectComma } := by
  have hname : trimSpace o.name = o.name := trimSpace_word (wordEnd_plain o.name_plain)
  have hvalue : trimSpace o.shown.text = o.shown.text := trimSpace_word (Shown.text_word hquotes)
  have hkey : allowed (o.name.map lib.upper) = some o.shown.type := hallowed
  rw [take_read, parseOption]
  simp only [hname, hvalue, o.name_ne, if_false, hkey]
  rfl

theorem parseOption_readable (o : Printed) (hallowed : allowed (o.key lib) = some o.shown.type)
    (hread : o.shown.Readable) (result : Text → Option (Value F)) :
    parseOption lib allowed (o.read result).take =
      .ok { Scan.clean (o.store lib result) with
        sb := (o.read result).sb
        expectComma := (o.read result).expectComma } := by
  rw [parseOption_read o hallowed (Shown.quote_of_readable hread),
    optionValue_text lib _ o.fits hread]
  rfl

/-- A readable option with a comma behind it. -/
theorem parseFrom_comma (o : Printed) (hallowed : allowed (o.key lib) = some o.shown.type)
    (hapart : o.Apart) (hread : o.shown.Readable) (result : Text → Option (Value F)) (cs : Text) :
    parseFrom lib allowed (.clean result) (o.text ++ ',' :: cs) =
      parseFrom lib allowed (.clean (o.store lib result)) cs := by
  have hin : (o.read result).inQuotes = false := by
    unfold read
    split_ifs <;> rfl
  have hstep : step lib allowed (o.read result) ',' cs = .ok (.clean (o.store lib result)) := by
    rw [step, if_neg (by simp), if_neg (by decide), if_pos rfl, if_pos hin,
      parseOption_readable o hallowed hread]
    rfl
  rw [parseFrom_text o hapart (Shown.quote_of_readable hread), parseFrom_of_step hstep]

/-- The last option; one without a value and with white space behind it is
lost. -/
theorem parseFrom_last (o : Printed) (hallowed : allowed (o.key lib) = some o.shown.type)
    (hapart : o.Apart) (hread : o.shown.Readable) (result : Text → Option (Value F)) :
    parseFrom lib allowed (.clean result) o.text =
      .ok (if o.shown = .bare ∧ o.after ≠ [] then result else o.store lib result) := by
  have htext := (parseFrom_text o hapart (Shown.quote_of_readable hread) result [] :
    parseFrom lib allowed _ _ = _)
  rw [List.append_nil] at htext
  rw [htext]
  show finish lib allowed (o.read result) = _
  by_cases hlost : o.shown = .bare ∧ o.after ≠ []
  · simp [hlost, finish, read, Scan.clean]
  · have hsb : (o.read result).sb ≠ [] := by
      unfold read
      by_cases hbare : o.shown = .bare
      · have hafter : o.after = [] := by
          by_contra hne
          exact hlost ⟨hbare, hne⟩
        simpa [hbare, hafter] using o.name_ne
      · simpa [hbare] using Shown.text_ne hbare
    rw [finish, if_neg hsb, parseOption_readable o hallowed hread, if_neg hlost]
    rfl

end Printed

/-! ## A quote behind a backslash -/

/-- A text in `E'...'` up to its first escaped quote. -/
def opening (a : Text) : Text := ['E', quote] ++ escape a ++ [backslash, quote]

variable {s : Scan F} {w : Text} {result r : Text → Option (Value F)} {os : List Printed}

theorem unquote_opening (lib : Library F) {a : Text} (ha : quote ∉ a) (hw : lib.unquote w = none) :
    lib.unquote (escape a ++ w) = none := by
  by_cases hd : doubleQuote ∈ a
  · exact unquote_of_doubleQuote lib ha hd w
  · rw [unquote_escape lib ha hd, hw]
    rfl

/-- Whatever follows, it is no value. -/
theorem stringValue_opening (lib : Library F) (k : Text) {a : Text} (ha : quote ∉ a) (u : Text) :
    ∃ e, stringValue lib k (opening a ++ u) = .error (.error e) := by
  by_cases hsuffix : [quote].isSuffixOf (opening a ++ u) = true
  · obtain ⟨w, hw, hnone⟩ : ∃ w, opening a ++ u = ['E', quote] ++ w ++ [quote] ∧
        lib.unquote w = none := by
      rcases List.eq_nil_or_concat u with rfl | ⟨u', c, rfl⟩
      · exact ⟨escape a ++ [backslash], by simp [opening],
          unquote_opening lib ha lib.unquote_end⟩
      · obtain rfl : c = quote := by
          obtain ⟨t, ht⟩ := List.isSuffixOf_iff_suffix.mp hsuffix
          rw [List.concat_eq_append, ← List.append_assoc] at ht
          simpa using (List.append_inj' ht rfl).2.symm
        exact ⟨escape a ++ (backslash :: quote :: u'), by simp [opening],
          unquote_opening lib ha (lib.unquote_quote u')⟩
    exact ⟨.invalidEscaped k, by rw [hw, stringValue_escape, hnone]; rfl⟩
  · exact ⟨.invalidString k (opening a ++ u), by simp [stringValue, hsuffix]⟩

theorem trimSpace_opening (a u : Text) : ∃ u', trimSpace (opening a ++ u) = opening a ++ u' := by
  have hdrop : (opening a ++ u).dropWhile unicodeSpace = opening a ++ u := by
    have hE : unicodeSpace 'E' = false := by decide
    simp [opening, hE]
  rw [trimSpace, hdrop, List.rdropWhile, List.reverse_append, List.dropWhile_append]
  split_ifs
  · refine ⟨[], ?_⟩
    have hq : unicodeSpace quote = false := by decide
    simp [opening, hq]
  · exact ⟨(u.reverse.dropWhile unicodeSpace).reverse, by simp⟩

/-- In the middle of such a value. -/
structure Poisoned (lib : Library F) (allowed : Text → Option OptionValueType) (s : Scan F) :
    Prop where
  readingValue : s.readingKey = false
  named : trimSpace s.key ≠ []
  string : allowed ((trimSpace s.key).map lib.upper) = some .string
  opened : ∃ a u, quote ∉ a ∧ s.sb = opening a ++ u

theorem Poisoned.parseOption (h : Poisoned lib allowed s) :
    ∃ e, parseOption lib allowed s.take = .error (.error e) := by
  obtain ⟨a, u, ha, hsb⟩ := h.opened
  obtain ⟨u', hu'⟩ := trimSpace_opening a u
  obtain ⟨e, he⟩ := stringValue_opening lib ((trimSpace s.key).map lib.upper) ha u'
  have htake : s.take = { s with value := s.sb } := by simp [Scan.take, h.readingValue]
  refine ⟨e, ?_⟩
  rw [htake, CopyOptions.parseOption]
  simp only [h.named, if_false, h.string, hsb, hu', optionValue, he]
  rfl

theorem Poisoned.write (h : Poisoned lib allowed s) (q : Bool) (c : Char) :
    Poisoned lib allowed (Scan.write { s with inQuotes := q } c) := by
  obtain ⟨a, u, ha, hsb⟩ := h.opened
  exact ⟨h.readingValue, h.named, h.string, a, u ++ [c], ha, by simp [Scan.write, hsb]⟩

/-- The value ends in an error, at a comma or at the end of the text. -/
theorem Poisoned.fails (h : Poisoned lib allowed s) (cs : Text) :
    ∃ e, parseFrom lib allowed s cs = .error (.error e) := by
  induction cs generalizing s with
  | nil =>
    obtain ⟨a, u, -, hsb⟩ := h.opened
    obtain ⟨e, he⟩ := h.parseOption
    have hne : s.sb ≠ [] := by simp [hsb, opening]
    refine ⟨e, ?_⟩
    show finish lib allowed s = _
    rw [finish, if_neg hne, he]
    rfl
  | cons c cs ih =>
    rw [parseFrom_cons]
    by_cases hend : c = ',' ∧ s.inQuotes = false
    · obtain ⟨rfl, hq⟩ := hend
      obtain ⟨e, he⟩ := h.parseOption
      exact ⟨e, by rw [step_comma hq, he]; rfl⟩
    · cases hstep : step lib allowed s c cs with
      | error e =>
        cases e with
        | error e => exact ⟨e, rfl⟩
        | panic => exact absurd hstep (step_ne_panic (not_end hend))
      | ok s' =>
        refine ih ?_
        obtain ⟨-, ⟨-, rfl⟩ | ⟨-, -, rfl⟩ | ⟨-, -, rfl⟩⟩ := step_cases (not_end hend) hstep
        · exact h.write _ c
        · split_ifs with hsb hkey
          · exact h
          · cases hkey.symm.trans h.readingValue
          · exact ⟨h.readingValue, h.named, h.string, h.opened⟩
        · exact h.write s.inQuotes c

/-- An option that is not readable, in front of a comma or at the end. -/
theorem Printed.unreadable_fails (o : Printed)
    (hallowed : allowed (o.key lib) = some o.shown.type) (hapart : o.Apart)
    (hread : ¬o.shown.Readable) (result : Text →
      Option (Value F)) {rest : Text} (hrest : ∀ c ∈ rest.head?, c = ',') :
    ∃ e, parseFrom lib allowed (.clean result) (o.text ++ rest) = .error (.error e) := by
  obtain ⟨s, hs⟩ : ∃ s, o.shown = .escaped s := by
    cases hv : o.shown with
    | escaped s => exact ⟨s, rfl⟩
    | _ => exact absurd (by rw [hv]; trivial) hread
  have hbare : o.shown ≠ .bare := by simp [hs]
  have htype : o.shown.type = .string := by rw [hs]; rfl
  have hname : trimSpace o.name = o.name := trimSpace_word (wordEnd_plain o.name_plain)
  by_cases hq : quote ∈ s
  · -- the loop takes the escaped quote for the end of the string
    obtain ⟨a, b, rfl, ha⟩ := List.eq_append_cons_of_mem hq
    have hchar : escapeChar quote = [backslash, quote] := rfl
    have htext : o.text ++ rest = o.before ++ o.name ++ o.gap ++
        (opening a ++ (escape b ++ [quote] ++ o.after ++ rest)) := by
      simp [Printed.text, hs, Shown.text, opening, escape, hchar]
    have hword : wordEnd false (opening a) = some false := by
      have hstart : wordEnd false ['E', quote] = some true := by decide
      rw [opening, wordEnd_append, wordEnd_append, hstart, Option.bind_some,
        wordEnd_quoted (quote_not_mem_escape ha)]
      rfl
    rw [htext, Printed.parseFrom_value o hapart hbare, parseFrom_word _ rfl hword]
    refine Poisoned.fails ⟨rfl, ?_, ?_, a, [], ha, by simp [Scan.clean]⟩ _
    · show trimSpace o.name ≠ []
      rw [hname]
      exact o.name_ne
    · show allowed ((trimSpace o.name).map lib.upper) = some .string
      rw [hname, ← htype]
      exact hallowed
  · have hquotes : ∀ s', o.shown = .escaped s' → quote ∉ s' := by
      intro s' hs'
      obtain rfl : s = s' := Shown.escaped.inj (hs.symm.trans hs')
      exact hq
    have hd : doubleQuote ∈ s := by
      by_contra hd
      exact hread (by rw [hs]; exact ⟨hq, hd⟩)
    have hvalue : optionValue lib (o.key lib) o.shown.text o.shown.type =
        .error (.error (.invalidEscaped (o.key lib))) := by
      have hnone := unquote_of_doubleQuote lib hq hd []
      rw [List.append_nil] at hnone
      rw [hs]
      show (stringValue lib _ (['E', quote] ++ escape s ++ [quote])).map _ = _
      rw [stringValue_escape, hnone]
      rfl
    have hparse := Printed.parseOption_read o hallowed hquotes result
    rw [hvalue] at hparse
    refine ⟨.invalidEscaped (o.key lib), ?_⟩
    rw [Printed.parseFrom_text o hapart hquotes]
    have hread' : o.read result = { Scan.clean result with
        key := o.name, readingKey := false, sb := o.shown.text, expectComma := o.after ≠ [] } :=
      if_neg hbare
    cases rest with
    | nil =>
      have hsb : (o.read result).sb ≠ [] := by
        rw [hread']
        exact Shown.text_ne hbare
      show finish lib allowed (o.read result) = _
      rw [finish, if_neg hsb, hparse]
      rfl
    | cons c rest =>
      obtain rfl : c = ',' := hrest c rfl
      have hin : (o.read result).inQuotes = false := by rw [hread']; rfl
      rw [parseFrom_cons, step_comma hin, hparse]
      rfl

/-! ## A string directly behind its name -/

/-- A name in the result has a quote in it. -/
def HasQuoted (result : Text → Option (Value F)) : Prop := ∃ k, quote ∈ k ∧ result k ≠ none

/-- A name with a quote in it is in the result, or is being read and the
result is as it was. -/
def Glued (result : Text → Option (Value F)) (s : Scan F) : Prop :=
  HasQuoted s.result ∨ quote ∈ s.take.key ∧ s.result = result

theorem quote_mem_trimSpace (h : quote ∈ w) : quote ∈ trimSpace w := by
  have hq : unicodeSpace quote = false := by decide
  have hdrop : ∀ w : Text, quote ∈ w → quote ∈ w.dropWhile unicodeSpace := by
    intro w hw
    rw [← List.takeWhile_append_dropWhile (p := unicodeSpace) (l := w), List.mem_append] at hw
    refine hw.resolve_left fun hmem => ?_
    rw [List.mem_takeWhile_imp hmem] at hq
    cases hq
  rw [trimSpace, List.rdropWhile, List.mem_reverse]
  exact hdrop _ (List.mem_reverse.mpr (hdrop w h))

theorem parseOption_quoted {s' : Scan F} (h : parseOption lib allowed s.take = .ok s')
    (hs : Glued result s) : HasQuoted s'.result := by
  have htake : s.take.result = s.result := by
    unfold Scan.take
    split_ifs <;> rfl
  by_cases hnil : trimSpace s.take.key = []
  · rw [parseOption, if_pos hnil] at h
    rcases hs with hs | ⟨hkey, -⟩
    · rwa [← Except.ok.inj h, htake]
    · have hmem := quote_mem_trimSpace hkey
      rw [hnil] at hmem
      cases hmem
  · obtain ⟨type, v, -, -, rfl⟩ := parseOption_ok h hnil
    dsimp only
    rw [htake]
    rcases hs with ⟨k, hk, hsome⟩ | ⟨hkey, -⟩
    · refine ⟨k, hk, ?_⟩
      rw [Function.update_apply]
      split_ifs
      · simp
      · exact hsome
    · refine ⟨_, List.mem_map.mpr ⟨quote, quote_mem_trimSpace hkey,
        (lib.upper_quote quote).mpr rfl⟩, ?_⟩
      simp

theorem Glued.step {s' : Scan F} {c : Char} {cs : Text} (hs : Glued result s)
    (h : step lib allowed s c cs = .ok s') : Glued result s' := by
  by_cases hend : c = ',' ∧ s.inQuotes = false
  · obtain ⟨rfl, hq⟩ := hend
    rw [step_comma hq] at h
    cases hparse : CopyOptions.parseOption lib allowed s.take with
    | error e => simp [hparse, Except.map] at h
    | ok t =>
      rw [hparse] at h
      rw [← Except.ok.inj h]
      exact .inl (show HasQuoted t.result from parseOption_quoted hparse hs)
  · have hround : s'.result = s.result ∧ (quote ∈ s.take.key → quote ∈ s'.take.key) := by
      obtain ⟨-, ⟨-, rfl⟩ | ⟨-, -, rfl⟩ | ⟨-, -, rfl⟩⟩ := step_cases (not_end hend) h
      · cases hkey : s.readingKey <;> simp +contextual [Scan.take, Scan.write, hkey]
      · by_cases hsb : s.sb = []
        · simp [hsb]
        · cases hkey : s.readingKey <;> simp [Scan.take, hkey, hsb]
      · cases hkey : s.readingKey <;> simp +contextual [Scan.take, Scan.write, hkey]
    rcases hs with hs | ⟨hkey, hresult⟩
    · exact .inl (by rwa [hround.1])
    · exact .inr ⟨hround.2 hkey, hround.1.trans hresult⟩

/-- **Such a name** gets into the result, or is lost. -/
theorem Glued.parseFrom {cs : Text} (hs : Glued result s) (h : parseFrom lib allowed s cs = .ok r) :
    HasQuoted r ∨ r = result := by
  induction cs generalizing s with
  | nil =>
    have hfinish : finish lib allowed s = .ok r := h
    unfold finish at hfinish
    split_ifs at hfinish
    · obtain rfl := Except.ok.inj hfinish
      exact hs.imp_right And.right
    · cases hparse : parseOption lib allowed s.take with
      | error e => simp [hparse, Except.map] at hfinish
      | ok t =>
        rw [hparse] at hfinish
        rw [← Except.ok.inj hfinish]
        exact .inl (parseOption_quoted hparse hs)
  | cons c cs ih =>
    rw [parseFrom_cons] at h
    cases hstep : CopyOptions.step lib allowed s c cs with
    | error e =>
      rw [hstep] at h
      cases h
    | ok s' =>
      rw [hstep] at h
      exact ih (hs.step hstep) h

theorem Printed.glued_parse (o : Printed) (hapart : ¬o.Apart) {rest : Text}
    (h : parseFrom lib allowed (.clean result) (o.text ++ rest) = .ok r) :
    HasQuoted r ∨ r = result := by
  obtain ⟨hgap, hbare⟩ := Classical.not_imp.mp hapart
  obtain ⟨lead, tail, hopens, hword⟩ := Shown.text_opens (o.gap_nil hgap) hbare
  have htext : o.text ++ rest =
      o.before ++ o.name ++ (lead ++ [quote] ++ (tail ++ o.after ++ rest)) := by
    simp [Printed.text, hgap, hopens]
  rw [htext, Printed.parseFrom_name,
    parseFrom_word { Scan.clean result with sb := o.name } rfl hword] at h
  refine Glued.parseFrom (.inr ⟨?_, rfl⟩) h
  simp [Scan.take, Scan.clean]

/-! ## A list of options -/

/-- A map of options, printed one behind the other. -/
structure Printing (lib : Library F) (allowed : Text → Option OptionValueType) where
  options : List Printed
  allowed_type : ∀ o ∈ options, allowed (o.key lib) = some o.shown.type
  distinct : (options.map (Printed.key lib)).Nodup

def printed (os : List Printed) : Text := [','].intercalate (os.map Printed.text)

theorem printed_cons (o : Printed) (h : os ≠ []) :
    printed (o :: os) = o.text ++ ',' :: printed os := by
  obtain ⟨o', os, rfl⟩ := List.exists_cons_of_ne_nil h
  simp [printed, List.intercalate_cons_cons]

def mapOf (lib : Library F) (os : List Printed) (k : Text) : Option (Value F) :=
  (os.find? fun o => o.key lib = k).map fun o => o.shown.value

def stored (lib : Library F) (os : List Printed) (result : Text → Option (Value F)) :
    Text → Option (Value F) :=
  os.foldl (fun r o => o.store lib r) result

theorem stored_apply (h : (os.map (Printed.key lib)).Nodup) (result : Text → Option (Value F))
    (k : Text) : stored lib os result k = (mapOf lib os k).or (result k) := by
  induction os generalizing result with
  | nil => rfl
  | cons o os ih =>
    obtain ⟨hnot, hnodup⟩ := List.nodup_cons.mp h
    show stored lib os (o.store lib result) k = _
    rw [ih hnodup]
    by_cases hk : o.key lib = k
    · subst hk
      have hnone : mapOf lib os (o.key lib) = none := by
        rw [mapOf, Option.map_eq_none_iff, List.find?_eq_none]
        intro o' ho' heq
        exact hnot (List.mem_map.mpr ⟨o', ho', by simpa using heq⟩)
      rw [hnone]
      simp [mapOf, Printed.store]
    · simp [mapOf, hk, Printed.store, Function.update_of_ne (Ne.symm hk)]

theorem stored_empty (h : (os.map (Printed.key lib)).Nodup) :
    stored lib os (fun _ => none) = mapOf lib os := by
  funext k
  rw [stored_apply h, Option.or_none]

/-- The last option has no value, and white space behind it. -/
def Lost (os : List Printed) : Prop := ∃ o ∈ os.getLast?, o.shown = .bare ∧ o.after ≠ []

theorem parse_readable (hallowed : ∀ o ∈ os, allowed (o.key lib) = some o.shown.type)
    (hread : ∀ o ∈ os, o.Apart ∧ o.shown.Readable) (result : Text → Option (Value F)) :
    (¬Lost os → parseFrom lib allowed (.clean result) (printed os) = .ok (stored lib os result)) ∧
      (Lost os → parseFrom lib allowed (.clean result) (printed os) =
        .ok (stored lib os.dropLast result)) := by
  induction os generalizing result with
  | nil =>
    refine ⟨fun _ => rfl, ?_⟩
    rintro ⟨o, ho, -⟩
    simp at ho
  | cons o os ih =>
    have ho := hallowed o List.mem_cons_self
    obtain ⟨ha, hr⟩ := hread o List.mem_cons_self
    by_cases hos : os = []
    · subst hos
      have hlost : Lost [o] ↔ o.shown = .bare ∧ o.after ≠ [] := by simp [Lost]
      have htext : printed [o] = o.text := by simp [printed]
      rw [hlost, htext, Printed.parseFrom_last o ho ha hr]
      exact ⟨fun h => by rw [if_neg h]; rfl, fun h => by rw [if_pos h]; rfl⟩
    · obtain ⟨o', os', rfl⟩ := List.exists_cons_of_ne_nil hos
      have hlost : Lost (o :: o' :: os') ↔ Lost (o' :: os') := by simp [Lost]
      rw [hlost, printed_cons o hos, Printed.parseFrom_comma o ho ha hr]
      exact ih (fun x hx => hallowed x (List.mem_cons_of_mem o hx))
        (fun x hx => hread x (List.mem_cons_of_mem o hx)) (o.store lib result)

/-- Otherwise there is an error, a name with a quote in the result, or an
option that is missing. -/
theorem parse_unreadable (hallowed : ∀ o ∈ os, allowed (o.key lib) = some o.shown.type)
    (hread : ¬∀ o ∈ os, o.Apart ∧ o.shown.Readable)
    (h : parseFrom lib allowed (.clean result) (printed os) = .ok r) :
    HasQuoted r ∨ ∃ pre o post, os = pre ++ o :: post ∧ r = stored lib pre result := by
  induction os generalizing result with
  | nil => exact absurd (by simp) hread
  | cons o os ih =>
    have ho := hallowed o List.mem_cons_self
    by_cases hr : o.Apart ∧ o.shown.Readable
    · have hrest : ¬∀ x ∈ os, x.Apart ∧ x.shown.Readable := by
        intro hall
        exact hread fun x hx => (List.mem_cons.mp hx).elim (fun h => h ▸ hr) (hall x)
      have hos : os ≠ [] := by
        rintro rfl
        exact hrest (by simp)
      rw [printed_cons o hos, Printed.parseFrom_comma o ho hr.1 hr.2] at h
      rcases ih (fun x hx => hallowed x (List.mem_cons_of_mem o hx)) hrest h with
        hquoted | ⟨pre, o', post, rfl, rfl⟩
      · exact .inl hquoted
      · exact .inr ⟨o :: pre, o', post, rfl, rfl⟩
    · obtain ⟨rest, hrest, htext⟩ : ∃ rest : Text, (∀ c ∈ rest.head?, c = ',') ∧
          printed (o :: os) = o.text ++ rest := by
        by_cases hos : os = []
        · exact ⟨[], by simp, by simp [hos, printed]⟩
        · exact ⟨',' :: printed os, by simp, printed_cons o hos⟩
      rw [htext] at h
      by_cases hapart : o.Apart
      · obtain ⟨e, he⟩ := Printed.unreadable_fails o ho hapart (fun hs => hr ⟨hapart, hs⟩) result
          hrest
        rw [he] at h
        cases h
      · refine (Printed.glued_parse o hapart h).imp_right ?_
        rintro rfl
        exact ⟨[], o, os, rfl, rfl⟩

/-- No name that is printed has a quote in it. -/
theorem not_hasQuoted_mapOf (os : List Printed) : ¬HasQuoted (mapOf lib os) := by
  rintro ⟨k, hk, hsome⟩
  obtain ⟨v, hv⟩ := Option.ne_none_iff_exists'.mp hsome
  obtain ⟨o, ho, -⟩ := Option.map_eq_some_iff.mp hv
  obtain rfl : o.key lib = k := by simpa using List.find?_some ho
  obtain ⟨c, hc, hupper⟩ := List.mem_map.mp hk
  exact (o.name_plain c hc).1 ((lib.upper_quote c).mp hupper)

/-- Every option is in the map. -/
theorem stored_ne_mapOf {pre post : List Printed} {o : Printed}
    (h : ((pre ++ o :: post).map (Printed.key lib)).Nodup) :
    stored lib pre (fun _ => none) ≠ mapOf lib (pre ++ o :: post) := by
  rw [List.map_append, List.map_cons, List.nodup_append] at h
  have hpre : pre.find? (fun o' => o'.key lib = o.key lib) = none := by
    rw [List.find?_eq_none]
    intro o' ho' heq
    exact h.2.2 _ (List.mem_map_of_mem ho') _ List.mem_cons_self (by simpa using heq)
  intro heq
  have hkey := congrFun heq (o.key lib)
  rw [stored_empty h.1, mapOf, mapOf, List.find?_append, hpre] at hkey
  simp at hkey

/-- The options come back exactly when there is white space between every
name and its value, no string with escapes has a quote in it, and the last
option is not lost. -/
theorem parse_printing_iff (lib : Library F) (allowed : Text → Option OptionValueType)
    (p : Printing lib allowed) :
    parseCopyOptions lib allowed (printed p.options) = .ok (mapOf lib p.options) ↔
      (∀ o ∈ p.options, o.Apart ∧ o.shown.Readable) ∧ ¬Lost p.options := by
  rw [parseCopyOptions]
  constructor
  · intro h
    have hread : ∀ o ∈ p.options, o.Apart ∧ o.shown.Readable := by
      by_contra hread
      rcases parse_unreadable p.allowed_type hread h with hquoted | ⟨pre, o, post, hos, hstored⟩
      · exact not_hasQuoted_mapOf _ hquoted
      · have hdistinct := p.distinct
        rw [hos] at hdistinct hstored
        exact stored_ne_mapOf hdistinct hstored.symm
    refine ⟨hread, fun hlost => ?_⟩
    rw [(parse_readable p.allowed_type hread _).2 hlost] at h
    obtain ⟨o, ho, -⟩ := hlost
    obtain ⟨front, hfront⟩ := List.getLast?_eq_some_iff.mp ho
    have hdistinct := p.distinct
    rw [hfront, List.dropLast_concat] at h
    rw [hfront] at hdistinct
    exact stored_ne_mapOf hdistinct (Except.ok.inj h)
  · rintro ⟨hread, hlost⟩
    rw [(parse_readable p.allowed_type hread _).1 hlost, stored_empty p.distinct]

theorem spaces_of_all (h : w.all unicodeSpace = true) : Spaces w :=
  List.all_eq_true.mp h

theorem plain_of_all (h : (w.all fun c => c != quote && c != ',' && !unicodeSpace c) = true) :
    ∀ c ∈ w, c ≠ quote ∧ c ≠ ',' ∧ unicodeSpace c = false := by
  intro c hc
  have hall := List.all_eq_true.mp h c hc
  simpa [and_assoc] using hall

/-- An option without a value is lost when only white space is behind it;
an escaped quote and a double quote in `E'...'`, and a string directly
behind its name, are errors. -/
theorem printing_not_read :
    (∃ p : Printing simpleLibrary sampleAllowed,
      printed p.options = "HEADER ".toList ∧
      mapOf simpleLibrary p.options "HEADER".toList = some (.bool true) ∧
      ∃ r, parseCopyOptions simpleLibrary sampleAllowed (printed p.options) = .ok r ∧
        r "HEADER".toList = none) ∧
    (∃ p : Printing simpleLibrary sampleAllowed,
      printed p.options = "NULL E".toList ++ [quote, backslash, quote, quote] ∧
      mapOf simpleLibrary p.options "NULL".toList = some (.string [quote]) ∧
      parseCopyOptions simpleLibrary sampleAllowed (printed p.options) =
        .error (.error (.invalidEscaped "NULL".toList))) ∧
    (∃ p : Printing simpleLibrary sampleAllowed,
      printed p.options = "NULL E".toList ++ [quote, doubleQuote, quote] ∧
      mapOf simpleLibrary p.options "NULL".toList = some (.string [doubleQuote]) ∧
      parseCopyOptions simpleLibrary sampleAllowed (printed p.options) =
        .error (.error (.invalidEscaped "NULL".toList))) ∧
    (∃ p : Printing simpleLibrary sampleAllowed,
      printed p.options = "NULL".toList ++ [quote, 'x', quote] ∧
      mapOf simpleLibrary p.options "NULL".toList = some (.string ['x']) ∧
      parseCopyOptions simpleLibrary sampleAllowed (printed p.options) =
        .error (.error (.unsupported ("NULL".toList ++ [quote, 'X', quote])))) := by
  have header := plain_of_all (w := "HEADER".toList) rfl
  have null := plain_of_all (w := "NULL".toList) rfl
  refine ⟨⟨⟨[⟨[], "HEADER".toList, [], .bare, [' '], spaces_of_all rfl, by decide, header,
      spaces_of_all rfl, fun _ => rfl, fun _ => trivial, spaces_of_all rfl, trivial⟩], ?_,
      List.nodup_singleton _⟩, rfl, rfl, _, rfl, rfl⟩,
    ⟨⟨[⟨[], "NULL".toList, [' '], .escaped [quote], [], spaces_of_all rfl, by decide, null,
      spaces_of_all rfl, nofun, fun _ => trivial, spaces_of_all rfl,
      trivial⟩], ?_, List.nodup_singleton _⟩, rfl, rfl, rfl⟩,
    ⟨⟨[⟨[], "NULL".toList, [' '], .escaped [doubleQuote], [], spaces_of_all rfl, by decide, null,
      spaces_of_all rfl, nofun, fun _ => trivial, spaces_of_all rfl,
      trivial⟩], ?_, List.nodup_singleton _⟩, rfl, rfl, rfl⟩,
    ⟨⟨[⟨[], "NULL".toList, [], .standard ['x'], [], spaces_of_all rfl, by decide, null,
      spaces_of_all rfl, nofun, fun _ => trivial, spaces_of_all rfl,
      trivial⟩], ?_, List.nodup_singleton _⟩, rfl, rfl, rfl⟩⟩
  all_goals
    intro o ho
    obtain rfl := List.mem_singleton.mp ho
    rfl

end MyDuck.CopyOptions
