/-
MyDuck.Pg.CopyOptionsPanic — when `ParseCopyOptions` panics.

A string value is cut out between its quotes, after a look at how it
begins and how it ends; a value that is one quote, alone or behind an
`E`, begins and ends with the same quote, and the bounds of the cut are
the wrong way round.

`Shape` says what the loop has read of an option, whatever the text is;
a lone quote can then only be at the end of the text, because it opens
quotes that are never closed.
-/
import MyDuck.Pg.CopyOptions

namespace MyDuck.CopyOptions

open GoText
open Strings (doubleQuote backslash lineFeed)
open Strings renaming singleQuote → quote

variable {F : Type} {lib : Library F} {allowed : Text → Option OptionValueType}

/-! ## The texts in question -/

/-- An option whose name is allowed and whose value is one. -/
def Accepts (lib : Library F) (allowed : Text → Option OptionValueType) (name value : Text) :
    Prop :=
  ∃ type v, allowed (name.map lib.upper) = some type ∧
    optionValue lib (name.map lib.upper) value type = .ok v

/-- A text with options that are accepted, each with a comma behind it. -/
inductive Front (lib : Library F) (allowed : Text → Option OptionValueType) : Text → Prop
  | nil : Front lib allowed []
  | empty {before rest : Text} (hbefore : Spaces before) (hrest : Front lib allowed rest) :
      Front lib allowed (before ++ ',' :: rest)
  | key {before name rest : Text} (hbefore : Spaces before)
      (hname : wordEnd false name = some false) (hne : name ≠ [])
      (haccepts : Accepts lib allowed name []) (hrest : Front lib allowed rest) :
      Front lib allowed (before ++ name ++ ',' :: rest)
  | value {before name gap value after rest : Text} (hbefore : Spaces before)
      (hname : wordEnd false name = some false) (hne : name ≠ []) (hgap : Spaces gap)
      (hgne : gap ≠ []) (hvalue : wordEnd false value = some false) (hafter : Spaces after)
      (hbare : value = [] → after = []) (haccepts : Accepts lib allowed name value)
      (hrest : Front lib allowed rest) :
      Front lib allowed (before ++ name ++ gap ++ value ++ after ++ ',' :: rest)

/-- At the end of the text, a quote is the value of a string option. -/
structure LoneQuote (lib : Library F) (allowed : Text → Option OptionValueType)
    (options : Text) : Prop where
  parts : ∃ front before name gap lead trail, Front lib allowed front ∧ Spaces before ∧
    wordEnd false name = some false ∧ name ≠ [] ∧ Spaces gap ∧ gap ≠ [] ∧
    (lead = [] ∨ lead = ['E']) ∧ Spaces trail ∧
    allowed (name.map lib.upper) = some .string ∧
    options = front ++ (before ++ name ++ gap ++ (lead ++ [quote] ++ trail))

/-! ## Values that panic -/

theorem orError_ne_panic {α : Type} (r : Option α) (e : OptionError) :
    orError r e ≠ .error .panic := by
  cases r <;> simp [orError]

theorem map_eq_panic {α β : Type} {x : Except Failure α} {f : α → β} :
    x.map f = .error .panic ↔ x = .error .panic := by
  cases x <;> simp [Except.map]

theorem stringValue_panic_iff (lib : Library F) (k v : Text) :
    stringValue lib k v = .error .panic ↔ v = [quote] ∨ v = ['E', quote] := by
  constructor
  · intro h
    unfold stringValue at h
    split_ifs at h with h1 h2
    · right
      obtain ⟨u, rfl⟩ := List.isPrefixOf_iff_prefix.mp h1.1
      cases u with
      | nil => rfl
      | cons c u =>
        have hslice : slice (['E', quote] ++ c :: u) 2 ((['E', quote] ++ c :: u).length - 1) =
            .ok (((['E', quote] ++ c :: u).take ((['E', quote] ++ c :: u).length - 1)).drop 2) :=
          if_pos (by simp)
        rw [hslice] at h
        exact absurd h (orError_ne_panic _ _)
    · left
      obtain ⟨u, rfl⟩ := List.isPrefixOf_iff_prefix.mp h2.1
      cases u with
      | nil => rfl
      | cons c u =>
        have hslice : slice ([quote] ++ c :: u) 1 (([quote] ++ c :: u).length - 1) =
            .ok ((([quote] ++ c :: u).take (([quote] ++ c :: u).length - 1)).drop 1) :=
          if_pos (by simp)
        rw [hslice] at h
        simp [Except.map] at h
    · simp at h
  · rintro (rfl | rfl)
    · rfl
    · rfl

theorem optionValue_panic_iff (lib : Library F) (k v : Text) (type : OptionValueType) :
    optionValue lib k v type = .error .panic ↔
      type = .string ∧ (v = [quote] ∨ v = ['E', quote]) := by
  cases type with
  | bool =>
    unfold optionValue
    split_ifs
    · simp
    · simp [map_eq_panic, orError_ne_panic]
  | int | float => simp [optionValue, map_eq_panic, orError_ne_panic]
  | string => simp [optionValue, map_eq_panic, stringValue_panic_iff]

theorem parseOption_panic_iff (s : Scan F) :
    parseOption lib allowed s = .error .panic ↔
      trimSpace s.key ≠ [] ∧ allowed ((trimSpace s.key).map lib.upper) = some .string ∧
        (trimSpace s.value = [quote] ∨ trimSpace s.value = ['E', quote]) := by
  unfold parseOption
  split_ifs with hkey
  · simp [hkey]
  · dsimp only
    cases allowed ((trimSpace s.key).map lib.upper) with
    | none => simp
    | some type => simp [map_eq_panic, optionValue_panic_iff, hkey]

variable {s : Scan F} {result : Text → Option (Value F)} {a : Text}

/-- An option that `parseOption` takes. -/
theorem accepts_of_parseOption {s' : Scan F} (h : parseOption lib allowed s = .ok s')
    (hkey : trimSpace s.key ≠ []) :
    Accepts lib allowed (trimSpace s.key) (trimSpace s.value) ∧ ∃ result,
      s' = { s with result := result, key := [], value := [], readingKey := true } := by
  obtain ⟨type, v, htype, hvalue, hs'⟩ := parseOption_ok h hkey
  exact ⟨⟨type, v, htype, hvalue⟩, _, hs'⟩

theorem parseOption_of_accepts (hkey : trimSpace s.key ≠ [])
    (h : Accepts lib allowed (trimSpace s.key) (trimSpace s.value)) :
    ∃ result, parseOption lib allowed s =
      .ok { s with result := result, key := [], value := [], readingKey := true } := by
  obtain ⟨type, v, htype, hvalue⟩ := h
  refine ⟨Function.update s.result ((trimSpace s.key).map lib.upper) (some v), ?_⟩
  rw [parseOption, if_neg hkey]
  simp only [htype, hvalue]
  rfl

/-! ## What is in front of the last option -/

theorem word_trim_ne {name : Text} (hname : wordEnd false name = some false) (hne : name ≠ []) :
    trimSpace name ≠ [] := by
  rw [trimSpace_word hname]
  exact hne

/-- An option that is accepted, at its comma. -/
theorem parseFrom_accepted {name value : Text} (hq : s.inQuotes = false)
    (htake : ∃ e r sb, s.take = { Scan.clean result with
      key := name, value := value, expectComma := e, readingKey := r, sb := sb })
    (hname : wordEnd false name = some false) (hne : name ≠ [])
    (hvalue : wordEnd false value = some false) (haccepts : Accepts lib allowed name value)
    (cs : Text) :
    ∃ result', parseFrom lib allowed s (',' :: cs) =
      parseFrom lib allowed (.clean result') cs := by
  obtain ⟨e, r, sb, htake⟩ := htake
  have hkey : trimSpace s.take.key = name := by rw [htake]; exact trimSpace_word hname
  have hval : trimSpace s.take.value = value := by rw [htake]; exact trimSpace_word hvalue
  have hkey' : trimSpace s.take.key ≠ [] := hkey ▸ hne
  have haccepts' : Accepts lib allowed (trimSpace s.take.key) (trimSpace s.take.value) := by
    rw [hkey, hval]
    exact haccepts
  obtain ⟨result', hparse⟩ := parseOption_of_accepts hkey' haccepts'
  refine ⟨result', ?_⟩
  have hstep : step lib allowed s ',' cs = .ok (.clean result') := by
    rw [step_comma hq, hparse, htake]
    rfl
  rw [parseFrom_of_step hstep]

theorem parseFrom_front {front : Text} (h : Front lib allowed front)
    (result : Text → Option (Value F)) (cs : Text) :
    ∃ result', parseFrom lib allowed (.clean result) (front ++ cs) =
      parseFrom lib allowed (.clean result') cs := by
  induction h generalizing result with
  | nil => exact ⟨result, rfl⟩
  | @empty before rest hbefore hrest ih =>
    have hstep : step lib allowed (.clean result) ',' (rest ++ cs) = .ok (.clean result) := rfl
    rw [List.append_assoc, parseFrom_spaces (.clean result) rfl rfl rfl hbefore, List.cons_append,
      parseFrom_of_step hstep]
    exact ih result
  | @key before name rest hbefore hname hne haccepts hrest ih =>
    rw [List.append_assoc, parseFrom_key hbefore hname, List.cons_append]
    obtain ⟨result', h'⟩ := parseFrom_accepted
      (s := { Scan.clean result with sb := name, inQuotes := false }) rfl
      ⟨_, _, _, rfl⟩ hname hne rfl haccepts (rest ++ cs)
    obtain ⟨result'', h''⟩ := ih result'
    exact ⟨result'', h'.trans h''⟩
  | @value before name gap value after rest hbefore hname hne hgap hgne hvalue hafter hbare
      haccepts hrest ih =>
    have htext : before ++ name ++ gap ++ value ++ after ++ ',' :: rest ++ cs =
        before ++ name ++ gap ++ (value ++ (after ++ ',' :: (rest ++ cs))) := by simp
    rw [htext, parseFrom_keyGap hbefore hname hne hgap hgne,
      parseFrom_word { Scan.clean result with key := name, readingKey := false } rfl hvalue]
    obtain ⟨result', h'⟩ : ∃ result', parseFrom lib allowed
        { Scan.clean result with key := name, readingKey := false, sb := value }
        (after ++ ',' :: (rest ++ cs)) = parseFrom lib allowed (.clean result') (rest ++ cs) := by
      by_cases hne' : after = []
      · subst hne'
        exact parseFrom_accepted (s := { Scan.clean result with
          key := name, readingKey := false, sb := value }) rfl ⟨_, _, _, rfl⟩ hname hne hvalue
          haccepts _
      · rw [parseFrom_after { Scan.clean result with key := name, readingKey := false, sb := value }
          rfl rfl (fun h => hne' (hbare h)) hafter hne']
        exact parseFrom_accepted (s := { Scan.clean result with
          key := name, readingKey := false, sb := value, expectComma := true }) rfl
          ⟨_, _, _, rfl⟩ hname hne hvalue haccepts _
    obtain ⟨result'', h''⟩ := ih result'
    exact ⟨result'', h'.trans h''⟩

theorem wordEnd_lone {lead trail : Text} (hlead : lead = [] ∨ lead = ['E'])
    (htrail : Spaces trail) :
    wordEnd false (lead ++ [quote] ++ trail) = some true := by
  have hstart : wordEnd false (lead ++ [quote]) = some true := by
    rcases hlead with rfl | rfl <;> decide
  have hnot : quote ∉ trail := fun hmem => (space_ne (htrail _ hmem)).1 rfl
  rw [wordEnd_append, hstart, Option.bind_some, wordEnd_quoted hnot]

theorem trimSpace_lone {lead trail : Text} (hlead : lead = [] ∨ lead = ['E'])
    (htrail : Spaces trail) : trimSpace (lead ++ [quote] ++ trail) = lead ++ [quote] := by
  have hdrop : (lead ++ [quote] ++ trail).dropWhile unicodeSpace = lead ++ [quote] ++ trail := by
    have hE : unicodeSpace 'E' = false ∧ unicodeSpace quote = false := by decide
    rcases hlead with rfl | rfl <;> simp [hE]
  have hend : trail.reverse.dropWhile unicodeSpace = [] := by
    rw [List.dropWhile_eq_nil_iff]
    intro c hc
    exact htrail c (List.mem_reverse.mp hc)
  have hq : unicodeSpace quote = false := by decide
  rw [trimSpace, hdrop, List.rdropWhile, List.reverse_append, List.dropWhile_append, hend]
  simp [hq]

theorem LoneQuote.panics {options : Text} (h : LoneQuote lib allowed options) :
    parseCopyOptions lib allowed options = .error .panic := by
  obtain ⟨front, before, name, gap, lead, trail, hfront, hbefore, hname, hne, hgap, hgne, hlead,
    htrail, hstring, rfl⟩ := h.parts
  obtain ⟨result, hrun⟩ := parseFrom_front hfront (fun _ => none)
    (before ++ name ++ gap ++ (lead ++ [quote] ++ trail))
  have hword := (parseFrom_word { Scan.clean result with key := name, readingKey := false } rfl
    (wordEnd_lone hlead htrail) [] : parseFrom lib allowed _ _ = _)
  rw [List.append_nil] at hword
  rw [parseCopyOptions, hrun, parseFrom_keyGap hbefore hname hne hgap hgne, hword]
  show finish lib allowed _ = _
  rw [finish, if_neg (by simp [Scan.clean]), map_eq_panic, parseOption_panic_iff]
  refine ⟨word_trim_ne hname hne, ?_, ?_⟩
  · show allowed ((trimSpace name).map lib.upper) = some .string
    rw [trimSpace_word hname]
    exact hstring
  · show trimSpace ([] ++ (lead ++ [quote] ++ trail)) = [quote] ∨ _
    rw [List.nil_append, trimSpace_lone hlead htrail]
    rcases hlead with rfl | rfl
    · exact .inl rfl
    · exact .inr (trimSpace_lone (.inr rfl) htrail)

/-! ## Nothing else panics -/

/-- What the loop has read of an option. -/
inductive Shape (result : Text → Option (Value F)) : Scan F → Text → Prop
  | key {before name : Text} {q : Bool} (hbefore : Spaces before)
      (hname : wordEnd false name = some q) :
      Shape result { Scan.clean result with sb := name, inQuotes := q } (before ++ name)
  | value {before name gap value : Text} {q : Bool} (hbefore : Spaces before)
      (hname : wordEnd false name = some false) (hne : name ≠ []) (hgap : Spaces gap)
      (hgne : gap ≠ []) (hvalue : wordEnd false value = some q) :
      Shape result { Scan.clean result with
        key := name, readingKey := false, sb := value, inQuotes := q }
        (before ++ name ++ gap ++ value)
  | after {before name gap value after : Text} (hbefore : Spaces before)
      (hname : wordEnd false name = some false) (hne : name ≠ []) (hgap : Spaces gap)
      (hgne : gap ≠ []) (hvalue : wordEnd false value = some false) (hvne : value ≠ [])
      (hafter : Spaces after) :
      Shape result { Scan.clean result with
        key := name, readingKey := false, sb := value, expectComma := true }
        (before ++ name ++ gap ++ value ++ after)

theorem spaces_concat {w : Text} (hw : Spaces w) {c : Char} (hc : unicodeSpace c = true) :
    Spaces (w ++ [c]) := by
  intro d hd
  rcases List.mem_append.mp hd with hd | hd
  · exact hw d hd
  · rw [List.mem_singleton.mp hd]
    exact hc

/-- A character that is part of a word. -/
theorem wordEnd_concat {w : Text} {q : Bool} (hw : wordEnd false w = some q) {c : Char}
    (hc : q = false → c ≠ ',' ∧ unicodeSpace c = false) (hne : c ≠ quote) :
    wordEnd false (w ++ [c]) = some q := by
  rw [wordEnd_append, hw, Option.bind_some]
  cases q with
  | true => simp [wordEnd, hne]
  | false => simp [wordEnd, hne, hc rfl]

theorem wordEnd_concat_quote {w : Text} {q : Bool} (hw : wordEnd false w = some q) :
    wordEnd false (w ++ [quote]) = some (!q) := by
  rw [wordEnd_append, hw, Option.bind_some]
  rfl

theorem Shape.step {s' : Scan F} (h : Shape result s a) {c : Char} {cs : Text}
    (hc : c ≠ ',' ∨ s.inQuotes = true) (hstep : step lib allowed s c cs = .ok s') :
    Shape result s' (a ++ [c]) := by
  obtain ⟨hcomma, hcases⟩ := step_cases hc hstep
  cases h with
  | @key before name q hbefore hname =>
    rw [List.append_assoc]
    rcases hcases with ⟨rfl, rfl⟩ | ⟨hspace, hq, rfl⟩ | ⟨hquote, hplain, rfl⟩
    · exact .key hbefore (wordEnd_concat_quote hname)
    · obtain rfl : q = false := hq
      by_cases hne : name = []
      · subst hne
        have hshape : Shape result _ _ := .key (spaces_concat hbefore hspace) hname
        simpa using hshape
      · have hgap : Spaces [c] := by simpa [Spaces] using hspace
        have hempty : wordEnd false [] = some false := rfl
        have hshape : Shape result _ _ :=
          .value hbefore hname hne hgap (List.cons_ne_nil c []) hempty
        simpa [hne, Scan.clean] using hshape
    · exact .key hbefore (wordEnd_concat hname hplain hquote)
  | @value before name gap value q hbefore hname hne hgap hgne hvalue =>
    rcases hcases with ⟨rfl, rfl⟩ | ⟨hspace, hq, rfl⟩ | ⟨hquote, hplain, rfl⟩
    · rw [List.append_assoc]
      exact .value hbefore hname hne hgap hgne (wordEnd_concat_quote hvalue)
    · obtain rfl : q = false := hq
      by_cases hvne : value = []
      · subst hvne
        have hshape : Shape result _ _ :=
          .value hbefore hname hne (spaces_concat hgap hspace) (by simp) hvalue
        simpa [Scan.clean] using hshape
      · have hafter : Spaces [c] := by simpa [Spaces] using hspace
        have hshape : Shape result _ _ := .after hbefore hname hne hgap hgne hvalue hvne hafter
        simpa [hvne, Scan.clean] using hshape
    · rw [List.append_assoc]
      exact .value hbefore hname hne hgap hgne (wordEnd_concat hvalue hplain hquote)
  | @after before name gap value after hbefore hname hne hgap hgne hvalue hvne hafter =>
    have hspace : unicodeSpace c = true := by
      refine (hcomma rfl).resolve_left (hc.resolve_right ?_)
      exact Bool.noConfusion
    rcases hcases with ⟨rfl, -⟩ | ⟨-, -, rfl⟩ | ⟨-, hplain, -⟩
    · exact absurd rfl (space_ne hspace).1
    · have hshape : Shape result _ _ :=
        .after hbefore hname hne hgap hgne hvalue hvne (spaces_concat hafter hspace)
      simpa [hvne, Scan.clean] using hshape
    · have hnot := (hplain rfl).2
      rw [hspace] at hnot
      exact Bool.noConfusion hnot

theorem Shape.take (h : Shape result s a) :
    (s.take.result = result ∧ s.take.inQuotes = s.inQuotes) ∧
    ((∃ before, Spaces before ∧ wordEnd false s.sb = some s.inQuotes ∧ a = before ++ s.sb ∧
        s.take.key = s.sb ∧ s.take.value = [] ∧ s.readingKey = true) ∨
      ∃ before name gap after, Spaces before ∧ wordEnd false name = some false ∧ name ≠ [] ∧
        Spaces gap ∧ gap ≠ [] ∧ wordEnd false s.sb = some s.inQuotes ∧ Spaces after ∧
        (s.sb = [] → after = []) ∧ (s.inQuotes = true → after = []) ∧
        a = before ++ name ++ gap ++ s.sb ++ after ∧ s.take.key = name ∧ s.take.value = s.sb) := by
  cases h with
  | key hbefore hname => exact ⟨⟨rfl, rfl⟩, .inl ⟨_, hbefore, hname, rfl, rfl, rfl, rfl⟩⟩
  | value hbefore hname hne hgap hgne hvalue =>
    refine ⟨⟨rfl, rfl⟩, .inr ⟨_, _, _, [], hbefore, hname, hne, hgap, hgne, hvalue, ?_, ?_, ?_, ?_,
      rfl, rfl⟩⟩
    · exact List.forall_mem_nil _
    · exact fun _ => rfl
    · exact fun _ => rfl
    · simp
  | after hbefore hname hne hgap hgne hvalue hvne hafter =>
    refine ⟨⟨rfl, rfl⟩, .inr ⟨_, _, _, _, hbefore, hname, hne, hgap, hgne, hvalue, hafter, ?_, ?_,
      rfl, rfl, rfl⟩⟩
    · exact fun h => absurd h hvne
    · exact fun h => Bool.noConfusion h

/-- A word that is a lone quote up to white space behind it. -/
theorem lone_of_trim {v : Text} {q : Bool} (hv : wordEnd false v = some q)
    (h : trimSpace v = [quote] ∨ trimSpace v = ['E', quote]) :
    ∃ lead trail, (lead = [] ∨ lead = ['E']) ∧ Spaces trail ∧ v = lead ++ [quote] ++ trail := by
  have hdrop : v.dropWhile unicodeSpace = v := by
    cases v with
    | nil => rfl
    | cons c v => simp [word_head hv c rfl]
  have hsplit : trimSpace v ++ v.rtakeWhile unicodeSpace = v := by
    rw [trimSpace, hdrop]
    exact List.rdropWhile_append_rtakeWhile
  have htrail : Spaces (v.rtakeWhile unicodeSpace) := fun c hc => List.mem_rtakeWhile_imp hc
  rcases h with h | h
  · exact ⟨[], _, .inl rfl, htrail, hsplit.symm.trans (by rw [h]; simp)⟩
  · exact ⟨['E'], _, .inr rfl, htrail, hsplit.symm.trans (by rw [h]; simp)⟩

/-- An option in front that is accepted. -/
theorem LoneQuote.behind {options : Text} (h : LoneQuote lib allowed options)
    (hfront : ∀ rest, Front lib allowed rest → Front lib allowed (a ++ ',' :: rest)) :
    LoneQuote lib allowed (a ++ ',' :: options) := by
  obtain ⟨front, before, name, gap, lead, trail, hrest, hbefore, hname, hne, hgap, hgne, hlead,
    htrail, hstring, rfl⟩ := h.parts
  exact ⟨a ++ ',' :: front, before, name, gap, lead, trail, hfront front hrest, hbefore, hname, hne,
    hgap, hgne, hlead, htrail, hstring, by simp⟩

/-- Where `parseOption` panics, the text is at its end. -/
theorem Shape.lone (h : Shape result s a) (hp : parseOption lib allowed s.take = .error .panic) :
    s.inQuotes = true ∧ LoneQuote lib allowed a := by
  obtain ⟨-, hstring, hlone⟩ := (parseOption_panic_iff s.take).mp hp
  rcases h.take.2 with ⟨-, -, -, -, -, hvalue, -⟩ |
    ⟨before, name, gap, after, hbefore, hname, hne, hgap, hgne, hword, -, -, hafter, rfl, hkey,
      hvalue⟩
  · rw [hvalue] at hlone
    exact absurd hlone (by decide)
  · rw [hvalue] at hlone
    obtain ⟨lead, trail, hlead, htrail, hsb⟩ := lone_of_trim hword hlone
    have hq : s.inQuotes = true := by
      rw [hsb, wordEnd_lone hlead htrail] at hword
      exact (Option.some.inj hword).symm
    rw [hkey, trimSpace_word hname] at hstring
    refine ⟨hq, [], before, name, gap, lead, trail, .nil, hbefore, hname, hne, hgap, hgne, hlead,
      htrail, hstring, ?_⟩
    rw [hafter hq, hsb]
    simp

/-- An option that is accepted at its comma. -/
theorem Shape.accepted {s' : Scan F} (h : Shape result s a) (hq : s.inQuotes = false)
    (hp : parseOption lib allowed s.take = .ok s') :
    (∃ result', { s' with expectComma := false, sb := [] } = Scan.clean result') ∧
      ∀ rest, Front lib allowed rest → Front lib allowed (a ++ ',' :: rest) := by
  obtain ⟨⟨hresult, hquotes⟩, hcases⟩ := h.take
  rw [hq] at hquotes
  rcases hcases with ⟨before, hbefore, hword, rfl, hkey, hvalue, hreading⟩ |
    ⟨before, name, gap, after, hbefore, hname, hne, hgap, hgne, hword, hafter, hbare, -, rfl, hkey,
      hvalue⟩
  · rw [hq] at hword
    by_cases hsb : s.sb = []
    · have hnil : trimSpace s.take.key = [] := by rw [hkey, hsb]; rfl
      rw [parseOption, if_pos hnil] at hp
      obtain rfl := Except.ok.inj hp
      refine ⟨⟨result, ?_⟩, fun rest hrest => ?_⟩
      · have hread : s.take.readingKey = true := by simp [Scan.take, hreading]
        simp [Scan.clean, hresult, hquotes, hkey, hsb, hvalue, hread]
      · rw [hsb, List.append_nil]
        exact .empty hbefore hrest
    · have hname : trimSpace s.take.key = s.sb := by rw [hkey, trimSpace_word hword]
      obtain ⟨haccepts, result', rfl⟩ := accepts_of_parseOption hp (by rw [hname]; exact hsb)
      rw [hname, hvalue] at haccepts
      exact ⟨⟨result', by simp [Scan.clean, hquotes]⟩,
        fun rest hrest => .key hbefore hword hsb haccepts hrest⟩
  · rw [hq] at hword
    have hname' : trimSpace s.take.key = name := by rw [hkey, trimSpace_word hname]
    obtain ⟨haccepts, result', rfl⟩ := accepts_of_parseOption hp (by rw [hname']; exact hne)
    rw [hname', hvalue, trimSpace_word hword] at haccepts
    exact ⟨⟨result', by simp [Scan.clean, hquotes]⟩, fun rest hrest =>
      .value hbefore hname hne hgap hgne hword hafter hbare haccepts hrest⟩

theorem Shape.panics (h : Shape result s a) {cs : Text}
    (hp : parseFrom lib allowed s cs = .error .panic) : LoneQuote lib allowed (a ++ cs) := by
  induction cs generalizing s a result with
  | nil =>
    have hfinish : finish lib allowed s = .error .panic := hp
    unfold finish at hfinish
    split_ifs at hfinish
    rw [List.append_nil]
    exact (h.lone (map_eq_panic.mp hfinish)).2
  | cons c cs ih =>
    by_cases hend : c = ',' ∧ s.inQuotes = false
    · obtain ⟨rfl, hq⟩ := hend
      rw [parseFrom_cons, step_comma hq] at hp
      cases hparse : parseOption lib allowed s.take with
      | error e =>
        rw [hparse] at hp
        cases e with
        | error e => simp [Except.map, bind, Except.bind] at hp
        | panic =>
          rw [(h.lone hparse).1] at hq
          exact Bool.noConfusion hq
      | ok s' =>
        obtain ⟨⟨result', hclean⟩, hfront⟩ := h.accepted hq hparse
        rw [hparse] at hp
        have hrest : parseFrom lib allowed { s' with expectComma := false, sb := [] } cs =
            .error .panic := hp
        rw [hclean] at hrest
        have hshape : Shape result' (.clean result') ([] ++ []) :=
          .key (List.forall_mem_nil _) rfl
        exact (ih hshape hrest).behind hfront
    · have hc := not_end hend
      rw [parseFrom_cons] at hp
      cases hstep : CopyOptions.step lib allowed s c cs with
      | error e =>
        rw [hstep] at hp
        obtain rfl : e = .panic := Except.error.inj hp
        exact absurd hstep (step_ne_panic hc)
      | ok s' =>
        rw [hstep] at hp
        have := ih (h.step hc hstep) hp
        rwa [List.append_assoc] at this

/-- `ParseCopyOptions` panics exactly at a lone quote. -/
theorem parse_no_panic_iff (lib : Library F) (allowed : Text → Option OptionValueType)
    (options : Text) :
    parseCopyOptions lib allowed options ≠ .error .panic ↔ ¬LoneQuote lib allowed options := by
  refine not_congr ⟨fun h => ?_, LoneQuote.panics⟩
  have hshape : Shape (fun _ => none) (.clean fun _ => none : Scan F) ([] ++ []) :=
    .key (List.forall_mem_nil _) rfl
  exact hshape.panics h

/-- A value that is one quote, and one behind an `E`. -/
theorem parse_panics :
    parseCopyOptions simpleLibrary sampleAllowed ("NULL ".toList ++ [quote]) = .error .panic ∧
      parseCopyOptions simpleLibrary sampleAllowed ("HEADER, NULL E".toList ++ [quote, ' ']) =
        .error .panic :=
  ⟨rfl, rfl⟩

end MyDuck.CopyOptions
