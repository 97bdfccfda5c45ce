/-
MyDuck.Pg.CopyDialectTheorems — COPY TO and COPY FROM with the same options.

Both statements are a list of clauses. Each clause is read as the value that
was asked for or is misread, so DuckDB gets the requested values exactly
when no clause is misread (`assigns_printAll_iff`). `same_dialect_iff` says
for which options that is so: the writer puts the NULL string between quotes
though its constant has them already, and a quote or an escape of one
character is misread when Go escapes it.
-/
import MyDuck.Pg.CopyDialect

namespace MyDuck.CopyDialect

open CopyOptions (Text)
open Strings (backslash)
open Strings renaming singleQuote → quote
open LoadData (inQuotes)

/-! ## Lists of clauses -/

/-- A clause: its name, the text of its value, and the value that was asked
for. -/
structure Clause where
  key : Key
  name : Text
  text : Text
  value : Setting

namespace Clause

def print (c : Clause) : Text := ", ".toList ++ c.name ++ ' ' :: c.text

def printAll (cs : List Clause) : Text := cs.flatMap print ++ ")".toList

/-- The name is one of DuckDB's. -/
def Named (c : Clause) : Prop := keyOf c.name = some c.key ∧ ' ' ∉ c.name

def setting (c : Clause) : Key × Setting := (c.key, c.value)

end Clause

section Lists

variable {lib : Printing}

open Clause

theorem delimited_printAll (cs : List Clause) : Delimited (printAll cs) := by
  cases cs with
  | nil => exact .inr rfl
  | cons c cs => exact .inl rfl

theorem readClauses_printAll_cons {c : Clause} (hc : c.Named) (cs : List Clause) (n : ℕ) :
    readClauses lib (n + 1) (printAll (c :: cs)) =
      (readSetting lib (c.text ++ printAll cs)).bind fun p =>
        (readClauses lib n p.2).map ((c.key, p.1) :: ·) := by
  have hname : ∀ d ∈ c.name, decide (d ≠ ' ') = true := by
    intro d hd
    rw [decide_eq_true_eq]
    rintro rfl
    exact hc.2 hd
  have htext : printAll (c :: cs) = ',' :: ' ' :: (c.name ++ ' ' :: (c.text ++ printAll cs)) := by
    simp [printAll, print]
  rw [htext, readClauses, if_neg (by decide), if_pos ⟨rfl, rfl⟩]
  rw [List.tail_cons, List.takeWhile_append_of_pos hname, List.dropWhile_append_of_pos hname]
  simp [hc.1]

theorem readClauses_of_reads {cs : List Clause} (hnamed : ∀ c ∈ cs, c.Named)
    (hreads : ∀ c ∈ cs, Reads lib c.text c.value) {n : ℕ} (hn : cs.length < n) :
    readClauses lib n (printAll cs) = some (cs.map setting) := by
  induction cs generalizing n with
  | nil =>
    obtain ⟨m, rfl⟩ : ∃ m, n = m + 1 := ⟨n - 1, by simp at hn; omega⟩
    rfl
  | cons c cs ih =>
    obtain ⟨m, rfl⟩ : ∃ m, n = m + 1 := ⟨n - 1, by simp at hn; omega⟩
    rw [readClauses_printAll_cons (hnamed c (by simp)),
      hreads c (by simp) _ (delimited_printAll cs), Option.bind_some,
      ih (fun d hd => hnamed d (by simp [hd])) (fun d hd => hreads d (by simp [hd]))
        (by simpa using hn)]
    rfl

/-- When DuckDB reads the values that were asked for, no clause is
misread. -/
theorem reads_of_readClauses {cs : List Clause} (hnamed : ∀ c ∈ cs, c.Named)
    (hdistinct : (cs.map key).Nodup)
    (hreads : ∀ c ∈ cs, Reads lib c.text c.value ∨ Misreads lib c.text c.value) {n : ℕ}
    {settings : List (Key × Setting)} (h : readClauses lib n (printAll cs) = some settings)
    (hlookup : ∀ k ∈ cs.map key, settings.lookup k = (cs.map setting).lookup k) :
    ∀ c ∈ cs, Reads lib c.text c.value := by
  induction cs generalizing n settings with
  | nil => simp
  | cons c cs ih =>
    obtain ⟨m, rfl⟩ : ∃ m, n = m + 1 := by
      cases n with
      | zero => simp [readClauses] at h
      | succ m => exact ⟨m, rfl⟩
    rw [readClauses_printAll_cons (hnamed c (by simp))] at h
    obtain ⟨⟨value, rest⟩, hread, h⟩ := Option.bind_eq_some_iff.mp h
    obtain ⟨settings, hrest, rfl⟩ := Option.map_eq_some_iff.mp h
    -- the first setting is the one of the first clause
    have hvalue : value = c.value := by
      have hkey := hlookup c.key (by simp)
      simpa [setting] using hkey
    have hc : Reads lib c.text c.value := by
      refine (hreads c (by simp)).resolve_right fun hmis => ?_
      exact hmis _ rest (delimited_printAll cs) (hvalue ▸ hread)
    rw [List.map_cons, List.nodup_cons] at hdistinct
    rw [hc _ (delimited_printAll cs)] at hread
    obtain ⟨-, rfl⟩ := Prod.mk.inj (Option.some.inj hread)
    have htail : ∀ k ∈ cs.map key, settings.lookup k = (cs.map setting).lookup k := by
      intro k hk
      have hne : (k == c.key) = false := by
        rw [beq_eq_false_iff_ne]
        rintro rfl
        exact hdistinct.1 hk
      have hall := hlookup k (List.mem_cons_of_mem _ hk)
      simpa [setting, List.lookup_cons, hne] using hall
    have ih' := ih (fun d hd => hnamed d (by simp [hd])) hdistinct.2
      (fun d hd => hreads d (by simp [hd])) hrest htail
    simpa [hc] using ih'

theorem length_le_length_flatMap_print (cs : List Clause) :
    cs.length ≤ (cs.flatMap print).length := by
  induction cs with
  | nil => simp
  | cons c cs ih =>
    simp only [List.flatMap_cons, List.length_append, List.length_cons, print]
    omega

theorem length_lt_length_printAll (cs : List Clause) : cs.length < (printAll cs).length := by
  have hle := length_le_length_flatMap_print cs
  have hclosing : (")".toList).length = 1 := rfl
  rw [printAll, List.length_append, hclosing]
  omega

theorem assigns_printAll_iff {cs : List Clause} (hnamed : ∀ c ∈ cs, c.Named)
    (hdistinct : (cs.map key).Nodup)
    (hreads : ∀ c ∈ cs, Reads lib c.text c.value ∨ Misreads lib c.text c.value) :
    Assigns lib (printAll cs) (cs.map setting) ↔ ∀ c ∈ cs, Reads lib c.text c.value := by
  constructor
  · rintro ⟨settings, hread, hlookup⟩
    exact reads_of_readClauses hnamed hdistinct hreads hread fun k _ => hlookup k
  · intro h
    exact ⟨_, readClauses_of_reads hnamed h (length_lt_length_printAll cs), fun _ => rfl⟩

theorem Reads.not_misreads {text : Text} {value : Setting} (h : Reads lib text value) :
    ¬ Misreads lib text value :=
  fun hmis => hmis [')'] [')'] (.inr rfl) (h [')'] (.inr rfl))

end Lists

/-! ## The two statements -/

section Dialect

variable {lib : Printing}

open Clause

/-- The clause of an option that has a default in text format. -/
def optionClause (o : Options) (key : Key) (name : Text) (option : Option Text)
    (print : Text → Text) (default : Text) : List Clause :=
  match option with
  | some s => [⟨key, name, print s, .literal s⟩]
  | none => if o.copyFormat = .text then [⟨key, name, inQuotes default, .literal default⟩] else []

section OptionClause

variable (o : Options) (key : Key) (name : Text) (option : Option Text) (print : Text → Text)
  (default : Text)

theorem clause_eq : clause o name option print (inQuotes default) =
    (optionClause o key name option print default).flatMap Clause.print := by
  cases option with
  | some s => simp [clause, optionClause, Clause.print]
  | none =>
    rw [clause, optionClause]
    split
    · simp [Clause.print]
    · rfl

theorem optionClause_setting : (optionClause o key name option print default).map setting =
    requestedOption o key option default := by
  cases option with
  | some s => rfl
  | none =>
    rw [optionClause, requestedOption]
    split <;> rfl

theorem optionClause_key :
    ((optionClause o key name option print default).map Clause.key).Sublist [key] := by
  cases option with
  | some s => exact .refl _
  | none =>
    rw [optionClause]
    split
    · exact .refl _
    · exact List.nil_sublist _

variable {o key name option print default}

theorem optionClause_named (hkey : keyOf name = some key) (hspace : ' ' ∉ name) :
    ∀ c ∈ optionClause o key name option print default, c.Named := by
  intro c hc
  cases option with
  | some s =>
    cases List.mem_singleton.mp hc
    exact ⟨hkey, hspace⟩
  | none =>
    rw [optionClause] at hc
    split at hc
    · cases List.mem_singleton.mp hc
      exact ⟨hkey, hspace⟩
    · simp at hc

/-- The default is read. -/
theorem optionClause_reads_iff (hdefault : quote ∉ default) :
    (∀ c ∈ optionClause o key name option print default, Reads lib c.text c.value) ↔
      ∀ s, option = some s → Reads lib (print s) (.literal s) := by
  cases option with
  | some s => simp [optionClause]
  | none =>
    have hreads : Reads lib (inQuotes default) (.literal default) := reads_inQuotes hdefault
    rw [optionClause]
    split <;> simp [hreads]

theorem optionClause_reads_or_misreads (hdefault : quote ∉ default)
    (h : ∀ s, Reads lib (print s) (.literal s) ∨ Misreads lib (print s) (.literal s)) :
    ∀ c ∈ optionClause o key name option print default,
      Reads lib c.text c.value ∨ Misreads lib c.text c.value := by
  intro c hc
  cases option with
  | some s =>
    cases List.mem_singleton.mp hc
    exact h s
  | none =>
    rw [optionClause] at hc
    split at hc
    · cases List.mem_singleton.mp hc
      exact .inl (reads_inQuotes hdefault)
    · simp at hc

end OptionClause

def headerValue (o : Options) : Text :=
  if o.hasHeader && o.header then "true".toList else "false".toList

/-- The clauses of both statements: they differ in the name of the
delimiter and in the text of the NULL string. -/
def dialect (lib : Printing) (separator : Text) (printNull : Text → Text) (o : Options) :
    List Clause :=
  ⟨.header, "HEADER".toList, headerValue o, .word (headerValue o)⟩ ::
    (optionClause o .delimiter separator o.delimiter lib.constant defaultDelimiter ++
      optionClause o .quote "QUOTE".toList o.quote lib.duckChar [] ++
      optionClause o .escape "ESCAPE".toList o.escape lib.duckChar [] ++
      optionClause o .null "NULLSTR".toList o.null printNull defaultNull)

theorem writerClauses_eq (o : Options) : writerClauses lib o =
    printAll (dialect lib "DELIMITER".toList (fun s => inQuotes (lib.constant s)) o) := by
  simp only [writerClauses, printAll, dialect, List.flatMap_cons, List.flatMap_append, ← clause_eq,
    List.append_assoc]
  rfl

theorem loaderClauses_eq (o : Options) :
    loaderClauses lib o = printAll (dialect lib "SEP".toList lib.constant o) := by
  simp only [loaderClauses, printAll, dialect, List.flatMap_cons, List.flatMap_append, ← clause_eq,
    List.append_assoc]
  rfl

variable {separator : Text} {printNull : Text → Text} (o : Options)

theorem dialect_setting : (dialect lib separator printNull o).map setting = requested o := by
  simp only [dialect, requested, List.map_cons, List.map_append, optionClause_setting]
  rfl

theorem dialect_nodup : ((dialect lib separator printNull o).map key).Nodup := by
  have hsublist : ((dialect lib separator printNull o).map key).Sublist
      [.header, .delimiter, .quote, .escape, .null] := by
    simp only [dialect, List.map_cons, List.map_append]
    refine List.Sublist.cons_cons _ ?_
    exact (((optionClause_key ..).append (optionClause_key ..)).append (optionClause_key ..)).append
      (optionClause_key ..)
  exact hsublist.nodup (by decide)

theorem reads_headerValue : Reads lib (headerValue o) (.word (headerValue o)) := by
  rw [headerValue]
  split
  · exact reads_word (List.all_eq_true.mp rfl) (by decide)
  · exact reads_word (List.all_eq_true.mp rfl) (by decide)

theorem forall_mem_dialect_iff (P : Clause → Prop) :
    (∀ c ∈ dialect lib separator printNull o, P c) ↔
      P ⟨.header, "HEADER".toList, headerValue o, .word (headerValue o)⟩ ∧
      (∀ c ∈ optionClause o .delimiter separator o.delimiter lib.constant defaultDelimiter, P c) ∧
      (∀ c ∈ optionClause o .quote "QUOTE".toList o.quote lib.duckChar [], P c) ∧
      (∀ c ∈ optionClause o .escape "ESCAPE".toList o.escape lib.duckChar [], P c) ∧
      (∀ c ∈ optionClause o .null "NULLSTR".toList o.null printNull defaultNull, P c) := by
  simp only [dialect, List.forall_mem_cons, List.forall_mem_append, and_assoc]

theorem reads_duckChar_iff (s : Text) :
    Reads lib (lib.duckChar s) (.literal s) ↔ Printable lib (some s) :=
  ⟨fun h => by_contra fun hs => h.not_misreads (misreads_duckChar hs), reads_duckChar⟩

theorem reads_or_misreads_duckChar (s : Text) :
    Reads lib (lib.duckChar s) (.literal s) ∨ Misreads lib (lib.duckChar s) (.literal s) := by
  by_cases hs : Printable lib (some s)
  · exact .inl (reads_duckChar hs)
  · exact .inr (misreads_duckChar hs)

theorem duckChar_reads_iff (option : Option Text) :
    (∀ s, option = some s → Reads lib (lib.duckChar s) (.literal s)) ↔ Printable lib option := by
  cases option with
  | none => simp [Printable]
  | some s => simp [reads_duckChar_iff]

/-- What a statement assigns depends on the quote, the escape and the text
of the NULL string. -/
theorem assigns_dialect_iff (hkey : keyOf separator = some .delimiter) (hspace : ' ' ∉ separator)
    (hnull : ∀ s, Reads lib (printNull s) (.literal s) ∨ Misreads lib (printNull s) (.literal s)) :
    Assigns lib (printAll (dialect lib separator printNull o)) (requested o) ↔
      Printable lib o.quote ∧ Printable lib o.escape ∧
        ∀ s, o.null = some s → Reads lib (printNull s) (.literal s) := by
  have hquote : quote ∉ ([] : Text) := List.not_mem_nil
  have htab : quote ∉ defaultDelimiter := by decide
  have hN : quote ∉ defaultNull := by decide
  have hnamed : ∀ c ∈ dialect lib separator printNull o, c.Named := by
    rw [forall_mem_dialect_iff]
    exact ⟨⟨rfl, (by decide : ' ' ∉ "HEADER".toList)⟩, optionClause_named hkey hspace,
      optionClause_named rfl (by decide), optionClause_named rfl (by decide),
      optionClause_named rfl (by decide)⟩
  have hor : ∀ c ∈ dialect lib separator printNull o,
      Reads lib c.text c.value ∨ Misreads lib c.text c.value := by
    rw [forall_mem_dialect_iff]
    exact ⟨.inl (reads_headerValue o),
      optionClause_reads_or_misreads htab fun s => .inl (reads_constant s),
      optionClause_reads_or_misreads hquote reads_or_misreads_duckChar,
      optionClause_reads_or_misreads hquote reads_or_misreads_duckChar,
      optionClause_reads_or_misreads hN hnull⟩
  rw [← dialect_setting o, assigns_printAll_iff hnamed (dialect_nodup o) hor,
    forall_mem_dialect_iff, optionClause_reads_iff htab, optionClause_reads_iff hquote,
    optionClause_reads_iff hquote, optionClause_reads_iff hN, duckChar_reads_iff,
    duckChar_reads_iff]
  constructor
  · rintro ⟨-, -, hq, he, hn⟩
    exact ⟨hq, he, hn⟩
  · rintro ⟨hq, he, hn⟩
    exact ⟨reads_headerValue o, fun s _ => reads_constant s, hq, he, hn⟩

end Dialect

/-- **One dialect**: the two statements give the options the values that
were asked for exactly when there is no NULL string, and the quote and the
escape are each at most one character, a backslash or one that is printable
and not a single quote. -/
theorem same_dialect_iff (lib : Printing) (o : Options) : SameDialect lib o ↔
    o.null = none ∧ Printable lib o.quote ∧ Printable lib o.escape := by
  rw [SameDialect, writerClauses_eq, loaderClauses_eq,
    assigns_dialect_iff o rfl (by decide) fun s => .inr (misreads_quoted_constant s),
    assigns_dialect_iff o rfl (by decide) fun s => .inl (reads_constant s)]
  constructor
  · rintro ⟨⟨hquote, hescape, hnull⟩, -⟩
    refine ⟨?_, hquote, hescape⟩
    cases hs : o.null with
    | none => rfl
    | some s => exact absurd (misreads_quoted_constant s) (hnull s hs).not_misreads
  · rintro ⟨hnull, hquote, hescape⟩
    have hnone : ∀ s, o.null ≠ some s := by simp [hnull]
    exact ⟨⟨hquote, hescape, fun s hs => absurd hs (hnone s)⟩,
      hquote, hescape, fun s _ => reads_constant s⟩

/-! ## An instance -/

/-- A backslash in front of quotes and backslashes. -/
def escapeConstant (s : Text) : Text :=
  s.flatMap fun c => if c = quote ∨ c = backslash then [backslash, c] else [c]

def unescapeConstant : Text → Option (Text × Text)
  | [] => none
  | [c] => if c = quote then some ([], []) else none
  | c :: d :: cs =>
    if c = quote then some ([], d :: cs)
    else if c = backslash then (unescapeConstant cs).map fun p => (d :: p.1, p.2)
    else (unescapeConstant (d :: cs)).map fun p => (c :: p.1, p.2)

theorem unescapeConstant_quote (rest : Text) :
    unescapeConstant (quote :: rest) = some ([], rest) := by
  cases rest <;> simp [unescapeConstant]

theorem unescapeConstant_backslash (c : Char) (rest : Text) :
    unescapeConstant (backslash :: c :: rest) =
      (unescapeConstant rest).map fun p => (c :: p.1, p.2) := by
  have hne : backslash ≠ quote := by decide
  simp [unescapeConstant, hne]

theorem unescapeConstant_cons {c : Char} (hquote : c ≠ quote) (hslash : c ≠ backslash)
    (rest : Text) :
    unescapeConstant (c :: rest) = (unescapeConstant rest).map fun p => (c :: p.1, p.2) := by
  cases rest <;> simp [unescapeConstant, hquote, hslash]

theorem unescapeConstant_escapeConstant (s rest : Text) :
    unescapeConstant (escapeConstant s ++ quote :: rest) = some (s, rest) := by
  induction s with
  | nil => exact unescapeConstant_quote rest
  | cons c s ih =>
    by_cases hc : c = quote ∨ c = backslash
    · have htext : escapeConstant (c :: s) ++ quote :: rest =
          backslash :: c :: (escapeConstant s ++ quote :: rest) := by
        simp [escapeConstant, hc]
      rw [htext, unescapeConstant_backslash, ih]
      rfl
    · have htext : escapeConstant (c :: s) ++ quote :: rest =
          c :: (escapeConstant s ++ quote :: rest) := by
        simp [escapeConstant, hc]
      rw [not_or] at hc
      rw [htext, unescapeConstant_cons hc.1 hc.2, ih]
      rfl

theorem escapeConstant_head (s : Text) (hs : ¬ Plain s) :
    ∃ c w, escapeConstant s = c :: w ∧ c ≠ quote := by
  cases s with
  | nil => exact absurd (fun c hc => absurd hc List.not_mem_nil) hs
  | cons c s =>
    by_cases hc : c = quote ∨ c = backslash
    · exact ⟨backslash, c :: escapeConstant s, by simp [escapeConstant, hc], by decide⟩
    · exact ⟨c, escapeConstant s, by simp [escapeConstant, hc], fun h => hc (.inl h)⟩

/-- Printing with the escapes of quotes and backslashes only, for ASCII. -/
def simplePrinting : Printing where
  encode := escapeConstant
  decode := unescapeConstant
  isPrint c := decide (0x20 ≤ c.toNat ∧ c.toNat < 0x7F)
  decode_encode s rest _ := unescapeConstant_escapeConstant s rest
  encode_head := escapeConstant_head

/-- CSV with the empty NULL string. -/
def emptyNull : Options := { copyFormat := .csv, null := some [] }

/-- The writer writes four quotes for it, and DuckDB reads a single quote. -/
theorem readOptions_emptyNull (lib : Printing) :
    readOptions lib (writerClauses lib emptyNull) =
      some [(.header, .word "false".toList), (.null, .literal [quote])] := by
  have hplain : Plain [] := fun c hc => absurd hc List.not_mem_nil
  have hnull : Reads lib (inQuotes (lib.constant [])) (.literal [quote]) := by
    intro rest h
    rw [Printing.constant, if_pos hplain, inQuotes_append, readSetting_quote, inQuotes_append,
      List.nil_append, readLiteral_doubled, readLiteral_quote h.head_ne_quote]
    rfl
  let clauses : List Clause :=
    [⟨.header, "HEADER".toList, headerValue emptyNull, .word (headerValue emptyNull)⟩,
      ⟨.null, "NULLSTR".toList, inQuotes (lib.constant []), .literal [quote]⟩]
  have htext : writerClauses lib emptyNull = Clause.printAll clauses := by
    rw [writerClauses_eq]
    rfl
  rw [readOptions, htext]
  refine readClauses_of_reads ?_ ?_ (length_lt_length_printAll clauses)
  · simp only [clauses, List.forall_mem_cons]
    exact ⟨⟨rfl, (by decide : ' ' ∉ "HEADER".toList)⟩,
      ⟨rfl, (by decide : ' ' ∉ "NULLSTR".toList)⟩, by simp⟩
  · simp only [clauses, List.forall_mem_cons]
    exact ⟨reads_headerValue emptyNull, hnull, by simp⟩

theorem null_string_differs : ¬ SameDialect simplePrinting emptyNull := by
  rintro ⟨⟨settings, hsettings, hlookup⟩, -⟩
  rw [readOptions_emptyNull] at hsettings
  cases hsettings
  have hnull : some (Setting.literal [quote]) = some (Setting.literal []) := hlookup .null
  simp at hnull

end MyDuck.CopyDialect
