/-
MyDuck.Base.Path — paths with slashes, and the places they lead to.

A place is the list of the names on the way down from the root. `resolve`
follows a path from a working directory; `clean`, `join`, `abs` and `dir`
work on the text of a path alone and never look at a file. The main
results say what they do to the place (`resolve_clean`, `resolve_join`,
`abs_eq_text`), that a walk through a tree without links
ends where the path leads (`Tree.walk_eq_resolve`), and which places a
comparison of the texts of two paths lets in (`text_isPrefix_iff`): those
below the first one, and its siblings whose names only begin the same.
-/
import MyDuck.Base.Strings

namespace MyDuck.Paths

abbrev Name := List Char

/-! ## Places -/

/-- A name a directory can have for an entry. -/
def Real (name : Name) : Prop :=
  name ≠ [] ∧ name ≠ ['.'] ∧ name ≠ ['.', '.'] ∧ '/' ∉ name

/-- One part of a path is followed. -/
def step (place : List Name) (part : Name) : List Name :=
  if part = [] ∨ part = ['.'] then place
  else if part = ['.', '.'] then place.dropLast
  else place ++ [part]

def isAbs (path : List Char) : Bool := path.head? == some '/'

/-- The place a path leads to from the working directory. -/
def resolve (wd : List Name) (path : List Char) : List Name :=
  (path.splitOn '/').foldl step (if isAbs path then [] else wd)

@[simp] theorem step_nil (place : List Name) : step place [] = place := by simp [step]

@[simp] theorem step_dot (place : List Name) : step place ['.'] = place := by simp [step]

@[simp] theorem step_dotdot (place : List Name) : step place ['.', '.'] = place.dropLast := by
  simp [step]

theorem step_real {name : Name} (h : Real name) (place : List Name) :
    step place name = place ++ [name] := by
  simp [step, h.1, h.2.1, h.2.2.1]

theorem foldl_step_real {names : List Name} (h : ∀ n ∈ names, Real n) (place : List Name) :
    names.foldl step place = place ++ names := by
  induction names generalizing place with
  | nil => simp
  | cons n names ih =>
    rw [List.foldl_cons, step_real (h n List.mem_cons_self),
      ih fun m hm => h m (List.mem_cons_of_mem n hm)]
    simp

variable {place parts a b done : List Name} {path : List Char} {rooted : Bool}

/-- What is followed is a part between slashes: the places stay real. -/
theorem real_step {part : Name} (hplace : ∀ n ∈ place, Real n) (hpart : '/' ∉ part) :
    ∀ n ∈ step place part, Real n := by
  intro n hn
  unfold step at hn
  split_ifs at hn with hstay hup
  · exact hplace n hn
  · exact hplace n (List.mem_of_mem_dropLast hn)
  · rcases List.mem_append.mp hn with hn | hn
    · exact hplace n hn
    · obtain rfl := List.mem_singleton.mp hn
      rw [not_or] at hstay
      exact ⟨hstay.1, hstay.2, hup, hpart⟩

theorem real_foldl_step (hparts : ∀ p ∈ parts, '/' ∉ p) (hplace : ∀ n ∈ place, Real n) :
    ∀ n ∈ parts.foldl step place, Real n := by
  induction parts generalizing place with
  | nil => exact hplace
  | cons part parts ih =>
    exact ih (fun p hp => hparts p (List.mem_cons_of_mem part hp))
      (real_step hplace (hparts part List.mem_cons_self))

theorem real_resolve {wd : List Name} (hwd : ∀ n ∈ wd, Real n) (path : List Char) :
    ∀ n ∈ resolve wd path, Real n := by
  refine real_foldl_step (fun p hp => Strings.not_mem_of_mem_splitOn hp) ?_
  split
  · exact fun n hn => absurd hn List.not_mem_nil
  · exact hwd

/-- A place of a tree, with names it can have. -/
structure Place where
  names : List Name
  real : ∀ n ∈ names, Real n
  deriving DecidableEq

@[ext] theorem Place.ext {a b : Place} (h : a.names = b.names) : a = b := by
  cases a
  cases b
  cases h
  rfl

def Place.root : Place := ⟨[], List.forall_mem_nil _⟩

def Place.follow (wd : Place) (path : List Char) : Place :=
  ⟨resolve wd.names path, real_resolve wd.real path⟩

/-! ## The parts of a text -/

theorem isAbs_append {a : List Char} (h : a ≠ []) (b : List Char) : isAbs (a ++ b) = isAbs a := by
  cases a with
  | nil => exact absurd rfl h
  | cons c a => rfl

/-- A path behind a directory is followed from there. -/
theorem resolve_append_slash {dir : List Char} (h : dir ≠ []) (wd : List Name)
    (path : List Char) :
    resolve wd (dir ++ '/' :: path) = (path.splitOn '/').foldl step (resolve wd dir) := by
  rw [resolve, isAbs_append h, Strings.splitOn_append_cons, List.foldl_append, resolve]

theorem isAbs_of_not_mem (h : '/' ∉ path) : isAbs path = false := by
  cases path with
  | nil => rfl
  | cons c path =>
    have hc : c ≠ '/' := fun heq => h (heq ▸ List.mem_cons_self)
    simp [isAbs, hc]

theorem splitOn_of_not_mem (h : '/' ∉ path) : path.splitOn '/' = [path] := by
  have hsplit : ((['/'].intercalate [path]).splitOn '/') = [path] :=
    List.splitOn_intercalate '/' (by simpa using h) (List.cons_ne_nil path [])
  simpa using hsplit

/-- The parts of a joined text are followed one after the other. -/
theorem foldl_splitOn_intercalate (h : ∀ p ∈ parts, '/' ∉ p) (place : List Name) :
    ((['/'].intercalate parts).splitOn '/').foldl step place = parts.foldl step place := by
  cases parts with
  | nil => simp
  | cons p parts => rw [List.splitOn_intercalate '/' h (List.cons_ne_nil p parts)]

/-! ## Cleaning -/

/-- One part of a path is put to those in front of it. A `..` takes the
last of them away, if there is one to take. -/
def cleanStep (rooted : Bool) (done : List Name) (part : Name) : List Name :=
  if part = [] ∨ part = ['.'] then done
  else if part = ['.', '.'] then
    if done.getLast? = none ∨ done.getLast? = some ['.', '.'] then
      if rooted then done else done ++ [part]
    else done.dropLast
  else done ++ [part]

/-- The parts that are left of a path. -/
def cleanParts (path : List Char) : List Name :=
  (path.splitOn '/').foldl (cleanStep (isAbs path)) []

def ofParts (rooted : Bool) (parts : List Name) : List Char :=
  if rooted then '/' :: ['/'].intercalate parts
  else if parts = [] then ['.'] else ['/'].intercalate parts

theorem ofParts_rooted (parts : List Name) :
    ofParts true parts = '/' :: ['/'].intercalate parts := rfl

theorem ofParts_relative (h : parts ≠ []) :
    ofParts false parts = ['/'].intercalate parts := if_neg h

/-- The shortest path with the same meaning, found without a look at the
files. -/
def clean (path : List Char) : List Char := ofParts (isAbs path) (cleanParts path)

/-- What a part that is left can be. -/
def Kept (rooted : Bool) (part : Name) : Prop :=
  part ≠ [] ∧ part ≠ ['.'] ∧ '/' ∉ part ∧ (rooted = true → part ≠ ['.', '.'])

theorem Kept.real {part : Name} (h : Kept true part) : Real part :=
  ⟨h.1, h.2.1, h.2.2.2 rfl, h.2.2.1⟩

theorem kept_cleanStep {part : Name} (hdone : ∀ n ∈ done, Kept rooted n) (hpart : '/' ∉ part) :
    ∀ n ∈ cleanStep rooted done part, Kept rooted n := by
  intro n hn
  unfold cleanStep at hn
  split_ifs at hn with hstay hup hstuck hroot
  · exact hdone n hn
  · exact hdone n hn
  · rcases List.mem_append.mp hn with hn | hn
    · exact hdone n hn
    · obtain rfl := List.mem_singleton.mp hn
      rw [not_or] at hstay
      exact ⟨hstay.1, hstay.2, hpart, fun hrooted => absurd hrooted hroot⟩
  · exact hdone n (List.mem_of_mem_dropLast hn)
  · rcases List.mem_append.mp hn with hn | hn
    · exact hdone n hn
    · obtain rfl := List.mem_singleton.mp hn
      rw [not_or] at hstay
      exact ⟨hstay.1, hstay.2, hpart, fun _ => hup⟩

/-- One part has the same effect behind the parts that are left as behind
those that were read. -/
theorem foldl_step_cleanStep (hdone : ∀ n ∈ done, Kept rooted n)
    (hplace : rooted = true → place = []) (part : Name) :
    (cleanStep rooted done part).foldl step place = step (done.foldl step place) part := by
  by_cases hstay : part = [] ∨ part = ['.']
  · rw [cleanStep, if_pos hstay]
    rcases hstay with rfl | rfl
    · rw [step_nil]
    · rw [step_dot]
  · rw [cleanStep, if_neg hstay]
    by_cases hup : part = ['.', '.']
    · subst hup
      rw [if_pos rfl, step_dotdot]
      rcases List.eq_nil_or_concat done with rfl | ⟨init, last, rfl⟩
      · cases rooted with
        | false => simp
        | true => simp [hplace rfl]
      · have hlast : Kept rooted last := hdone last (by simp)
        by_cases hdots : last = ['.', '.']
        · subst hdots
          have hrooted : rooted = false := by
            cases rooted with
            | false => rfl
            | true => exact absurd rfl (hlast.2.2.2 rfl)
          simp [hrooted]
        · have hreal : Real last := ⟨hlast.1, hlast.2.1, hdots, hlast.2.2.1⟩
          simp [hdots, step_real hreal]
    · rw [if_neg hup, List.foldl_append, List.foldl_cons, List.foldl_nil]

/-- The parts that are left lead where all of them lead. -/
theorem foldl_cleanStep (hparts : ∀ p ∈ parts, '/' ∉ p) (hdone : ∀ n ∈ done, Kept rooted n)
    (hplace : rooted = true → place = []) :
    (∀ n ∈ parts.foldl (cleanStep rooted) done, Kept rooted n) ∧
      (parts.foldl (cleanStep rooted) done).foldl step place =
        parts.foldl step (done.foldl step place) := by
  induction parts generalizing done with
  | nil => exact ⟨hdone, rfl⟩
  | cons part parts ih =>
    have hstep := kept_cleanStep hdone (hparts part List.mem_cons_self)
    obtain ⟨hkept, hplaces⟩ := ih (fun p hp => hparts p (List.mem_cons_of_mem part hp)) hstep
    refine ⟨hkept, ?_⟩
    rw [List.foldl_cons, hplaces, foldl_step_cleanStep hdone hplace, List.foldl_cons]

theorem kept_cleanParts (path : List Char) : ∀ n ∈ cleanParts path, Kept (isAbs path) n :=
  (foldl_cleanStep (fun _ hp => Strings.not_mem_of_mem_splitOn hp)
    (fun _ hn => absurd hn List.not_mem_nil) (fun _ => rfl)).1

theorem foldl_step_cleanParts (wd : List Name) (path : List Char) :
    (cleanParts path).foldl step (if isAbs path then [] else wd) = resolve wd path :=
  (foldl_cleanStep (fun _ hp => Strings.not_mem_of_mem_splitOn hp)
    (fun _ hn => absurd hn List.not_mem_nil) (fun h => if_pos h)).2

theorem isAbs_ofParts (h : ∀ n ∈ parts, Kept rooted n) : isAbs (ofParts rooted parts) = rooted := by
  cases rooted with
  | true => rfl
  | false =>
    cases parts with
    | nil => rfl
    | cons n parts =>
      have hn : Kept false n := h n List.mem_cons_self
      have habs : isAbs (['/'].intercalate (n :: parts)) = isAbs n := by
        cases parts with
        | nil => simp
        | cons m parts =>
          rw [List.intercalate_cons_cons, List.append_assoc, isAbs_append hn.1]
      rw [ofParts_relative (List.cons_ne_nil n parts), habs, isAbs_of_not_mem hn.2.2.1]

theorem resolve_ofParts (h : ∀ n ∈ parts, Kept rooted n) (wd : List Name) :
    resolve wd (ofParts rooted parts) = parts.foldl step (if rooted then [] else wd) := by
  have hslash : ∀ p ∈ parts, '/' ∉ p := fun p hp => (h p hp).2.2.1
  rw [resolve, isAbs_ofParts h]
  cases rooted with
  | true =>
    have hsplit := Strings.splitOn_append_cons '/' [] (['/'].intercalate parts)
    rw [List.nil_append] at hsplit
    rw [ofParts_rooted, hsplit, List.foldl_append, foldl_splitOn_intercalate hslash]
    simp
  | false =>
    by_cases hnil : parts = []
    · subst hnil
      have hdot : ofParts false [] = ['.'] := rfl
      rw [hdot, splitOn_of_not_mem (by decide)]
      simp
    · rw [ofParts_relative hnil, foldl_splitOn_intercalate hslash]

/-- **Cleaning keeps the place.** -/
theorem resolve_clean (wd : List Name) (path : List Char) :
    resolve wd (clean path) = resolve wd path := by
  rw [clean, resolve_ofParts (kept_cleanParts path), foldl_step_cleanParts]

/-! ## The path of a place -/

/-- The absolute path of a place. -/
def text (place : List Name) : List Char :=
  if place = [] then ['/'] else place.flatMap ('/' :: ·)

theorem cons_intercalate (n : Name) (names : List Name) :
    ['/'].intercalate (n :: names) = n ++ names.flatMap ('/' :: ·) := by
  induction names generalizing n with
  | nil => simp
  | cons m names ih =>
    rw [List.intercalate_cons_cons, ih]
    simp

theorem ofParts_true (names : List Name) : ofParts true names = text names := by
  cases names with
  | nil => rfl
  | cons n names =>
    rw [ofParts_rooted, cons_intercalate, text, if_neg (List.cons_ne_nil n names)]
    rfl

/-- A clean absolute path is the one of its place. -/
theorem clean_of_isAbs (h : isAbs path = true) (wd : List Name) :
    clean path = text (resolve wd path) := by
  have hreal : ∀ n ∈ cleanParts path, Real n := fun n hn =>
    Kept.real (h ▸ kept_cleanParts path n hn)
  have hparts : cleanParts path = resolve wd path := by
    rw [← foldl_step_cleanParts, if_pos h, foldl_step_real hreal, List.nil_append]
  rw [clean, h, hparts, ofParts_true]

theorem resolve_text (h : ∀ n ∈ place, Real n) (wd : List Name) :
    resolve wd (text place) = place := by
  have hkept : ∀ n ∈ place, Kept true n := fun n hn =>
    ⟨(h n hn).1, (h n hn).2.1, (h n hn).2.2.2, fun _ => (h n hn).2.2.1⟩
  rw [← ofParts_true, resolve_ofParts hkept, if_pos rfl, foldl_step_real h, List.nil_append]

theorem isAbs_text (place : List Name) : isAbs (text place) = true := by
  cases place with
  | nil => rfl
  | cons n place => rfl

theorem text_ne_nil (place : List Name) : text place ≠ [] := by
  cases place with
  | nil | cons n place => exact List.cons_ne_nil _ _

/-! ## Joining, making absolute, and taking the directory -/

/-- The clean path of a file in a directory. Empty texts are skipped. -/
def join (dir file : List Char) : List Char :=
  if dir = [] then (if file = [] then [] else clean file) else clean (dir ++ '/' :: file)

def abs (wd : List Char) (path : List Char) : List Char :=
  if isAbs path then clean path else join wd path

/-- What stands in front of the last part. -/
def dirText (path : List Char) : List Char := path.rdropWhile (· != '/')

def base (path : List Char) : List Char := path.rtakeWhile (· != '/')

/-- The clean path of the directory a path is in. -/
def dir (path : List Char) : List Char := clean (dirText path)

/-- A file is looked for in the directory. -/
theorem resolve_join {dir : List Char} (h : dir ≠ []) (wd : List Name) (file : List Char) :
    resolve wd (join dir file) = (file.splitOn '/').foldl step (resolve wd dir) := by
  rw [join, if_neg h, resolve_clean, resolve_append_slash h]

/-- **The absolute path** is the one of the place. -/
theorem abs_eq_text {wd : List Name} (hwd : ∀ n ∈ wd, Real n) (path : List Char) :
    abs (text wd) path = text (resolve wd path) := by
  unfold abs
  split
  · rename_i habs
    exact clean_of_isAbs habs wd
  · rename_i habs
    have hwdText : isAbs (text wd ++ '/' :: path) = true := by
      rw [isAbs_append (text_ne_nil wd), isAbs_text]
    rw [join, if_neg (text_ne_nil wd), clean_of_isAbs hwdText wd,
      resolve_append_slash (text_ne_nil wd), resolve_text hwd, resolve, if_neg habs]

/-! ## Comparing texts -/

/-- The last name of the first place only begins that of the second one on
the same level. -/
def Sibling (a b : List Name) : Prop :=
  ∃ parent n m rest, a = parent ++ [n] ∧ b = parent ++ m :: rest ∧ n <+: m ∧ n ≠ m

/-- A text that is empty or begins with a slash. -/
def Slashed (s : List Char) : Prop := ∀ c ∈ s.head?, c = '/'

theorem slashed_flatMap (names : List Name) : Slashed (names.flatMap ('/' :: ·)) := by
  intro c hc
  cases names with
  | nil => simp at hc
  | cons n names => simpa [eq_comm] using hc

theorem append_isPrefix_append_iff {n m : Name} (hn : '/' ∉ n) (hm : '/' ∉ m) {s t : List Char}
    (hs : Slashed s) (ht : Slashed t) :
    n ++ s <+: m ++ t ↔ (n = m ∧ s <+: t) ∨ (s = [] ∧ n <+: m ∧ n ≠ m) := by
  induction n generalizing m with
  | nil =>
    cases m with
    | nil => simp
    | cons d m =>
      have hd : d ≠ '/' := fun heq => hm (heq ▸ List.mem_cons_self)
      cases s with
      | nil => simp
      | cons c s =>
        have hc : c = '/' := hs c rfl
        simp [hc, hd.symm]
  | cons c n ih =>
    have hc : c ≠ '/' := fun heq => hn (heq ▸ List.mem_cons_self)
    cases m with
    | nil =>
      cases t with
      | nil => simp
      | cons d t =>
        have hd : d = '/' := ht d rfl
        simp [hd, hc]
    | cons d m =>
      have hrest := ih (fun h => hn (List.mem_cons_of_mem c h))
        (fun h => hm (List.mem_cons_of_mem d h))
      rw [List.cons_append, List.cons_append, List.cons_prefix_cons, hrest,
        List.cons_prefix_cons, List.cons_eq_cons]
      grind

theorem sibling_cons_iff {n m : Name} :
    Sibling (n :: a) (m :: b) ↔ (n = m ∧ Sibling a b) ∨ (a = [] ∧ n <+: m ∧ n ≠ m) := by
  constructor
  · rintro ⟨parent, p, q, rest, ha, hb, hpq, hne⟩
    cases parent with
    | nil =>
      rw [List.nil_append, List.cons_eq_cons] at ha hb
      obtain ⟨rfl, rfl⟩ := ha
      obtain ⟨rfl, rfl⟩ := hb
      exact .inr ⟨rfl, hpq, hne⟩
    | cons r parent =>
      rw [List.cons_append, List.cons_eq_cons] at ha hb
      exact .inl ⟨ha.1.trans hb.1.symm, parent, p, q, rest, ha.2, hb.2, hpq, hne⟩
  · rintro (⟨rfl, parent, p, q, rest, rfl, rfl, hpq, hne⟩ | ⟨rfl, hnm, hne⟩)
    · exact ⟨n :: parent, p, q, rest, rfl, rfl, hpq, hne⟩
    · exact ⟨[], n, m, b, rfl, rfl, hnm, hne⟩

theorem not_sibling_nil (h : a = [] ∨ b = []) : ¬ Sibling a b := by
  rintro ⟨parent, p, q, rest, rfl, rfl, -, -⟩
  simp at h

theorem flatMap_isPrefix_iff (ha : ∀ n ∈ a, '/' ∉ n) (hb : ∀ n ∈ b, '/' ∉ n) :
    a.flatMap ('/' :: ·) <+: b.flatMap ('/' :: ·) ↔ a <+: b ∨ Sibling a b := by
  induction a generalizing b with
  | nil => simp
  | cons n a ih =>
    cases b with
    | nil => simp [not_sibling_nil]
    | cons m b =>
      have hrest := ih (fun k hk => ha k (List.mem_cons_of_mem n hk))
        (fun k hk => hb k (List.mem_cons_of_mem m hk))
      have hnil : a.flatMap ('/' :: ·) = [] ↔ a = [] := by cases a <;> simp
      rw [List.flatMap_cons, List.flatMap_cons, List.cons_append, List.cons_append,
        List.cons_prefix_cons, append_isPrefix_append_iff (ha n List.mem_cons_self)
          (hb m List.mem_cons_self) (slashed_flatMap a) (slashed_flatMap b), hrest, hnil,
        List.cons_prefix_cons, sibling_cons_iff]
      tauto

/-- **A comparison of texts** lets in the places below the first one, and
its siblings with longer names. -/
theorem text_isPrefix_iff (ha : ∀ n ∈ a, Real n) (hb : ∀ n ∈ b, Real n) :
    text a <+: text b ↔ a <+: b ∨ Sibling a b := by
  cases a with
  | nil =>
    have hslash : text [] <+: text b := by
      cases b with
      | nil => exact List.prefix_rfl
      | cons m b => exact ⟨_, rfl⟩
    simp [hslash]
  | cons n a =>
    cases b with
    | nil =>
      have hn : n ≠ [] := (ha n List.mem_cons_self).1
      simp [text, not_sibling_nil, hn]
    | cons m b =>
      rw [text, text, if_neg (List.cons_ne_nil n a), if_neg (List.cons_ne_nil m b)]
      exact flatMap_isPrefix_iff (fun k hk => (ha k hk).2.2.2) (fun k hk => (hb k hk).2.2.2)

/-! ## Trees without links -/

inductive Entry where
  | file
  | directory
  deriving DecidableEq, Repr

/-- What there is at each place. -/
abbrev Tree := List Name → Option Entry

namespace Tree

variable (t : Tree)

/-- A part is looked up in the directory that was reached. -/
def enter (place : List Name) (part : Name) : Option (List Name) :=
  if t place = some .directory ∧ (t (step place part)).isSome then some (step place part) else none

/-- What a path leads to, if all that it passes is there. -/
def walk (wd : List Name) (path : List Char) : Option (List Name) :=
  if path = [] then none
  else (path.splitOn '/').foldlM t.enter (if isAbs path then [] else wd)

variable {t}

theorem foldlM_enter {parts : List Name} {place place' : List Name}
    (h : parts.foldlM t.enter place = some place') : place' = parts.foldl step place := by
  induction parts generalizing place with
  | nil => simpa [eq_comm] using h
  | cons part parts ih =>
    rw [List.foldlM_cons, Option.bind_eq_bind, Option.bind_eq_some_iff] at h
    obtain ⟨next, henter, hrest⟩ := h
    unfold enter at henter
    split at henter
    · cases henter
      exact ih hrest
    · cases henter

/-- **A walk** ends at the place of the path. -/
theorem walk_eq_resolve {wd place : List Name} {path : List Char}
    (h : t.walk wd path = some place) : place = resolve wd path := by
  unfold walk at h
  split at h
  · cases h
  · exact foldlM_enter h

end Tree

end MyDuck.Paths
