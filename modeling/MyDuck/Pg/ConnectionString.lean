/-
MyDuck.Pg.ConnectionString — the connection of a subscription
(`parseConnectionString` and `ToConnectionInfo` of
`pgserver/subscription_handler.go`).

`ToConnectionInfo` prints five values with their keys, and a new connection
is made by parsing that text. The parser looks for `key=value` anywhere in
it, where a value has letters, digits, underscores and dots. So it never
returns another character, and returns all of such values
(`parseConnectionString_print_iff`).
-/
import MyDuck.Base.Regex

namespace MyDuck.ConnectionString

open Regex

abbrev Text := List Char

/-! ## The source -/

structure ConnectionDetails where
  dbName : Text
  host : Text
  port : Text
  user : Text
  password : Text
  deriving DecidableEq, Repr

/-- `[\w\.\d]`. -/
def isValueChar (c : Char) : Bool := isWord c || c == '.'

/-- `connectionRegex`: `(\b\w+)=([\w\.\d]*)`. -/
def connectionRegex : Expr :=
  .seq (.group 1 (.seq boundary (plus (.char isWord))))
    (.seq (.char (· == '=')) (.group 2 (.star (.char isValueChar))))

/-- One round of the loop over the pairs. -/
def assign (details : ConnectionDetails) (key value : Text) : ConnectionDetails :=
  if key = "dbname".toList then { details with dbName := value }
  else if key = "host".toList then { details with host := value }
  else if key = "port".toList then { details with port := value }
  else if key = "user".toList then { details with user := value }
  else if key = "password".toList then { details with password := value }
  else details

def emptyDetails : ConnectionDetails := ⟨[], [], [], [], []⟩

def withDefaults (details : ConnectionDetails) : ConnectionDetails :=
  { details with
    dbName := if details.dbName = [] then "postgres".toList else details.dbName
    port := if details.port = [] then "5432".toList else details.port }

/-- `parseConnectionString`; without a pair there is an error. -/
def parseConnectionString (connStr : Text) : Option ConnectionDetails :=
  let pairs := findAll connectionRegex connStr
  if pairs = [] then none
  else
    some (withDefaults (pairs.foldl
      (fun details pair => assign details (submatch pair.captures 1) (submatch pair.captures 2))
      emptyDetails))

def toConnectionInfo (details : ConnectionDetails) : Text :=
  "dbname=".toList ++ details.dbName ++ " user=".toList ++ details.user ++
    " password=".toList ++ details.password ++ " host=".toList ++ details.host ++
    " port=".toList ++ details.port

/-! ## What comes out -/

/-- Every value has characters of the pattern only. -/
structure Plain (details : ConnectionDetails) : Prop where
  dbName : ∀ c ∈ details.dbName, isValueChar c = true
  host : ∀ c ∈ details.host, isValueChar c = true
  port : ∀ c ∈ details.port, isValueChar c = true
  user : ∀ c ∈ details.user, isValueChar c = true
  password : ∀ c ∈ details.password, isValueChar c = true

theorem Plain.assign {details : ConnectionDetails} (h : Plain details) (key : Text) {value : Text}
    (hvalue : ∀ c ∈ value, isValueChar c = true) : Plain (assign details key value) := by
  unfold ConnectionString.assign
  split_ifs
  · exact { h with dbName := hvalue }
  · exact { h with host := hvalue }
  · exact { h with port := hvalue }
  · exact { h with user := hvalue }
  · exact { h with password := hvalue }
  · exact h

theorem Plain.withDefaults {details : ConnectionDetails} (h : Plain details) :
    Plain (withDefaults details) := by
  refine ⟨?_, h.host, ?_, h.user, h.password⟩
  · show ∀ c ∈ (if details.dbName = [] then _ else _ : Text), isValueChar c = true
    split_ifs
    · exact List.all_eq_true.mp (show "postgres".toList.all isValueChar = true from rfl)
    · exact h.dbName
  · show ∀ c ∈ (if details.port = [] then _ else _ : Text), isValueChar c = true
    split_ifs
    · exact List.all_eq_true.mp (show "5432".toList.all isValueChar = true from rfl)
    · exact h.port

/-- What a match is made of. -/
theorem pair_of_matches {s : Text} {captures : Captures} (h : Matches connectionRegex s captures) :
    ∃ key value, s = key ++ '=' :: value ∧ captures = [(1, key), (2, value)] ∧ key ≠ [] ∧
      (∀ c ∈ key, isWord c = true) ∧ ∀ c ∈ value, isValueChar c = true := by
  obtain ⟨key, _, _, _, rfl, rfl, hkey, h⟩ := matches_seq.mp h
  obtain ⟨_, value, _, _, rfl, rfl, hequals, hvalue⟩ := matches_seq.mp h
  obtain ⟨_, rfl, hinner⟩ := matches_group.mp hkey
  obtain ⟨_, _, _, _, rfl, rfl, hlook, hword⟩ := matches_seq.mp hinner
  cases hlook
  obtain ⟨hne, hall, rfl⟩ := hword.plus_char
  obtain ⟨_, rfl, rfl, hc⟩ := matches_char.mp hequals
  obtain rfl := beq_iff_eq.mp hc
  obtain ⟨_, rfl, hinner⟩ := matches_group.mp hvalue
  obtain ⟨hvalues, rfl⟩ := hinner.star_char rfl
  exact ⟨_, value, rfl, by simp, hne, hall, hvalues⟩

theorem matches_of_mem_findAll {re : Expr} {s : Text} {r : Result} (h : r ∈ findAll re s) :
    Matches re r.consumed r.captures := by
  obtain ⟨step, hstep, hr⟩ := List.mem_filterMap.mp h
  cases step with
  | skip c => cases hr
  | hit r' =>
    obtain rfl := Option.some.inj hr
    exact (scan_sound re s.length none s).2 r' hstep

/-- **The parser returns** characters of the pattern only. -/
theorem plain_parseConnectionString {connStr : Text} {details : ConnectionDetails}
    (h : parseConnectionString connStr = some details) : Plain details := by
  have hfold : ∀ (pairs : List Result) (start : ConnectionDetails), Plain start →
      (∀ r ∈ pairs, Matches connectionRegex r.consumed r.captures) →
      Plain (pairs.foldl (fun details pair =>
        assign details (submatch pair.captures 1) (submatch pair.captures 2)) start) := by
    intro pairs
    induction pairs with
    | nil => exact fun start hstart _ => hstart
    | cons r pairs ih =>
      intro start hstart hpairs
      obtain ⟨key, value, -, hcaptures, -, -, hvalue⟩ := pair_of_matches (hpairs r (by simp))
      refine ih _ (hstart.assign _ ?_) fun r' hr' => hpairs r' (by simp [hr'])
      simpa [hcaptures, submatch] using hvalue
  have hempty : Plain emptyDetails := by
    constructor <;> simp [emptyDetails]
  unfold parseConnectionString at h
  simp only at h
  split_ifs at h with hpairs
  obtain rfl := Option.some.inj h
  exact (hfold _ _ hempty fun r hr => matches_of_mem_findAll hr).withDefaults

/-! ## Reading what was printed -/

/-- Keys with their values, with a space between them. -/
def printPairs (pairs : List (Text × Text)) : Text :=
  [' '].intercalate (pairs.map fun p => p.1 ++ '=' :: p.2)

/-- A pair that can be found. -/
structure Readable (p : Text × Text) : Prop where
  key_ne : p.1 ≠ []
  key_word : ∀ c ∈ p.1, isWord c = true
  value_plain : ∀ c ∈ p.2, isValueChar c = true

theorem results_eq_nil {s : Text} (hs : ∀ c ∈ s.head?, isWord c = false) (prev : Option Char) :
    results connectionRegex prev s = [] := by
  refine List.eq_nil_iff_forall_not_mem.mpr fun r hr => ?_
  obtain ⟨rfl, hmatch⟩ := results_sound connectionRegex prev s r hr
  obtain ⟨key, value, heq, -, hne, hword, -⟩ := pair_of_matches hmatch
  obtain ⟨c, cs, rfl⟩ := List.exists_cons_of_ne_nil hne
  have hc := hs c (by simp [heq])
  rw [hword c (by simp)] at hc
  exact Bool.noConfusion hc

/-- A pair is found in front of the end or of a space. -/
theorem head_results_pair {p : Text × Text} (hp : Readable p) {prev : Option Char}
    (hprev : prev.any isWord = false) {rest : Text}
    (hrest : ∀ c ∈ rest.head?, isValueChar c = false) :
    (results connectionRegex prev (p.1 ++ '=' :: (p.2 ++ rest))).head? =
      some ⟨p.1 ++ '=' :: p.2, [(1, p.1), (2, p.2)], rest⟩ := by
  obtain ⟨key, value⟩ := p
  obtain ⟨hne, hword, hplain⟩ := hp
  obtain ⟨c, cs, rfl⟩ := List.exists_cons_of_ne_nil hne
  have hc : isWord c = true := hword c (by simp)
  have htake : ((c :: cs) ++ '=' :: (value ++ rest)).takeWhile isWord = c :: cs ∧
      ((c :: cs) ++ '=' :: (value ++ rest)).dropWhile isWord = '=' :: (value ++ rest) := by
    have hequals : isWord '=' = false := by decide
    rw [List.takeWhile_append_of_pos hword, List.dropWhile_append_of_pos hword]
    simp [hequals]
  have hvalue : (value ++ rest).takeWhile isValueChar = value ∧
      (value ++ rest).dropWhile isValueChar = rest := by
    rw [List.takeWhile_append_of_pos hplain, List.dropWhile_append_of_pos hplain]
    cases rest with
    | nil => simp
    | cons d rest => simp [hrest d rfl]
  have hlook : (results boundary prev ((c :: cs) ++ '=' :: (value ++ rest))).head? =
      some ⟨[], [], (c :: cs) ++ '=' :: (value ++ rest)⟩ := by
    simp [boundary, results, hprev, hc]
  have hkey : (results (.group 1 (.seq boundary (plus (.char isWord)))) prev
      ((c :: cs) ++ '=' :: (value ++ rest))).head? =
        some ⟨c :: cs, [(1, c :: cs)], '=' :: (value ++ rest)⟩ := by
    have hplus := head_results_plus_char hc prev (cs ++ '=' :: (value ++ rest))
    rw [← List.cons_append, htake.1, htake.2] at hplus
    exact head_results_group (head_results_seq hlook hplus)
  have hequals : (results (.char (· == '=')) ((c :: cs).getLast?.or prev)
      ('=' :: (value ++ rest))).head? = some ⟨['='], [], value ++ rest⟩ :=
    head_results_char (by decide) _ _
  have hstar := head_results_star_char isValueChar (some '=') (value ++ rest)
  rw [hvalue.1, hvalue.2] at hstar
  have hall := head_results_seq hkey (head_results_seq hequals (head_results_group (i := 2) hstar))
  rw [connectionRegex, hall]
  simp [Result.followedBy]

theorem printPairs_singleton (p : Text × Text) : printPairs [p] = p.1 ++ '=' :: (p.2 ++ []) := by
  simp [printPairs]

theorem printPairs_cons_cons (p q : Text × Text) (pairs : List (Text × Text)) :
    printPairs (p :: q :: pairs) = p.1 ++ '=' :: (p.2 ++ ' ' :: printPairs (q :: pairs)) := by
  have hcons : printPairs (p :: q :: pairs) =
      (p.1 ++ '=' :: p.2) ++ [' '] ++ printPairs (q :: pairs) := List.intercalate_cons_cons ..
  rw [hcons]
  simp

def found (steps : List Step) : List Captures := (steps.filterMap Step.hit?).map Result.captures

/-- **Pairs are found** as they were printed. -/
theorem found_scan_printPairs {pairs : List (Text × Text)} (h : ∀ p ∈ pairs, Readable p)
    {fuel : Nat} (hfuel : (printPairs pairs).length ≤ fuel) {prev : Option Char}
    (hprev : prev.any isWord = false) :
    found (scan connectionRegex fuel prev (printPairs pairs)) =
      pairs.map fun p => [(1, p.1), (2, p.2)] := by
  have hend : ∀ fuel prev, scan connectionRegex fuel prev [] = [] := fun fuel prev =>
    scan_nil (results_eq_nil (by simp) prev)
  induction pairs generalizing fuel prev with
  | nil =>
    rw [show printPairs [] = [] from rfl, hend]
    rfl
  | cons p pairs ih =>
    have hp := h p (by simp)
    have hpairs : ∀ q ∈ pairs, Readable q := fun q hq => h q (by simp [hq])
    cases pairs with
    | nil =>
      rw [printPairs_singleton] at hfuel ⊢
      obtain ⟨fuel, rfl⟩ : ∃ n, fuel = n + 1 := ⟨fuel - 1, by simp at hfuel; omega⟩
      rw [scan_hit (head_results_pair hp hprev (by simp)), hend]
      rfl
    | cons q pairs =>
      rw [printPairs_cons_cons] at hfuel ⊢
      have hlength : (printPairs (q :: pairs)).length + 2 ≤ fuel := by
        simp only [List.length_append, List.length_cons] at hfuel
        omega
      obtain ⟨fuel, rfl⟩ : ∃ n, fuel = n + 2 := ⟨fuel - 2, by omega⟩
      have hspace : ∀ prev, results connectionRegex prev (' ' :: printPairs (q :: pairs)) = [] :=
        results_eq_nil (by simp [show isWord ' ' = false from rfl])
      rw [scan_hit (head_results_pair hp hprev (by simp [show isValueChar ' ' = false from rfl])),
        scan_skip (hspace _)]
      have hrest : found (scan connectionRegex fuel (some ' ') (printPairs (q :: pairs))) = _ :=
        ih hpairs (by omega) rfl
      simp only [found, List.filterMap_cons, Step.hit?, List.map_cons] at hrest ⊢
      rw [hrest]

/-! ## The round trip -/

def pairsOf (details : ConnectionDetails) : List (Text × Text) :=
  [("dbname".toList, details.dbName), ("user".toList, details.user),
    ("password".toList, details.password), ("host".toList, details.host),
    ("port".toList, details.port)]

theorem toConnectionInfo_eq (details : ConnectionDetails) :
    toConnectionInfo details = printPairs (pairsOf details) := by
  -- the literals are taken apart at the end only
  have hprint : ∀ dbname user password host port : Text,
      (dbname ++ ['=']) ++ details.dbName ++ (' ' :: (user ++ ['='])) ++ details.user ++
          (' ' :: (password ++ ['='])) ++ details.password ++ (' ' :: (host ++ ['='])) ++
          details.host ++ (' ' :: (port ++ ['='])) ++ details.port =
        printPairs [(dbname, details.dbName), (user, details.user), (password, details.password),
          (host, details.host), (port, details.port)] := by
    intro dbname user password host port
    rw [printPairs_cons_cons, printPairs_cons_cons, printPairs_cons_cons, printPairs_cons_cons,
      printPairs_singleton]
    simp only [List.append_assoc, List.cons_append, List.nil_append, List.append_nil]
  exact hprint "dbname".toList "user".toList "password".toList "host".toList "port".toList

theorem readable_of_key {key : Text} (hkey : (!key.isEmpty && key.all isWord) = true)
    {value : Text} (hvalue : ∀ c ∈ value, isValueChar c = true) : Readable (key, value) := by
  rw [Bool.and_eq_true, List.all_eq_true] at hkey
  exact ⟨by simpa using hkey.1, hkey.2, hvalue⟩

theorem readable_pairsOf {details : ConnectionDetails} (h : Plain details) :
    ∀ p ∈ pairsOf details, Readable p := by
  simp only [pairsOf, List.forall_mem_cons]
  exact ⟨readable_of_key rfl h.dbName, readable_of_key rfl h.user, readable_of_key rfl h.password,
    readable_of_key rfl h.host, readable_of_key rfl h.port, by simp⟩

/-- The parser sees the captures only. -/
theorem parseConnectionString_eq (connStr : Text) :
    parseConnectionString connStr =
      if found (scan connectionRegex connStr.length none connStr) = [] then none
      else some (withDefaults ((found (scan connectionRegex connStr.length none connStr)).foldl
        (fun details captures => assign details (submatch captures 1) (submatch captures 2))
        emptyDetails)) := by
  rw [parseConnectionString, found, List.foldl_map]
  simp [findAll]

/-- Each key sets its own field. -/
theorem foldl_assign_pairsOf (details : ConnectionDetails) :
    (pairsOf details).foldl (fun d p => assign d (submatch [(1, p.1), (2, p.2)] 1)
      (submatch [(1, p.1), (2, p.2)] 2)) emptyDetails = details := rfl

/-- **Connection details come back** exactly when their values have
letters, digits, underscores and dots only. -/
theorem parseConnectionString_print_iff (details : ConnectionDetails)
    (hdbName : details.dbName ≠ []) (hport : details.port ≠ []) :
    parseConnectionString (toConnectionInfo details) = some details ↔ Plain details := by
  constructor
  · exact plain_parseConnectionString
  · intro h
    have hfound : found (scan connectionRegex (toConnectionInfo details).length none
        (toConnectionInfo details)) = (pairsOf details).map fun p => [(1, p.1), (2, p.2)] := by
      rw [toConnectionInfo_eq]
      exact found_scan_printPairs (readable_pairsOf h) le_rfl rfl
    have hne : (pairsOf details).map (fun p => [(1, p.1), (2, p.2)]) ≠ [] := by simp [pairsOf]
    rw [parseConnectionString_eq, hfound, if_neg hne, List.foldl_map, foldl_assign_pairsOf,
      withDefaults, if_neg hdbName, if_neg hport]

theorem parseConnectionString_print_local :
    parseConnectionString (toConnectionInfo
        ⟨"app".toList, "127.0.0.1".toList, "5432".toList, "repl".toList, "secret_1".toList⟩) =
      some ⟨"app".toList, "127.0.0.1".toList, "5432".toList, "repl".toList, "secret_1".toList⟩ :=
  (parseConnectionString_print_iff _ (by decide) (by decide)).mpr
    ⟨List.all_eq_true.mp rfl, List.all_eq_true.mp rfl, List.all_eq_true.mp rfl,
      List.all_eq_true.mp rfl, List.all_eq_true.mp rfl⟩

/-- A password with a hyphen is cut there. -/
theorem password_cut :
    parseConnectionString (toConnectionInfo
        ⟨"app".toList, "127.0.0.1".toList, "5432".toList, "repl".toList, "pass-word".toList⟩) =
      some ⟨"app".toList, "127.0.0.1".toList, "5432".toList, "repl".toList, "pass".toList⟩ := by
  decide +kernel

end MyDuck.ConnectionString
