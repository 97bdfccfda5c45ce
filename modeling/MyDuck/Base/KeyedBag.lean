/-
MyDuck.Base.KeyedBag — bags of rows with a key, the edits applied to
them, and the per-key reading of a list of edits.

A table without a unique index is a bag: nothing in the store keeps two
rows of one key apart. `Edit.put` and `Edit.del` are the two edits a
change history is made of, `applyAll` is the sequential reading of a
history, and `mem_applyAll` is its per-key reading: the last edit of a
key decides, and a key no edit names keeps its rows. Two bags whose keys
are unique are equal as soon as they have the same members
(`UniqueKeys.ext`), so an equation between a bulk rewrite of a table and
the sequential reading of its history reduces to `mem_applyAll`.

`Settled` says when a list of replacements may be applied with all
removals before all puts. `LocalOn K f` says that the statement `f` is
about the rows of the keys in `K` only: edits of other keys may be moved
past it (`LocalOn.applyAll`), which is what reorders two write paths.
-/
import Mathlib

namespace MyDuck.KeyedBag

/-- One edit of a keyed bag: put a row in the place of whatever has its
key, or remove a key. -/
inductive Edit (κ ρ : Type) where
  | put (r : ρ)
  | del (k : κ)
  deriving DecidableEq, Repr

variable {κ ρ : Type} (key : ρ → κ)

def Edit.target : Edit κ ρ → κ
  | .put r => key r
  | .del k => k

@[simp] theorem target_put (r : ρ) : (Edit.put r : Edit κ ρ).target key = key r := rfl

@[simp] theorem target_del (k : κ) : (Edit.del k : Edit κ ρ).target key = k := rfl

/-! ## Unique keys -/

/-- No two rows of the bag have the same key. -/
def UniqueKeys (b : Multiset ρ) : Prop := (b.map key).Nodup

def Absent (k : κ) (b : Multiset ρ) : Prop := ∀ r ∈ b, key r ≠ k

variable {b : Multiset ρ} {k : κ} {es : List (Edit κ ρ)} {ps : List (ρ × ρ)}

theorem UniqueKeys.ext {a : Multiset ρ} (ha : UniqueKeys key a) (hb : UniqueKeys key b)
    (h : ∀ r, r ∈ a ↔ r ∈ b) : a = b :=
  (Multiset.Nodup.ext (Multiset.Nodup.of_map key ha) (Multiset.Nodup.of_map key hb)).mpr h

theorem UniqueKeys.of_le {a : Multiset ρ} (hb : UniqueKeys key b) (h : a ≤ b) : UniqueKeys key a :=
  Multiset.nodup_of_le (Multiset.map_le_map h) hb

theorem uniqueKeys_cons {r : ρ} :
    UniqueKeys key (r ::ₘ b) ↔ Absent key (key r) b ∧ UniqueKeys key b := by
  simp [UniqueKeys, Absent, Multiset.nodup_cons, Multiset.mem_map]

/-! ## Edits -/

variable [DecidableEq κ]

instance (k : κ) (b : Multiset ρ) : Decidable (Absent key k b) :=
  inferInstanceAs (Decidable (∀ r ∈ b, key r ≠ k))

instance (b : Multiset ρ) : Decidable (UniqueKeys key b) :=
  inferInstanceAs (Decidable (b.map key).Nodup)

def eraseKey (k : κ) (b : Multiset ρ) : Multiset ρ :=
  b.filter (fun r => key r ≠ k)

def eraseKeys (ks : List κ) (b : Multiset ρ) : Multiset ρ :=
  b.filter (fun r => key r ∉ ks)

def apply (b : Multiset ρ) : Edit κ ρ → Multiset ρ
  | .put r => r ::ₘ eraseKey key (key r) b
  | .del k => eraseKey key k b

/-- The sequential reading of a history. -/
def applyAll (b : Multiset ρ) (es : List (Edit κ ρ)) : Multiset ρ :=
  es.foldl (apply key) b

def lastFor (k : κ) (es : List (Edit κ ρ)) : Option (Edit κ ρ) :=
  (es.filter (fun e => e.target key = k)).getLast?

@[simp] theorem mem_eraseKey {r : ρ} : r ∈ eraseKey key k b ↔ r ∈ b ∧ key r ≠ k := by
  simp [eraseKey]

@[simp] theorem mem_eraseKeys {ks : List κ} {r : ρ} :
    r ∈ eraseKeys key ks b ↔ r ∈ b ∧ key r ∉ ks := by
  simp [eraseKeys]

@[simp] theorem applyAll_nil (b : Multiset ρ) : applyAll key b [] = b := rfl

@[simp] theorem applyAll_cons (b : Multiset ρ) (e : Edit κ ρ) (es : List (Edit κ ρ)) :
    applyAll key b (e :: es) = applyAll key (apply key b e) es := rfl

theorem applyAll_append (b : Multiset ρ) (es fs : List (Edit κ ρ)) :
    applyAll key b (es ++ fs) = applyAll key (applyAll key b es) fs := by
  simp [applyAll, List.foldl_append]

/-! ## The per-key reading -/

@[simp] theorem lastFor_nil (k : κ) : lastFor key k ([] : List (Edit κ ρ)) = none := rfl

theorem lastFor_append_singleton (k : κ) (es : List (Edit κ ρ)) (e : Edit κ ρ) :
    lastFor key k (es ++ [e]) = if e.target key = k then some e else lastFor key k es := by
  by_cases h : e.target key = k
  · simp [lastFor, List.filter_append, h]
  · simp [lastFor, List.filter_append, h]

theorem lastFor_eq_none : lastFor key k es = none ↔ ∀ e ∈ es, e.target key ≠ k := by
  simp [lastFor]

theorem lastFor_append (k : κ) (es fs : List (Edit κ ρ)) :
    lastFor key k (es ++ fs) = (lastFor key k fs).or (lastFor key k es) := by
  rw [lastFor, List.filter_append, List.getLast?_append]
  rfl

theorem lastFor_mem {e : Edit κ ρ} (h : lastFor key k es = some e) : e ∈ es ∧ e.target key = k := by
  have hm := List.mem_of_getLast? h
  simpa using hm

/-- The last edit of a key decides whether a row is there; a key that no
edit names keeps its rows. -/
theorem mem_applyAll (b : Multiset ρ) (es : List (Edit κ ρ)) (r : ρ) :
    r ∈ applyAll key b es ↔
      lastFor key (key r) es = some (.put r) ∨
        (lastFor key (key r) es = none ∧ r ∈ b) := by
  induction es using List.reverseRecOn with
  | nil => simp
  | append_singleton es e ih =>
    rw [applyAll_append, lastFor_append_singleton, applyAll_cons, applyAll_nil]
    cases e with
    | put s =>
      by_cases hk : key s = key r
      · by_cases hrs : r = s
        · subst hrs; simp [apply]
        · have hsr : ¬ s = r := fun h => hrs h.symm
          simp [apply, hk, hrs, hsr]
      · have hrs : r ≠ s := fun h => hk (by rw [h])
        have hk' : key r ≠ key s := fun h => hk h.symm
        simp [apply, hk, hk', hrs, ih]
    | del k =>
      by_cases hk : k = key r
      · subst hk; simp [apply]
      · have hk' : key r ≠ k := fun h => hk h.symm
        simp [apply, hk, hk', ih]

theorem UniqueKeys.eraseKey (hb : UniqueKeys key b) (k : κ) : UniqueKeys key (eraseKey key k b) :=
  hb.of_le key (Multiset.filter_le _ _)

theorem UniqueKeys.eraseKeys (hb : UniqueKeys key b) (ks : List κ) :
    UniqueKeys key (eraseKeys key ks b) :=
  hb.of_le key (Multiset.filter_le _ _)

theorem UniqueKeys.apply (hb : UniqueKeys key b) (e : Edit κ ρ) :
    UniqueKeys key (apply key b e) := by
  cases e with
  | put r =>
    refine (uniqueKeys_cons key).mpr ⟨?_, hb.eraseKey key _⟩
    intro s hs
    exact ((mem_eraseKey key).mp hs).2
  | del k => exact hb.eraseKey key k

theorem UniqueKeys.applyAll (hb : UniqueKeys key b) (es : List (Edit κ ρ)) :
    UniqueKeys key (applyAll key b es) := by
  induction es generalizing b with
  | nil => exact hb
  | cons e es ih => exact ih (hb.apply key e)

/-- Histories with the same last edits have the same effect. -/
theorem UniqueKeys.applyAll_congr (hb : UniqueKeys key b) {fs : List (Edit κ ρ)}
    (h : ∀ k, lastFor key k es = lastFor key k fs) :
    MyDuck.KeyedBag.applyAll key b es = MyDuck.KeyedBag.applyAll key b fs := by
  refine UniqueKeys.ext key (hb.applyAll key es) (hb.applyAll key fs) fun r => ?_
  rw [mem_applyAll, mem_applyAll, h]

/-! ## Histories of puts, histories of deletes -/

theorem eraseKey_of_absent (h : Absent key k b) : eraseKey key k b = b :=
  Multiset.filter_eq_self.mpr h

theorem eraseKey_eq_erase [DecidableEq ρ] (hb : UniqueKeys key b) {r : ρ} (hr : r ∈ b) :
    eraseKey key (key r) b = b.erase r := by
  obtain ⟨c, rfl⟩ := Multiset.exists_cons_of_mem hr
  have habs := ((uniqueKeys_cons key).mp hb).1
  rw [Multiset.erase_cons_head, eraseKey, Multiset.filter_cons_of_neg _ (by simp)]
  exact eraseKey_of_absent key habs

/-- Every `put` of the history finds its key absent. -/
def PutsFresh (b : Multiset ρ) : List (Edit κ ρ) → Prop
  | [] => True
  | e :: es => (∀ r, e = .put r → Absent key (key r) b) ∧ PutsFresh (apply key b e) es

theorem PutsFresh.append {fs : List (Edit κ ρ)} (he : PutsFresh key b es)
    (hf : PutsFresh key (applyAll key b es) fs) : PutsFresh key b (es ++ fs) := by
  induction es generalizing b with
  | nil => exact hf
  | cons e es ih => exact ⟨he.1, ih he.2 hf⟩

/-- A history of puts on absent keys is a plain bulk insertion. -/
theorem applyAll_puts_of_fresh (rs : List ρ) (b : Multiset ρ)
    (h : PutsFresh key b (rs.map (Edit.put : ρ → Edit κ ρ))) :
    applyAll key b (rs.map .put) = (rs : Multiset ρ) + b := by
  induction rs generalizing b with
  | nil => simp
  | cons r rs ih =>
    obtain ⟨hr, hrs⟩ := h
    have hb : apply key b (.put r) = r ::ₘ b := by
      rw [apply, eraseKey_of_absent key (hr r rfl)]
    rw [hb] at hrs
    rw [List.map_cons, applyAll_cons, hb, ih _ hrs, Multiset.add_cons, ← Multiset.cons_coe,
      Multiset.cons_add]

/-- Puts of rows with different keys are an upsert: the rows are there, and
the other keys keep theirs. -/
theorem mem_applyAll_puts {rs : List ρ} (hn : (rs.map key).Nodup) {f : ρ} :
    f ∈ applyAll key b (rs.map .put) ↔ f ∈ rs ∨ (key f ∉ rs.map key ∧ f ∈ b) := by
  induction rs generalizing b with
  | nil => simp
  | cons r rs ih =>
    rw [List.map_cons, List.nodup_cons] at hn
    rw [List.map_cons, applyAll_cons, ih hn.2]
    simp only [apply, Multiset.mem_cons, mem_eraseKey, List.map_cons, List.mem_cons, not_or]
    constructor
    · rintro (h | ⟨hk, rfl | ⟨hb, hr⟩⟩)
      · exact .inl (.inr h)
      · exact .inl (.inl rfl)
      · exact .inr ⟨⟨hr, hk⟩, hb⟩
    · rintro ((rfl | h) | ⟨⟨hr, hk⟩, hb⟩)
      · exact .inr ⟨hn.1, .inl rfl⟩
      · exact .inl h
      · exact .inr ⟨hk, .inr ⟨hb, hr⟩⟩

theorem applyAll_dels (ks : List κ) (b : Multiset ρ) :
    applyAll key b (ks.map .del) = eraseKeys key ks b := by
  induction ks generalizing b with
  | nil => simp [eraseKeys]
  | cons k ks ih =>
    rw [List.map_cons, applyAll_cons, ih]
    simp only [apply, eraseKeys, eraseKey, Multiset.filter_filter, List.mem_cons, not_or]
    refine Multiset.filter_congr fun r _ => ?_
    exact and_comm

/-! ## Replacements

A replacement takes one row away and puts another, under the same key or
not. A list of them can be applied one after another, or with all
removals before all puts. The two agree unless a key that one replacement
filled is emptied by a later one for good. -/

/-- The replacements one after another. -/
def replaceEdits (ps : List (ρ × ρ)) : List (Edit κ ρ) :=
  ps.flatMap (fun p => [.del (key p.1), .put p.2])

/-- All removals, then all puts. -/
def batchEdits (ps : List (ρ × ρ)) : List (Edit κ ρ) :=
  ps.map (fun p => .del (key p.1)) ++ ps.map (fun p => .put p.2)

/-- When a replacement takes away the row of a key that an earlier one
filled, it or a later one fills the key again. -/
def Settled (ps : List (ρ × ρ)) : Prop :=
  ∀ pre p post, ps = pre ++ p :: post → (∃ q ∈ pre, key q.2 = key p.1) →
    ∃ q ∈ p :: post, key q.2 = key p.1

/-- The key was filled and then emptied for good. -/
def Lost (k : κ) (ps : List (ρ × ρ)) : Prop :=
  ∃ pre p post, ps = pre ++ p :: post ∧ key p.1 = k ∧ (∃ q ∈ pre, key q.2 = k) ∧
    ∀ q ∈ p :: post, key q.2 ≠ k

omit [DecidableEq κ] in
theorem settled_iff : Settled key ps ↔ ∀ k, ¬ Lost key k ps := by
  constructor
  · rintro h k ⟨pre, p, post, hps, rfl, hq, hnot⟩
    obtain ⟨q, hmem, hk⟩ := h pre p post hps hq
    exact hnot q hmem hk
  · intro h pre p post hps hq
    by_contra hnot
    exact h (key p.1) ⟨pre, p, post, hps, rfl, hq, fun q hmem hk => hnot ⟨q, hmem, hk⟩⟩

omit [DecidableEq κ] in
theorem Lost.filled (h : Lost key k ps) : ∃ q ∈ ps, key q.2 = k := by
  obtain ⟨pre, p, post, rfl, -, ⟨q, hq, hk⟩, -⟩ := h
  exact ⟨q, List.mem_append_left _ hq, hk⟩

omit [DecidableEq κ] in
theorem lost_append_singleton {p : ρ × ρ} :
    Lost key k (ps ++ [p]) ↔
      key p.2 ≠ k ∧ (Lost key k ps ∨ (key p.1 = k ∧ ∃ q ∈ ps, key q.2 = k)) := by
  constructor
  · rintro ⟨pre, q, post, heq, hk, hfilled, hnot⟩
    rcases List.eq_nil_or_concat post with rfl | ⟨post', r, rfl⟩
    · obtain ⟨rfl, hq⟩ := List.append_inj' heq rfl
      obtain rfl : p = q := by simpa using hq
      exact ⟨hnot p List.mem_cons_self, .inr ⟨hk, hfilled⟩⟩
    · have heq' : ps ++ [p] = (pre ++ q :: post') ++ [r] := by simpa using heq
      obtain ⟨rfl, hr⟩ := List.append_inj' heq' rfl
      obtain rfl : p = r := by simpa using hr
      refine ⟨hnot p (by simp), .inl ⟨pre, q, post', rfl, hk, hfilled, fun x hx => hnot x ?_⟩⟩
      rcases List.mem_cons.mp hx with rfl | hx
      · exact List.mem_cons_self
      · simp [hx]
  · rintro ⟨hp, ⟨pre, q, post, rfl, hk, hfilled, hnot⟩ | ⟨hk, hfilled⟩⟩
    · refine ⟨pre, q, post ++ [p], by simp, hk, hfilled, fun x hx => ?_⟩
      rw [← List.cons_append, List.mem_append, List.mem_singleton] at hx
      rcases hx with hx | rfl
      · exact hnot x hx
      · exact hp
    · exact ⟨ps, p, [], rfl, hk, hfilled, fun x hx => by
        obtain rfl := List.mem_singleton.mp hx
        exact hp⟩

theorem lastFor_batch_append_singleton (k : κ) (ps : List (ρ × ρ)) (p : ρ × ρ) :
    lastFor key k (batchEdits key (ps ++ [p])) =
      if key p.2 = k then some (.put p.2)
      else (lastFor key k (ps.map (fun p => (.put p.2 : Edit κ ρ)))).or
        (if key p.1 = k then some (.del (key p.1))
          else lastFor key k (ps.map (fun p => .del (key p.1)))) := by
  rw [batchEdits, lastFor_append, List.map_append, List.map_append, List.map_cons, List.map_cons,
    List.map_nil, List.map_nil, lastFor_append_singleton, lastFor_append_singleton]
  by_cases hput : key p.2 = k <;> by_cases hdel : key p.1 = k <;> simp [hput, hdel]

theorem lastFor_replace_append_singleton (k : κ) (ps : List (ρ × ρ)) (p : ρ × ρ) :
    lastFor key k (replaceEdits key (ps ++ [p])) =
      if key p.2 = k then some (.put p.2)
      else if key p.1 = k then some (.del (key p.1)) else lastFor key k (replaceEdits key ps) := by
  have happ : replaceEdits key (ps ++ [p])
      = (replaceEdits key ps ++ [.del (key p.1)]) ++ [.put p.2] := by
    simp [replaceEdits]
  rw [happ, lastFor_append_singleton, lastFor_append_singleton]
  by_cases hput : key p.2 = k <;> by_cases hdel : key p.1 = k <;> simp [hput, hdel]

theorem lastFor_puts_eq_none :
    lastFor key k (ps.map (fun p => (.put p.2 : Edit κ ρ))) = none ↔ ∀ q ∈ ps, key q.2 ≠ k := by
  rw [lastFor_eq_none, List.forall_mem_map]
  rfl

/-- Both orders end with the same edit of a key unless it is lost. -/
theorem lastFor_batch_eq_iff (k : κ) (ps : List (ρ × ρ)) :
    lastFor key k (batchEdits key ps) = lastFor key k (replaceEdits key ps) ↔ ¬ Lost key k ps := by
  induction ps using List.reverseRecOn with
  | nil => simp [batchEdits, replaceEdits, Lost]
  | append_singleton ps p ih =>
    rw [lastFor_batch_append_singleton, lastFor_replace_append_singleton, lost_append_singleton]
    by_cases hput : key p.2 = k
    · simp [hput]
    · by_cases hdel : key p.1 = k
      · -- the removal decides unless a put of an earlier replacement follows it
        have hlost : (Lost key k ps ∨ (key p.1 = k ∧ ∃ q ∈ ps, key q.2 = k)) ↔
            ∃ q ∈ ps, key q.2 = k :=
          ⟨fun h => h.elim (Lost.filled key) And.right, fun h => .inr ⟨hdel, h⟩⟩
        rw [if_neg hput, if_neg hput, if_pos hdel, if_pos hdel, hlost]
        cases hl : lastFor key k (ps.map (fun p => (.put p.2 : Edit κ ρ))) with
        | none =>
          have hno := (lastFor_puts_eq_none key).mp hl
          simpa [hput] using hno
        | some e =>
          obtain ⟨he, hk⟩ := lastFor_mem key hl
          obtain ⟨q, hq, rfl⟩ := List.mem_map.mp he
          have hfilled : ∃ q ∈ ps, key q.2 = k := ⟨q, hq, by simpa using hk⟩
          simp [hput, hfilled]
      · rw [if_neg hput, if_neg hput, if_neg hdel, if_neg hdel, ← lastFor_append]
        simp only [hput, hdel, ne_eq, not_false_eq_true, true_and, false_and, or_false]
        exact ih

/-- **Replacements may be batched exactly when they are settled.** -/
theorem applyAll_batch_eq_iff (hb : UniqueKeys key b) (ps : List (ρ × ρ)) :
    applyAll key b (batchEdits key ps) = applyAll key b (replaceEdits key ps) ↔
      Settled key ps := by
  rw [settled_iff]
  constructor
  · intro heq k hlost
    have hne := mt (lastFor_batch_eq_iff key k ps).mp (not_not.mpr hlost)
    -- the batch ends the key with a put, the sequence does not
    obtain ⟨q, hq, hqk⟩ := hlost.filled key
    cases hl : lastFor key k (ps.map (fun p => (.put p.2 : Edit κ ρ))) with
    | none => exact (lastFor_puts_eq_none key).mp hl q hq hqk
    | some e =>
      obtain ⟨he, hek⟩ := lastFor_mem key hl
      obtain ⟨v, hv, rfl⟩ := List.mem_map.mp he
      have hbatch : lastFor key (key v.2) (batchEdits key ps) = some (.put v.2) := by
        rw [batchEdits, lastFor_append, show key v.2 = k from hek, hl]
        rfl
      have hin : v.2 ∈ applyAll key b (replaceEdits key ps) :=
        heq ▸ (mem_applyAll key b _ v.2).mpr (.inl hbatch)
      rcases (mem_applyAll key b _ v.2).mp hin with hput | ⟨hnone, -⟩
      · rw [show key v.2 = k from hek] at hbatch hput
        exact hne (hbatch.trans hput.symm)
      · rw [lastFor_eq_none] at hnone
        exact hnone (.put v.2)
          (List.mem_flatMap.mpr ⟨v, hv, by simp⟩) rfl
  · intro h
    exact hb.applyAll_congr key fun k => (lastFor_batch_eq_iff key k ps).mpr (h k)

end MyDuck.KeyedBag
