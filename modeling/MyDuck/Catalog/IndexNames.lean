/-
MyDuck.Catalog.IndexNames — the names of indexes in DuckDB
(`EncodeIndexName` and `DecodeIndexName` of `catalog/identifier.go`).

DuckDB keeps one name for every index of a schema, so the name of the table
is written in front of it, with two dollars between them. It is read back
by splitting at two dollars, at every place where they stand.

`decodeIndexName_encode_iff`: a name comes back exactly when neither part
has two dollars and the table's name does not end in one. Such names are
different for different indexes, others may not be.
-/
import MyDuck.Base.Strings

namespace MyDuck.IndexNames

open Strings

abbrev Name := List Char

/-! ## The source -/

def separator : Name := "$$".toList

def encodeIndexName (table index : Name) : Name := table ++ separator ++ index

/-- `DecodeIndexName`: the table and the index. -/
def decodeIndexName (encodedName : Name) : Name × Name :=
  match splitAt separator encodedName.length encodedName with
  | [table, index] => (table, index)
  | _ => ([], encodedName)

/-! ## Names that come back -/

/-- Two dollars stand between the names, and nowhere else. -/
def Separable (table index : Name) : Prop :=
  ¬ separator <:+: table ++ ['$'] ∧ ¬ separator <:+: index

theorem separator_ne : separator ≠ [] := by decide

/-- **A name comes back** exactly when its parts are separable. -/
theorem decodeIndexName_encode_iff (table index : Name) :
    decodeIndexName (encodeIndexName table index) = (table, index) ↔ Separable table index := by
  have hencode : encodeIndexName table index = table ++ (separator ++ index) :=
    List.append_assoc _ _ _
  have hpair : splitAt separator (encodeIndexName table index).length
      (encodeIndexName table index) = [table, index] ↔ Separable table index := by
    rw [splitAt_eq_pair_iff separator_ne le_rfl, hencode, cut_append_iff separator_ne,
      cut_eq_none_iff separator_ne]
    rfl
  rw [← hpair]
  unfold decodeIndexName
  split
  · rename_i front rest hsplit
    simp [hsplit]
  · rename_i hsplit
    have hlonger : encodeIndexName table index ≠ index := fun heq => by
      have hlength := congrArg List.length heq
      rw [hencode] at hlength
      simp [separator] at hlength
      omega
    constructor
    · intro h
      exact absurd (Prod.mk.inj h).2 hlonger
    · intro h
      exact absurd h (hsplit table index)

/-- Different indexes have different names, if both are separable. -/
theorem encodeIndexName_inj {p q : Name × Name} (hp : Separable p.1 p.2) (hq : Separable q.1 q.2)
    (h : encodeIndexName p.1 p.2 = encodeIndexName q.1 q.2) : p = q := by
  have hp' := (decodeIndexName_encode_iff p.1 p.2).mpr hp
  have hq' := (decodeIndexName_encode_iff q.1 q.2).mpr hq
  rw [h, hq'] at hp'
  exact hp'.symm

/-- The names of the indexes of a schema are reversible: each comes back,
and no two are the same. -/
structure Reversible (schema : Set (Name × Name)) : Prop where
  decoded : ∀ p ∈ schema, decodeIndexName (encodeIndexName p.1 p.2) = p
  distinct : ∀ p ∈ schema, ∀ q ∈ schema,
    encodeIndexName p.1 p.2 = encodeIndexName q.1 q.2 → p = q

/-- **Index names are reversible** exactly when all of them are
separable. -/
theorem reversible_iff (schema : Set (Name × Name)) :
    Reversible schema ↔ ∀ p ∈ schema, Separable p.1 p.2 := by
  constructor
  · intro h p hp
    exact (decodeIndexName_encode_iff p.1 p.2).mp (h.decoded p hp)
  · intro h
    exact ⟨fun p hp => (decodeIndexName_encode_iff p.1 p.2).mpr (h p hp),
      fun p hp q hq heq => encodeIndexName_inj (h p hp) (h q hq) heq⟩

/-- A table whose name ends in a dollar, and an index whose name begins
with one. -/
theorem dollar_not_reversible :
    encodeIndexName "a$".toList "b".toList = encodeIndexName "a".toList "$b".toList ∧
      decodeIndexName (encodeIndexName "a$".toList "b".toList) = ("a".toList, "$b".toList) ∧
      ¬ Reversible {("a$".toList, "b".toList), ("a".toList, "$b".toList)} := by
  refine ⟨by decide, by decide, fun h => ?_⟩
  have hdecoded := h.decoded ("a$".toList, "b".toList) (by simp)
  exact absurd hdecoded (by decide)

end MyDuck.IndexNames
