import Mathlib.Data.List.Induction
import PromptRegistry.Proofs.Index.Lookup

namespace PromptRegistry

variable {α : Type}

def lastValue? (key : String) (pairs : List (String × α)) : Option α :=
  (pairs.reverse.find? (·.1 == key)).map Prod.snd

theorem lastValue?_concat (key : String) (pairs : List (String × α)) (pair : String × α) :
    lastValue? key (pairs ++ [pair]) =
      if pair.1 = key then some pair.2 else lastValue? key pairs := by
  rw [lastValue?, List.reverse_append, List.reverse_singleton, List.singleton_append,
    List.find?_cons]
  by_cases hkey : pair.1 = key
  · simp [hkey]
  · simp [hkey, beq_eq_false_iff_ne.mpr hkey, lastValue?]

theorem lastValue?_eq_none_iff {key : String} {pairs : List (String × α)} :
    lastValue? key pairs = none ↔ key ∉ pairs.map Prod.fst := by
  simp only [lastValue?, Option.map_eq_none_iff, List.find?_eq_none, List.mem_reverse, beq_iff_eq,
    List.mem_map, not_exists, not_and]

namespace Index

variable {index other : Index α} {key : String}

theorem mem_entries_iff {entry : String × α} :
    entry ∈ index.entries ↔ index.get? entry.1 = some entry.2 :=
  ⟨valueAt?_eq_some_of_mem index.keys_nodup, mem_of_valueAt?_eq_some⟩

theorem eq_of_get?_eq (h : ∀ key, index.get? key = other.get? key) : index = other := by
  have hmem (entry : String × α) : entry ∈ index.entries ↔ entry ∈ other.entries := by
    rw [mem_entries_iff, mem_entries_iff, h]
  have hperm : index.entries.Perm other.entries :=
    (List.perm_ext_iff_of_nodup index.keys_nodup.of_map other.keys_nodup.of_map).mpr hmem
  have hentries : index.entries = other.entries :=
    hperm.eq_of_pairwise (fun _ _ _ _ hlt hgt => absurd hgt (String.lt_asymm hlt)) index.ascending
      other.ascending
  obtain ⟨entries, ascending⟩ := index
  obtain rfl : entries = other.entries := hentries
  rfl

theorem get?_insert (index : Index α) (key name : String) (value : α) :
    (index.insert key value).get? name = if key = name then some value else index.get? name := by
  split
  case isTrue h => rw [← h, get?_insert_self]
  case isFalse h => exact get?_insert_of_ne index value (Ne.symm h)

theorem mem_keys_insert {value : α} {name : String} :
    name ∈ (index.insert key value).keys ↔ name = key ∨ name ∈ index.keys := by
  rw [mem_keys_iff, mem_keys_iff, get?_insert]
  by_cases hname : key = name
  · simp [hname]
  · simp [hname, Ne.symm hname]

/-- The indexes that are made from a list of pairs: collected at once, or extended with the pairs
that follow. -/
inductive BuiltFrom : List (String × α) → Index α → Prop
  | collected (pairs : List (String × α)) : BuiltFrom pairs (ofList pairs)
  | inserted {pairs : List (String × α)} {index : Index α} (h : BuiltFrom pairs index)
      (key : String) (value : α) : BuiltFrom (pairs ++ [(key, value)]) (index.insert key value)

theorem ofList_concat (pairs : List (String × α)) (pair : String × α) :
    ofList (pairs ++ [pair]) = (ofList pairs).insert pair.1 pair.2 := by
  simp [ofList]

theorem get?_ofList (pairs : List (String × α)) (key : String) :
    (ofList pairs).get? key = lastValue? key pairs := by
  induction pairs using List.reverseRecOn with
  | nil => rfl
  | append_singleton pairs pair ih => rw [ofList_concat, get?_insert, lastValue?_concat, ih]

namespace BuiltFrom

variable {pairs : List (String × α)}

theorem get?_eq (h : BuiltFrom pairs index) (key : String) :
    index.get? key = lastValue? key pairs := by
  induction h with
  | collected pairs => exact get?_ofList pairs key
  | inserted h name value ih => rw [get?_insert, lastValue?_concat, ih]

theorem mem_keys_iff (h : BuiltFrom pairs index) : key ∈ index.keys ↔ key ∈ pairs.map Prod.fst := by
  rw [Index.mem_keys_iff, h.get?_eq, Ne, lastValue?_eq_none_iff, not_not]

end BuiltFrom

section

variable {p q : String → Prop} [DecidablePred p] [DecidablePred q]

/-- The entries whose keys have a property. -/
def keep (index : Index α) (p : String → Prop) [DecidablePred p] : Index α :=
  ⟨index.entries.filter fun entry => p entry.1, index.ascending.filter _⟩

/-- The index with a key unbound. -/
def without (index : Index α) (key : String) : Index α := index.keep (· ≠ key)

theorem keys_keep : (index.keep p).keys = index.keys.filter (p ·) := by
  rw [keys, keys, List.filter_map]
  rfl

theorem get?_keep (key : String) :
    (index.keep p).get? key = if p key then index.get? key else none := by
  split
  case isTrue h => exact valueAt?_filter index.entries h
  case isFalse h =>
    rw [← not_ne_iff, ← Index.mem_keys_iff, keys_keep]
    simp [h]

theorem keep_congr (h : ∀ key ∈ index.keys, p key ↔ q key) : index.keep p = index.keep q := by
  apply eq_of_get?_eq
  intro key
  rw [get?_keep, get?_keep]
  by_cases hkey : key ∈ index.keys
  · simp only [h key hkey]
  · rw [mem_keys_iff, not_ne_iff] at hkey
    simp [hkey]

theorem keep_eq_self (h : ∀ key ∈ index.keys, p key) : index.keep p = index := by
  apply eq_of_get?_eq
  intro key
  rw [get?_keep]
  by_cases hkey : key ∈ index.keys
  · rw [if_pos (h key hkey)]
  · rw [mem_keys_iff, not_ne_iff] at hkey
    simp [hkey]

theorem without_keep (index : Index α) (key : String) :
    (index.keep p).without key = index.keep fun name => p name ∧ name ≠ key := by
  apply eq_of_get?_eq
  intro name
  rw [without, get?_keep, get?_keep, get?_keep]
  by_cases hname : name = key <;> simp [hname]

end

end Index

end PromptRegistry
