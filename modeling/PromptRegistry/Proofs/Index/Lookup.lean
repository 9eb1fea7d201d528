import Mathlib.Data.List.Sort
import PromptRegistry.Index

namespace PromptRegistry

theorem valueAt?_eq_none_iff {α : Type} {key : String} {entries : List (String × α)} :
    valueAt? key entries = none ↔ ∀ entry ∈ entries, entry.1 ≠ key := by
  induction entries with
  | nil => simp [valueAt?]
  | cons head rest ih =>
      by_cases hkey : key = head.1
      · simp [valueAt?, hkey]
      · simp [valueAt?, hkey, ih, Ne.symm hkey]

theorem exists_append_of_valueAt?_eq_some {α : Type} {key : String} {value : α}
    {entries : List (String × α)} (h : valueAt? key entries = some value) :
    ∃ before rest, entries = before ++ (key, value) :: rest ∧ ∀ entry ∈ before, entry.1 ≠ key := by
  induction entries with
  | nil => simp [valueAt?] at h
  | cons head rest ih =>
      rw [valueAt?] at h
      split at h
      case isTrue hkey =>
        subst hkey
        obtain rfl := Option.some.inj h
        exact ⟨[], rest, rfl, by simp⟩
      case isFalse hkey =>
        obtain ⟨before, after, rfl, hbefore⟩ := ih h
        exact ⟨head :: before, after, rfl, List.forall_mem_cons.mpr ⟨Ne.symm hkey, hbefore⟩⟩

theorem mem_of_valueAt?_eq_some {α : Type} {key : String} {value : α}
    {entries : List (String × α)} (h : valueAt? key entries = some value) :
    (key, value) ∈ entries := by
  obtain ⟨before, rest, rfl, -⟩ := exists_append_of_valueAt?_eq_some h
  simp

theorem valueAt?_eq_some_of_mem {α : Type} {key : String} {value : α}
    {entries : List (String × α)} (hnodup : (entries.map Prod.fst).Nodup)
    (h : (key, value) ∈ entries) : valueAt? key entries = some value := by
  induction entries with
  | nil => cases h
  | cons head rest ih =>
      obtain ⟨hhead, hrest⟩ := List.nodup_cons.mp hnodup
      rcases List.mem_cons.mp h with rfl | h
      · simp [valueAt?]
      · have hne : key ≠ head.1 := fun heq => hhead (heq ▸ List.mem_map_of_mem h)
        rw [valueAt?, if_neg hne, ih hrest h]

theorem valueAt?_perm {α : Type} {first second : List (String × α)} (h : first.Perm second)
    (hnodup : (first.map Prod.fst).Nodup) (key : String) :
    valueAt? key first = valueAt? key second := by
  have hnodup' : (second.map Prod.fst).Nodup := (h.map Prod.fst).nodup_iff.mp hnodup
  cases hfirst : valueAt? key first with
  | none =>
      rw [valueAt?_eq_none_iff] at hfirst
      exact (valueAt?_eq_none_iff.mpr fun entry hentry => hfirst entry (h.mem_iff.mpr hentry)).symm
  | some value =>
      have hmem := h.mem_iff.mp (mem_of_valueAt?_eq_some hfirst)
      exact (valueAt?_eq_some_of_mem hnodup' hmem).symm

theorem valueAt?_append {α : Type} (key : String) (first second : List (String × α)) :
    valueAt? key (first ++ second) = (valueAt? key first).or (valueAt? key second) := by
  induction first with
  | nil => simp [valueAt?]
  | cons head first ih =>
      rw [List.cons_append, valueAt?, valueAt?, ih]
      split <;> simp

theorem valueAt?_map {α β : Type} (f : α → β) (key : String) (entries : List (String × α)) :
    valueAt? key (entries.map fun entry => (entry.1, f entry.2)) =
      (valueAt? key entries).map f := by
  induction entries with
  | nil => rfl
  | cons head rest ih =>
      rw [List.map_cons, valueAt?, valueAt?, ih]
      split <;> simp

theorem valueAt?_filter {α : Type} {p : String → Prop} [DecidablePred p] {key : String}
    (entries : List (String × α)) (h : p key) :
    valueAt? key (entries.filter fun entry => p entry.1) = valueAt? key entries := by
  induction entries with
  | nil => rfl
  | cons head rest ih =>
      by_cases hkey : key = head.1
      · simp [valueAt?, ← hkey, h]
      · by_cases hhead : p head.1 <;> simp [valueAt?, hkey, hhead, ih]

theorem zip_keys_nodup {α : Type} {keys : List String} (hnodup : keys.Nodup) (items : List α) :
    ((keys.zip items).map Prod.fst).Nodup := by
  rw [List.zip_eq_zip_take_min, List.map_fst_zip]
  · exact hnodup.sublist (List.take_sublist _ _)
  · simp

theorem valueAt?_zip {α : Type} {keys : List String} (hnodup : keys.Nodup) {key : String}
    {position : Nat} (hkey : keys[position]? = some key) (items : List α) :
    valueAt? key (keys.zip items) = items[position]? := by
  induction keys generalizing position items with
  | nil => cases hkey
  | cons head keys ih =>
      obtain ⟨hhead, hkeys⟩ := List.nodup_cons.mp hnodup
      cases items with
      | nil => rfl
      | cons item items =>
          cases position with
          | zero =>
              obtain rfl : head = key := Option.some.inj hkey
              simp [valueAt?]
          | succ position =>
              have hne : key ≠ head := fun heq => hhead (heq ▸ List.mem_of_getElem? hkey)
              rw [List.zip_cons_cons, valueAt?, if_neg hne, ih hkeys hkey]
              rfl

theorem insertEntry_of_greater {α : Type} {key : String} (value : α) {entries : List (String × α)}
    (h : ∀ entry ∈ entries, entry.1 < key) :
    insertEntry key value entries = entries ++ [(key, value)] := by
  induction entries with
  | nil => rfl
  | cons head rest ih =>
      have hhead : head.1 < key := h head List.mem_cons_self
      have hne : key ≠ head.1 := fun heq => String.lt_irrefl key (heq ▸ hhead)
      rw [insertEntry, if_neg (String.lt_asymm hhead), if_neg hne,
        ih fun entry hentry => h entry (List.mem_cons_of_mem _ hentry), List.cons_append]

namespace Index

variable {α : Type}

theorem mem_keys_iff {index : Index α} {key : String} :
    key ∈ index.keys ↔ index.get? key ≠ none := by
  rw [keys, get?, Ne, valueAt?_eq_none_iff, List.mem_map]
  push Not
  rfl

theorem keys_ascending (index : Index α) : index.keys.Pairwise (· < ·) :=
  List.pairwise_map.mpr index.ascending

theorem keys_nodup (index : Index α) : index.keys.Nodup :=
  index.keys_ascending.nodup

theorem keys_congr {first second : Index α}
    (h : ∀ key, first.get? key = none ↔ second.get? key = none) : first.keys = second.keys := by
  apply first.keys_ascending.eq_of_mem_iff second.keys_ascending
  intro key
  rw [mem_keys_iff, mem_keys_iff, Ne, Ne, h]

end Index

end PromptRegistry
