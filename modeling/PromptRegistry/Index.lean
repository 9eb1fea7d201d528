/-! # Entries in key order -/

namespace PromptRegistry

/-- Puts a value under a key of an ascending list, in place of what stood there. -/
def insertEntry {α : Type} (key : String) (value : α) : List (String × α) → List (String × α)
  | [] => [(key, value)]
  | entry :: rest =>
      if key < entry.1 then (key, value) :: entry :: rest
      else if key = entry.1 then (key, value) :: rest
      else entry :: insertEntry key value rest

theorem mem_insertEntry {α : Type} {key : String} {value : α} {entry : String × α}
    {entries : List (String × α)} (h : entry ∈ insertEntry key value entries) :
    entry = (key, value) ∨ entry ∈ entries := by
  induction entries with
  | nil => simpa [insertEntry] using h
  | cons head rest ih =>
      rw [insertEntry] at h
      split at h
      · simpa using h
      · split at h
        · rcases List.mem_cons.mp h with h | h
          · exact .inl h
          · exact .inr (List.mem_cons_of_mem _ h)
        · rcases List.mem_cons.mp h with h | h
          · exact .inr (h ▸ List.mem_cons_self)
          · exact (ih h).imp id (List.mem_cons_of_mem _)

private theorem lt_of_not_lt_of_ne {a b : String} (h : ¬a < b) (hne : a ≠ b) : b < a := by
  have hle : b ≤ a := String.not_lt.mp h
  exact String.not_le.mp fun hab => hne (String.le_antisymm hab hle)

theorem insertEntry_ascending {α : Type} (key : String) (value : α) {entries : List (String × α)}
    (h : entries.Pairwise (·.1 < ·.1)) : (insertEntry key value entries).Pairwise (·.1 < ·.1) := by
  induction entries with
  | nil => simp [insertEntry]
  | cons head rest ih =>
      have hhead : ∀ {entry}, entry ∈ rest → head.1 < entry.1 := List.rel_of_pairwise_cons h
      rw [insertEntry]
      split
      case isTrue hlt =>
        refine h.cons fun entry hentry => ?_
        rcases List.mem_cons.mp hentry with he | he
        · exact he ▸ hlt
        · exact String.lt_trans hlt (hhead he)
      case isFalse hlt =>
        split
        case isTrue heq => exact h.of_cons.cons fun entry hentry => heq ▸ hhead hentry
        case isFalse hne =>
          refine (ih h.of_cons).cons fun entry hentry => ?_
          rcases mem_insertEntry hentry with he | he
          · exact he ▸ lt_of_not_lt_of_ne hlt hne
          · exact hhead he

/-- The value of the first entry with a key. -/
def valueAt? {α : Type} (key : String) : List (String × α) → Option α
  | [] => none
  | entry :: rest => if key = entry.1 then some entry.2 else valueAt? key rest

theorem valueAt?_insertEntry_self {α : Type} (key : String) (value : α)
    (entries : List (String × α)) : valueAt? key (insertEntry key value entries) = some value := by
  induction entries with
  | nil => simp [insertEntry, valueAt?]
  | cons head rest ih =>
      rw [insertEntry]
      split
      · simp [valueAt?]
      · split
        · simp [valueAt?]
        case isFalse hne => simp [valueAt?, hne, ih]

theorem valueAt?_insertEntry_of_ne {α : Type} {key other : String} (value : α)
    (entries : List (String × α)) (h : other ≠ key) :
    valueAt? other (insertEntry key value entries) = valueAt? other entries := by
  induction entries with
  | nil => simp [insertEntry, valueAt?, h]
  | cons head rest ih =>
      rw [insertEntry]
      split
      · simp [valueAt?, h]
      · split
        case isTrue heq => simp [valueAt?, ← heq, h]
        case isFalse => simp [valueAt?, ih]

/-- A finite map from strings to values of one type. -/
structure Index (α : Type) where
  entries : List (String × α)
  ascending : entries.Pairwise (·.1 < ·.1)

namespace Index

variable {α : Type}

def empty : Index α := ⟨[], .nil⟩

def insert (index : Index α) (key : String) (value : α) : Index α :=
  ⟨insertEntry key value index.entries, insertEntry_ascending key value index.ascending⟩

def get? (index : Index α) (key : String) : Option α := valueAt? key index.entries

def keys (index : Index α) : List String := index.entries.map Prod.fst

def size (index : Index α) : Nat := index.entries.length

/-- Binds the pairs in order, so that of two equal keys the later one wins. -/
def ofList (pairs : List (String × α)) : Index α :=
  pairs.foldl (fun index pair => index.insert pair.1 pair.2) empty

@[simp] theorem get?_insert_self (index : Index α) (key : String) (value : α) :
    (index.insert key value).get? key = some value :=
  valueAt?_insertEntry_self key value index.entries

theorem get?_insert_of_ne (index : Index α) {key other : String} (value : α) (h : other ≠ key) :
    (index.insert key value).get? other = index.get? other :=
  valueAt?_insertEntry_of_ne value index.entries h

end Index

end PromptRegistry
