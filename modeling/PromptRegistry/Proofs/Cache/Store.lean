import PromptRegistry.Cache

namespace PromptRegistry.Cache

/-- The cache after a body was stored under a name, if one was. -/
def written (cache : Cache) : Option (String × Body) → Cache
  | none => cache
  | some (name, body) => cache.store name body

@[simp] theorem lastVersion_store (cache : Cache) (name : String) (body : Body) :
    (cache.store name body).lastVersion = cache.lastVersion + 1 := rfl

@[simp] theorem entry?_store_self (cache : Cache) (name : String) (body : Body) :
    entry? (cache.store name body) name = some (cache.nextEntry name body) :=
  Index.get?_insert_self _ _ _

theorem entry?_store_of_ne (cache : Cache) {name other : String} (body : Body) (h : other ≠ name) :
    entry? (cache.store name body) other = cache.entry? other :=
  Index.get?_insert_of_ne _ _ h

/-- The body that is cached under a name, with the name its entry gives. -/
def held? (cache : Cache) (name : String) : Option (String × Body) :=
  cache.entry? name |>.map fun entry => (entry.name, entry.body)

@[simp] theorem held?_store_self (cache : Cache) (name : String) (body : Body) :
    (cache.store name body).held? name = some (name, body) := by
  rw [held?, entry?_store_self]
  rfl

theorem held?_store_of_ne (cache : Cache) {name other : String} (body : Body) (h : other ≠ name) :
    (cache.store name body).held? other = cache.held? other := by
  rw [held?, entry?_store_of_ne cache body h, held?]

theorem held?_eq_none_iff {cache : Cache} {name : String} :
    cache.held? name = none ↔ cache.entry? name = none :=
  Option.map_eq_none_iff

theorem lookup?_eq_held? (cache : Cache) (name : String) :
    cache.lookup? name = (cache.held? name).map Prod.snd := by
  rw [lookup?, held?, Option.map_map]
  rfl

@[simp] theorem lookup?_store_self (cache : Cache) (name : String) (body : Body) :
    (cache.store name body).lookup? name = some body := by
  rw [lookup?, entry?_store_self]
  rfl

theorem lookup?_store_of_ne (cache : Cache) {name other : String} (body : Body)
    (h : other ≠ name) : (cache.store name body).lookup? other = cache.lookup? other := by
  rw [lookup?, entry?_store_of_ne cache body h, lookup?]

theorem lookup?_written_isSome {cache : Cache} {name : String} (stored : Option (String × Body))
    (h : (cache.lookup? name).isSome) : ((cache.written stored).lookup? name).isSome := by
  rcases stored with _ | ⟨other, body⟩
  · exact h
  · by_cases hname : name = other
    · subst hname
      simp [written]
    · rwa [written, lookup?_store_of_ne cache body hname]

end PromptRegistry.Cache
