import PromptRegistry.Index
import PromptRegistry.Prompt.Body

/-!
# The prompt cache

Entries are replaced whole and never removed, and every store takes the next version.
-/

namespace PromptRegistry

structure Entry where
  name : String
  body : Body
  version : Nat
  deriving DecidableEq, Repr

structure Cache where
  entries : Index Entry
  lastVersion : Nat

namespace Cache

def empty : Cache := ⟨Index.empty, 0⟩

def entry? (cache : Cache) (name : String) : Option Entry := cache.entries.get? name

def lookup? (cache : Cache) (name : String) : Option Body := cache.entry? name |>.map Entry.body

def names (cache : Cache) : List String := cache.entries.keys

def size (cache : Cache) : Nat := cache.entries.size

def isEmpty (cache : Cache) : Bool := cache.size == 0

def nextEntry (cache : Cache) (name : String) (body : Body) : Entry :=
  ⟨name, body, cache.lastVersion + 1⟩

def store (cache : Cache) (name : String) (body : Body) : Cache :=
  ⟨cache.entries.insert name (cache.nextEntry name body), cache.lastVersion + 1⟩

/-- Stores a body that differs from the one under its name, and returns the entry if it did. -/
def storeIfChanged (cache : Cache) (name : String) (body : Body) : Cache × Option Entry :=
  if cache.lookup? name = some body then (cache, none)
  else (cache.store name body, some (cache.nextEntry name body))

end Cache

end PromptRegistry
