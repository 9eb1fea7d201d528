import PromptRegistry.Session.Runner

/-! # A source in memory -/

namespace PromptRegistry

structure MemorySource where
  answers : Index (Except String Body)
  createFailure : Option String
  created : Nat
  config : Json

namespace MemorySource

def empty : MemorySource := ⟨Index.empty, none, 0, .null⟩

def fetch (memory : MemorySource) (name : String) : Answer :=
  match memory.answers.get? name with
  | some (.ok body) => .ok body
  | some (.error text) => .error (.message text)
  | none => .error (.message "not found")

def create (memory : MemorySource) (spec : Spec) : Except Failure Record :=
  match memory.createFailure with
  | some text => .error (.message text)
  | none =>
      let number := memory.created + 1
      .ok (spec.record ("created-" ++ String.ofList (decimalText number)) number memory.config)

def source (memory : MemorySource) : Source := ⟨memory.fetch, memory.create⟩

/-- The source after it was asked to create a prompt. -/
def afterCreate (memory : MemorySource) : MemorySource :=
  match memory.createFailure with
  | some _ => memory
  | none => { memory with created := memory.created + 1 }

/-- The source without a body or failure for a name. -/
def forget (memory : MemorySource) (name : String) : MemorySource :=
  { memory with answers := Index.ofList (memory.answers.entries.filter (·.1 != name)) }

end MemorySource

end PromptRegistry
