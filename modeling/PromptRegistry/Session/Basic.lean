import PromptRegistry.Cache
import PromptRegistry.Failure
import PromptRegistry.Prompt.Body
import PromptRegistry.Text.Basic

/-!
# Sessions

Fetches end in any order. The answer of a fetch is fixed when it begins.
-/

namespace PromptRegistry

inductive Notice where
  | serving (name : String)
  | stored (name : String) (version : Nat)
  | refreshed (name : String) (version : Nat)
  | unchanged (name : String)
  | refreshFailed (name : String)
  | unavailable (name : String)
  | prefillFailed (name : String)
  | fetched (count : Nat)
  | created (name : String) (version : Nat)
  deriving DecidableEq, Repr

namespace Notice

inductive Level where
  | debug
  | info
  | warn
  deriving DecidableEq, Repr

def Level.name : Level → String
  | debug => "DEBUG"
  | info => "INFO"
  | warn => "WARN"

def level : Notice → Level
  | serving _ => .debug
  | stored _ _ => .debug
  | refreshed _ _ => .debug
  | unchanged _ => .debug
  | refreshFailed _ => .warn
  | unavailable _ => .warn
  | prefillFailed _ => .warn
  | fetched _ => .info
  | created _ _ => .info

def promptText (name : String) : String := " prompt=" ++ name

def versionText (version : Nat) : String := " version=" ++ String.ofList (decimalText version)

def message : Notice → String
  | serving name => "Serving cached prompt" ++ promptText name
  | stored name version => "Stored prompt" ++ promptText name ++ versionText version
  | refreshed name version => "Refreshed prompt" ++ promptText name ++ versionText version
  | unchanged name => "Prompt unchanged" ++ promptText name
  | refreshFailed name => "Prompt refresh failed, keeping cached copy" ++ promptText name
  | unavailable name => "Prompt unavailable, serving empty prompt" ++ promptText name
  | prefillFailed name => "Failed to prefill prompt" ++ promptText name
  | fetched count => "Prompts fetched count=" ++ String.ofList (decimalText count)
  | created name version => "Prompt created" ++ promptText name ++ versionText version

def line (notice : Notice) : String := notice.level.name ++ " " ++ notice.message

end Notice

abbrev Answer := Except Failure Body

/-- What a refresh did to the cache. -/
inductive RefreshOutcome where
  | replaced (version : Nat)
  | unchanged
  | failed
  deriving DecidableEq, Repr

/-- The result of a task. -/
inductive Outcome where
  | prompt (compiler : Compiler)
  | body (result : Except Failure Body)
  | refresh (outcome : RefreshOutcome)
  | batch (result : Except BatchFailure Unit)
  | created (result : Except Failure Record)

namespace Session

/-- Who waits for a fetch. -/
inductive Owner where
  | read (task : Nat)
  | store (task : Nat)
  | refresh (task : Nat)
  | background
  | member (task : Nat) (position : Nat)
  deriving DecidableEq, Repr

/-- A fetch in flight. -/
structure Fetch where
  number : Nat
  name : String
  answer : Answer
  owner : Owner

/-- How far one name of a batch has come. -/
inductive Progress where
  | waiting
  | stored
  | failed (failure : Failure)
  deriving Repr

structure Member where
  name : String
  progress : Progress
  deriving Repr

/-- A batch of which some names are still in flight. -/
structure Batch where
  task : Nat
  members : List Member
  deriving Repr

end Session

structure Session where
  cache : Cache
  /-- Tasks begun so far, and fetches begun so far. -/
  tasks : Nat
  fetches : Nat
  inFlight : List Session.Fetch
  /-- Names whose background refresh has not begun yet. -/
  spawned : List String
  batches : List Session.Batch

namespace Session

def start : Session := ⟨Cache.empty, 0, 0, [], [], []⟩

inductive Event where
  /-- Reads a prompt. The answer is that of the fetch, should one be needed. -/
  | get (name : String) (answer : Answer)
  | refresh (name : String) (answer : Answer)
  | fetchAndStore (name : String) (answer : Answer)
  | invalidate (members : List (String × Answer))
  | create (spec : Spec) (answer : Except Failure Record)
  | spawnRefresh (name : String)
  /-- Stores a body in the cache directly. -/
  | store (name : String) (body : Body)
  /-- Begins the spawned refresh at a position. -/
  | wake (position : Nat) (answer : Answer)
  /-- Ends the fetch with a number. -/
  | complete (number : Nat)

/-- What can be seen of an event. -/
inductive Effect where
  | notice (notice : Notice)
  | finished (task : Nat) (outcome : Outcome)

end Session

end PromptRegistry
