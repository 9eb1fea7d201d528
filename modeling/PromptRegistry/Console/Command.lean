import PromptRegistry.Failure
import PromptRegistry.Prompt.Wire
import PromptRegistry.Session.Basic

/-! # Commands -/

namespace PromptRegistry

inductive Command where
  | get (name : String) (bindings : List (String × String)) (chat : Bool)
  | warm (names : List String)
  | create (path : String)
  deriving DecidableEq, Repr

/-- The operations of a prompt service, with the effects of `m`. -/
structure PromptService (m : Type → Type) where
  prompt : String → m Compiler
  invalidate : List String → m (Except BatchFailure Unit)
  createPrompt : Spec → m (Except Failure Record)

/-- What a command has written, how it ended, and what it reported. -/
structure Report where
  output : String
  result : Except Failure Unit
  notices : List Notice

namespace Report

def failure (failure : Failure) : Report := ⟨"", .error failure, []⟩

def success (output : String) (notices : List Notice) : Report := ⟨output, .ok (), notices⟩

end Report

namespace Command

def messageLine (message : Message) : String := message.role ++ ": " ++ message.content ++ "\n"

def compiledText (compiler : Compiler) (name : String) (bindings : Bindings) (chat : Bool) :
    Except Failure String :=
  if chat then
    within ("Failed to compile chat prompt: " ++ name)
      (((compiler.compileChat bindings).map fun messages => String.join (messages.map messageLine))
        |>.mapError .compile)
  else
    within ("Failed to compile text prompt: " ++ name)
      (((compiler.compileText bindings).map (· ++ "\n")).mapError .compile)

/-- The specification in a file, where the content is absent if the file cannot be read. -/
def readSpec (path : String) (content : Option String) : Except Failure Spec :=
  match content with
  | none => .error (.context ("Failed to read " ++ path) .file)
  | some text => within ("Invalid prompt spec in " ++ path) ((Spec.decoder.run text).mapError .json)

def runGet {m : Type → Type} [Monad m] (service : PromptService m) (name : String)
    (bindings : List (String × String)) (chat : Bool) : m Report := do
  let compiler ← service.prompt name
  match compiledText compiler name (Index.ofList bindings) chat with
  | .ok text => return .success text []
  | .error failure => return .failure failure

def runWarm {m : Type → Type} [Monad m] (service : PromptService m) (names : List String) :
    m Report := do
  match ← service.invalidate names with
  | .error batch => return .failure batch.failure
  | .ok () =>
      let count := String.ofList (decimalText names.length)
      return .success ("Fetched " ++ count ++ " prompt(s)\n") [.fetched names.length]

def runCreate {m : Type → Type} [Monad m] (service : PromptService m)
    (readFile : String → m (Option String)) (path : String) : m Report := do
  match readSpec path (← readFile path) with
  | .error failure => return .failure failure
  | .ok spec =>
      match ← service.createPrompt spec with
      | .error failure => return .failure failure
      | .ok record =>
          return .success (record.json.pretty ++ "\n") [.created record.name record.version]

def run {m : Type → Type} [Monad m] (service : PromptService m)
    (readFile : String → m (Option String)) : Command → m Report
  | get name bindings chat => runGet service name bindings chat
  | warm names => runWarm service names
  | create path => runCreate service readFile path

end Command

end PromptRegistry
