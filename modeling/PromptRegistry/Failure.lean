import PromptRegistry.Json.Decoder
import PromptRegistry.Prompt.Compiler
import PromptRegistry.Text.Basic
import PromptRegistry.Url.Basic

namespace PromptRegistry

inductive Failure where
  | message (text : String)
  | context (text : String) (cause : Failure)
  | compile (fault : CompileFault)
  /-- Some names of a batch could not be fetched; the cause is that of the first of them. -/
  | prefill (names : List String) (first : Failure)
  | status (code : Nat)
  | unknownType (name : String)
  | header (name : String)
  | url (fault : Url.Fault)
  | count (fault : CountFault)
  | json (fault : Json.Fault)
  | transport
  | file
  deriving Repr

namespace Failure

def prefillMessage (names : List String) : String :=
  "Failed to prefill cache for: " ++ ", ".intercalate names

/-- The messages from the outermost inwards. -/
def chain : Failure → List String
  | message text => [text]
  | context text cause => text :: cause.chain
  | compile fault => [fault.message]
  | prefill names first => prefillMessage names :: first.chain
  | status code => ["Invalid Status Code: " ++ String.ofList (decimalText code)]
  | unknownType name => ["Unknown prompt type: " ++ name]
  | header name => ["Invalid value for header: " ++ name]
  | url fault => [fault.message]
  | count fault => [fault.message]
  | json fault => [fault.message]
  | transport => []
  | file => []

/-- The failure beneath all contexts. -/
def cause : Failure → Failure
  | context _ inner => inner.cause
  | failure => failure

end Failure

structure BatchFailure where
  names : List String
  first : Failure
  deriving Repr

def BatchFailure.failure (batch : BatchFailure) : Failure := .prefill batch.names batch.first

/-- Adds to a failure what was being done. -/
def within {α : Type} (text : String) (result : Except Failure α) : Except Failure α :=
  result.mapError (Failure.context text)

end PromptRegistry
