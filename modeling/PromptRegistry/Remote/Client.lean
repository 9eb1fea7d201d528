import PromptRegistry.Failure
import PromptRegistry.Prompt.Wire
import PromptRegistry.Session.Runner
import PromptRegistry.Settings.Basic
import PromptRegistry.Text.Basic

/-! # The remote store -/

namespace PromptRegistry.Remote

structure Envelope where
  kind : String
  prompt : Json
  deriving Repr

namespace Envelope

def fields : Json.Fields Envelope :=
  Json.Fields.pure Envelope.mk
    |>.and (.required "type" Json.Decoder.text)
    |>.and (.required "prompt" promptDecoder)
where
  promptDecoder : Json.Decoder Json := fun tree =>
    (Json.Decoder.value (nestingLimit - 1) tree).map Json.canonical

def decoder : Json.Decoder Envelope := fields.decoder "PromptResponse"

def body (envelope : Envelope) : Except Failure Body :=
  match Kind.ofName? envelope.kind with
  | none => .error (.unknownType envelope.kind)
  | some .text =>
      within "Text prompt is not a string"
        (((Json.Decoder.text (Json.Tree.ofValue envelope.prompt)).map Body.text).mapError .json)
  | some .chat =>
      within "Chat prompt is not a list of messages"
        (((messagesDecoder (Json.Tree.ofValue envelope.prompt)).map Body.chat).mapError .json)

end Envelope

inductive Method where
  | get
  | post
  deriving DecidableEq, Repr

def Method.name : Method → String
  | get => "GET"
  | post => "POST"

structure HttpRequest where
  method : Method
  url : Url
  authorization : String
  /-- The JSON text that is sent. -/
  body : Option String
  deriving DecidableEq, Repr

/-- What comes back for a request. A body is incomplete when the connection broke within it. -/
inductive Reply where
  | closed
  | answered (status : Nat) (body : List UInt8) (complete : Bool)
  deriving DecidableEq, Repr

def endpoint : List (List Char) :=
  ["api", "public", "v2", "prompts"].map String.toList

def promptsUrl (settings : Settings) : Except Failure Url :=
  match settings.baseUrl.join endpoint with
  | .ok url => .ok url
  | .error fault =>
      .error (.context ("Invalid prompts endpoint under " ++ settings.baseUrl.text) (.url fault))

def promptUrl (settings : Settings) (name : String) : Except Failure Url :=
  (promptsUrl settings).map fun url => url.push name.toList

/-- Characters that may stand in the value of a header. -/
def isHeaderChar (c : Char) : Bool := c == '\t' || (0x20 ≤ c.toNat && c.toNat != 0x7F)

def credentials (settings : Settings) : String :=
  "Basic " ++ String.ofList
    (Base64.encode (Utf8.encode (settings.publicKey ++ ":" ++ settings.secretKey).toList))

def authorization (settings : Settings) : Except Failure String :=
  let value := credentials settings
  if value.toList.all isHeaderChar then .ok value else .error (.header "authorization")

def fetchRequest (settings : Settings) (name : String) : Except Failure HttpRequest := do
  let url ← promptUrl settings name
  return ⟨.get, url, ← authorization settings, none⟩

def createRequest (settings : Settings) (spec : Spec) : Except Failure HttpRequest := do
  let url ← promptsUrl settings
  return ⟨.post, url, ← authorization settings, some spec.json.compact⟩

/-- A request as failures name it. -/
def HttpRequest.title (request : HttpRequest) : String :=
  request.method.name ++ " " ++ request.url.text

def HttpRequest.titleWithStatus (request : HttpRequest) (status : Nat) : String :=
  request.title ++ " returned " ++ String.ofList (decimalText status)

def isSuccess (status : Nat) : Bool := 200 ≤ status && status < 300

/-- The text of a reply that answers a request. -/
def readReply (request : HttpRequest) : Reply → Except Failure String
  | .closed => .error (.context request.title .transport)
  | .answered status body complete =>
      if !isSuccess status then
        .error (.context (request.titleWithStatus status) (.status status))
      else if complete then .ok (String.ofList (Utf8.decode body))
      else .error (.context (request.titleWithStatus status) .transport)

/-- Reads the text of a fetched prompt. -/
def readPrompt (name text : String) : Except Failure Body := do
  let envelope ← within ("Failed to decode prompt '" ++ name ++ "'")
    ((Envelope.decoder.run text).mapError .json)
  within ("Failed to read prompt '" ++ name ++ "'") envelope.body

/-- Fetches a prompt, where `exchange` sends a request and waits for the reply. -/
def fetch (settings : Settings) (exchange : HttpRequest → Reply) (name : String) : Answer := do
  let request ← fetchRequest settings name
  readPrompt name (← readReply request (exchange request))

def create (settings : Settings) (exchange : HttpRequest → Reply) (spec : Spec) :
    Except Failure Record := do
  let request ← createRequest settings spec
  let text ← readReply request (exchange request)
  within ("Failed to decode created prompt '" ++ spec.name ++ "'")
    ((Record.decoder.run text).mapError .json)

def source (settings : Settings) (exchange : HttpRequest → Reply) : Source :=
  ⟨fetch settings exchange, create settings exchange⟩

end PromptRegistry.Remote
