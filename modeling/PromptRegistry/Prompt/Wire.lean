import PromptRegistry.Json.Decoder
import PromptRegistry.Prompt.Body
import PromptRegistry.Prompt.Compiler

/-!
# Prompts as JSON

A body has no tag of its own, so it is read as a value first and then taken as a text or, failing
that, as a list of messages.
-/

namespace PromptRegistry

open Json

def Kind.json (kind : Kind) : Json := .string kind.name

/-- A kind is its name, or an object with its name over null. -/
def Kind.decoder : Decoder Kind
  | .string name => ofName name
  | .object ((some name, value) :: rest) complete => do
      let kind ← ofName name
      match value with
      | .null => if rest.isEmpty && complete then return kind else throw .malformed
      | tree => throw (tree.mismatch "unit")
  | _ => .error .malformed
where
  ofName (name : String) : Except Fault Kind :=
    match Kind.ofName? name with
    | some kind => .ok kind
    | none => .error (.unknownKind name)

def Message.json (message : Message) : Json :=
  .object [("role", .string message.role), ("content", .string message.content)]

def Message.fields : Fields Message :=
  Fields.pure Message.mk
    |>.and (.required "role" Decoder.text)
    |>.and (.required "content" Decoder.text)

def Message.decoder : Decoder Message := Message.fields.decoder "ChatMessage"

def messagesJson (messages : List Message) : Json := .array (messages.map Message.json)

def messagesDecoder : Decoder (List Message) := Decoder.list Message.decoder

namespace Body

def json : Body → Json
  | text template => .string template
  | chat messages => messagesJson messages

def ofValue? : Json → Option Body
  | .string template => some (text template)
  | value => (messagesDecoder (Tree.ofValue value)).toOption.map chat

def decoder (levels : Nat) : Decoder Body := fun tree =>
  match tree.value? levels with
  | none => .error .malformed
  | some value =>
      match ofValue? value with
      | some body => .ok body
      | none => .error .noBody

end Body

namespace Bindings

def json (bindings : Bindings) : Json :=
  .object (bindings.entries.map fun entry => (entry.1, .string entry.2))

def decodeMembers : List (Option String × Tree) → Bindings → Except Fault Bindings
  | [], bindings => .ok bindings
  | (none, _) :: _, _ => .error .malformed
  | (some key, tree) :: members, bindings => do
      let value ← Decoder.text tree
      decodeMembers members (bindings.insert key value)

/-- Of equal keys the last one counts. -/
def decoder : Decoder Bindings
  | .object members complete => do
      let bindings ← decodeMembers members Index.empty
      if complete then return bindings else throw .malformed
  | tree => .error (tree.mismatch "a map")

end Bindings

/-- How many levels deep the containers of one text may nest. -/
def nestingLimit : Nat := 127

namespace Spec

def json (spec : Spec) : Json :=
  .object
    ([("name", .string spec.name), ("type", spec.kind.json), ("prompt", spec.prompt.json)] ++
      (spec.commitMessage.toList.map fun text => ("commitMessage", .string text)) ++
      (if spec.labels.isEmpty then [] else [("labels", .ofStrings spec.labels)]) ++
      (if spec.tags.isEmpty then [] else [("tags", .ofStrings spec.tags)]))

def fields : Fields Spec :=
  Fields.pure Spec.mk
    |>.and (.required "name" Decoder.text)
    |>.and (.required "type" Kind.decoder)
    |>.and (.required "prompt" (Body.decoder (nestingLimit - 1)))
    |>.and (.withDefault "commitMessage" none (Decoder.optional Decoder.text))
    |>.and (.withDefault "labels" [] (Decoder.list Decoder.text))
    |>.and (.withDefault "tags" [] (Decoder.list Decoder.text))

def decoder : Decoder Spec := fields.decoder "PromptSpec"

end Spec

namespace Record

def json (record : Record) : Json :=
  .object
    [("id", .string record.id),
     ("name", .string record.name),
     ("version", .number (.integer record.version)),
     ("type", record.kind.json),
     ("prompt", record.prompt.json),
     ("labels", .ofStrings record.labels),
     ("tags", .ofStrings record.tags),
     ("commitMessage", .ofOption record.commitMessage),
     ("config", record.config),
     ("createdAt", .ofOption record.createdAt),
     ("updatedAt", .ofOption record.updatedAt),
     ("projectId", .ofOption record.projectId),
     ("createdBy", .ofOption record.createdBy)]

def optionalText (name : String) : Fields (Option String) :=
  .withDefault name none (Decoder.optional Decoder.text)

def fields : Fields Record :=
  Fields.pure Record.mk
    |>.and (.withDefault "id" "" Decoder.text)
    |>.and (.required "name" Decoder.text)
    |>.and (.withDefault "version" 0 Decoder.word)
    |>.and (.required "type" Kind.decoder)
    |>.and (.required "prompt" (Body.decoder (nestingLimit - 1)))
    |>.and (.withDefault "labels" [] (Decoder.list Decoder.text))
    |>.and (.withDefault "tags" [] (Decoder.list Decoder.text))
    |>.and (optionalText "commitMessage")
    |>.and (.withDefault "config" .null configDecoder)
    |>.and (optionalText "createdAt")
    |>.and (optionalText "updatedAt")
    |>.and (optionalText "projectId")
    |>.and (optionalText "createdBy")
where
  configDecoder : Decoder Json := fun tree =>
    (Decoder.value (nestingLimit - 1) tree).map Json.canonical

def decoder : Decoder Record := fields.decoder "PromptRecord"

end Record

end PromptRegistry
