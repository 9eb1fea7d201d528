import PromptRegistry.Json.Value

/-! # Prompts, specifications and records -/

namespace PromptRegistry

inductive Kind where
  | text
  | chat
  deriving DecidableEq, Repr

namespace Kind

def name : Kind → String
  | text => "text"
  | chat => "chat"

def ofName? (name : String) : Option Kind :=
  if name = "text" then some text else if name = "chat" then some chat else none

@[simp] theorem ofName?_name (kind : Kind) : ofName? kind.name = some kind := by
  cases kind <;> simp [ofName?, name]

theorem ofName?_eq_some_iff {text : String} {kind : Kind} :
    ofName? text = some kind ↔ text = kind.name := by
  constructor
  · intro h
    unfold ofName? at h
    split at h
    case isTrue he => cases h; exact he
    case isFalse =>
      split at h
      case isTrue he => cases h; exact he
      case isFalse => cases h
  · rintro rfl
    exact ofName?_name kind

end Kind

structure Message where
  role : String
  content : String
  deriving DecidableEq, Repr

inductive Body where
  | text (template : String)
  | chat (messages : List Message)
  deriving DecidableEq, Repr

namespace Body

def kind : Body → Kind
  | text _ => .text
  | chat _ => .chat

def isEmpty : Body → Bool
  | text template => template.isEmpty
  | chat messages => messages.isEmpty

end Body

def firstWithRole? (role : String) (messages : List Message) : Option String :=
  (messages.find? (·.role == role)).map Message.content

structure Spec where
  name : String
  kind : Kind
  prompt : Body
  commitMessage : Option String
  labels : List String
  tags : List String
  deriving DecidableEq, Repr

/-- A specification whose kind is that of its body. -/
def Spec.ofBody (name : String) (prompt : Body) : Spec := ⟨name, prompt.kind, prompt, none, [], []⟩

structure Record where
  id : String
  name : String
  version : Nat
  kind : Kind
  prompt : Body
  labels : List String
  tags : List String
  commitMessage : Option String
  config : Json
  createdAt : Option String
  updatedAt : Option String
  projectId : Option String
  createdBy : Option String
  deriving Repr

def Spec.record (spec : Spec) (id : String) (version : Nat) (config : Json) : Record where
  id := id
  name := spec.name
  version := version
  kind := spec.kind
  prompt := spec.prompt
  labels := spec.labels
  tags := spec.tags
  commitMessage := spec.commitMessage
  config := config
  createdAt := none
  updatedAt := none
  projectId := none
  createdBy := none

end PromptRegistry
