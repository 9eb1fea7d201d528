import PromptRegistry.Index
import PromptRegistry.Prompt.Body

/-!
# Compiling prompts

Values are put in after a template is cut, so they are never cut themselves.
-/

namespace PromptRegistry

abbrev Bindings := Index String

/-- Reads `key=value`, split at the first equals sign. The key may not be empty. -/
def binding? (text : String) : Option (String × String) :=
  let key := text.toList.takeWhile (· ≠ '=')
  match text.toList.dropWhile (· ≠ '=') with
  | '=' :: value => if key.isEmpty then none else some (String.ofList key, String.ofList value)
  | _ => none

def bindingFault (text : String) : String :=
  "Invalid variable '" ++ text ++ "', expected key=value"

namespace Template

inductive Piece where
  | character (c : Char)
  | placeholder (key : List Char)
  deriving DecidableEq, Repr

def Piece.source : Piece → List Char
  | character c => [c]
  | placeholder key => '{' :: '{' :: key ++ ['}', '}']

/-- The shortest bound key that extends a beginning and that a text continues with, up to double
braces. The beginning is held in reverse, and the key may take so many more characters. -/
def closeKey? (bound : List Char → Bool) (reversed : List Char) :
    Nat → List Char → Option (List Char)
  | _, [] => none
  | room, c :: cs =>
      if c = '}' ∧ cs.head? = some '}' ∧ bound reversed.reverse then some reversed.reverse
      else
        match room with
        | 0 => none
        | room + 1 => closeKey? bound (c :: reversed) room cs

/-- The key of the placeholder that a text begins with. -/
def placeholder? (bound : List Char → Bool) (longest : Nat) : List Char → Option (List Char)
  | '{' :: '{' :: inner => closeKey? bound [] longest inner
  | _ => none

/-- The pieces of a template for the keys that are bound, of which none is longer than given. -/
def cut (bound : List Char → Bool) (longest : Nat) (template : List Char) : List Piece :=
  match template with
  | [] => []
  | c :: cs =>
      match placeholder? bound longest (c :: cs) with
      | some key => .placeholder key :: cut bound longest (cs.drop (key.length + 3))
      | none => .character c :: cut bound longest cs
termination_by template.length
decreasing_by
  all_goals
    simp only [List.length_cons, List.length_drop]
    omega

def Piece.fill (value : List Char → List Char) : Piece → List Char
  | character c => [c]
  | placeholder key => value key

def Piece.key? : Piece → Option (List Char)
  | character _ => none
  | placeholder key => some key

def isBound (bindings : Bindings) (key : List Char) : Bool :=
  (bindings.get? (String.ofList key)).isSome

def longestKey (bindings : Bindings) : Nat :=
  bindings.keys.foldl (fun longest key => max longest key.toList.length) 0

def pieces (bindings : Bindings) (template : String) : List Piece :=
  cut (isBound bindings) (longestKey bindings) template.toList

/-- The template with the value of each placeholder in its place. -/
def substitute (bindings : Bindings) (template : String) : String :=
  String.ofList ((pieces bindings template).flatMap
    (Piece.fill fun key => ((bindings.get? (String.ofList key)).getD "").toList))

/-- The keys of the placeholders, in the order of the template. -/
def used (bindings : Bindings) (template : String) : List String :=
  (pieces bindings template).filterMap fun piece => piece.key?.map String.ofList

end Template

inductive CompileFault where
  | empty (kind : Kind)
  | unknownVariable (key : String)
  deriving DecidableEq, Repr

def CompileFault.message : CompileFault → String
  | .empty kind => "Active prompt " ++ kind.name ++ " is empty"
  | .unknownVariable key => "Prompt variable with key " ++ key ++ " does not exist"

/-- What compiles a prompt: its body as it was when the prompt was read, if there was one. -/
structure Compiler where
  body : Option Body
  deriving DecidableEq, Repr

namespace Compiler

def isEmpty (compiler : Compiler) : Bool := compiler.body.all Body.isEmpty

def requireUsed (bindings : Bindings) (used : List String) : Except CompileFault Unit :=
  match bindings.keys.find? (· ∉ used) with
  | some key => .error (.unknownVariable key)
  | none => .ok ()

def compileText (compiler : Compiler) (bindings : Bindings) : Except CompileFault String :=
  match compiler.body with
  | some (.text template) =>
      if template.isEmpty then .error (.empty .text)
      else do
        requireUsed bindings (Template.used bindings template)
        return Template.substitute bindings template
  | _ => .error (.empty .text)

/-- Fills the content of a message. Roles are no templates. -/
def fillMessage (bindings : Bindings) (message : Message) : Message :=
  { message with content := Template.substitute bindings message.content }

def compileChat (compiler : Compiler) (bindings : Bindings) :
    Except CompileFault (List Message) :=
  match compiler.body with
  | some (.chat messages) =>
      if messages.isEmpty then .error (.empty .chat)
      else do
        requireUsed bindings
          (messages.flatMap fun message => Template.used bindings message.content)
        return messages.map (fillMessage bindings)
  | _ => .error (.empty .chat)

end Compiler

end PromptRegistry
