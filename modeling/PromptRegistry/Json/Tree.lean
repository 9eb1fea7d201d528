import PromptRegistry.Json.Token

/-!
# Trees of JSON text

A tree keeps what was read before the first fault of its text, so a reader that walks it in order
meets the first problem first. Open containers are on a stack, so depth needs no bound.
-/

namespace PromptRegistry.Json

inductive Tree where
  /-- No value could be read here. -/
  | fault
  /-- A well-formed string or number without a value. -/
  | unusable
  | null
  | bool (value : Bool)
  | number (value : Number)
  | string (value : String)
  | array (items : List Tree) (complete : Bool)
  /-- A member has no name where a well-formed string without a value stands for the name. -/
  | object (members : List (Option String × Tree)) (complete : Bool)
  deriving Repr

namespace Tree

/-- A value that may be skipped: it and everything in it ended without a fault. -/
def isWhole : Tree → Bool
  | .fault => false
  | .array _ complete => complete
  | .object _ complete => complete
  | _ => true

/-- A member under a name. Nothing can be read behind a string without a value. -/
def member (name : Option String) (value : Tree) : Option String × Tree :=
  match name with
  | some _ => (name, value)
  | none => (none, .unusable)

/-- An open container, with what it holds so far in reverse. -/
inductive Frame where
  | array (items : List Tree)
  | object (members : List (Option String × Tree))
  | member (members : List (Option String × Tree)) (name : Option String)
  deriving Repr

inductive Awaiting where
  | value
  | firstItem
  | separator
  | name
  | firstName
  | colon
  deriving DecidableEq, Repr

inductive Progress where
  | reading (frames : List Frame) (awaiting : Awaiting)
  | finished (tree : Tree)
  deriving Repr

/-- Closes the open containers at a fault, around what was read last. -/
def abandon : List Frame → Option Tree → Tree
  | [], last => last.getD .fault
  | .array items :: frames, last =>
      abandon frames (some (.array (last.toList ++ items).reverse false))
  | .object members :: frames, _ => abandon frames (some (.object members.reverse false))
  | .member members name :: frames, last =>
      abandon frames
        (some (.object (Tree.member name (last.getD .fault) :: members).reverse false))

/-- Puts a value that has ended into the innermost container. -/
def settle (frames : List Frame) (value : Tree) : Progress :=
  match frames with
  | [] => .finished value
  | .array items :: frames => .reading (.array (value :: items) :: frames) .separator
  | .member members name :: frames =>
      .reading (.object (Tree.member name value :: members) :: frames) .separator
  | .object _ :: _ => .finished (abandon frames none)

def ofToken? : Token → Option Tree
  | .null => some .null
  | .bool value => some (.bool value)
  | .number value => some (value.elim .unusable .number)
  | .string value => some (value.elim .unusable .string)
  | _ => none

def beginValue (token : Token) (frames : List Frame) : Progress :=
  match token with
  | .openArray => .reading (.array [] :: frames) .firstItem
  | .openObject => .reading (.object [] :: frames) .firstName
  | token =>
      match ofToken? token with
      | some value => settle frames value
      | none => .finished (abandon frames (some .fault))

def beginName (token : Token) (frames : List Frame) : Progress :=
  match token, frames with
  | .string name, .object members :: frames => .reading (.member members name :: frames) .colon
  | _, frames => .finished (abandon frames none)

/-- Closes the innermost container when a token ends it. -/
def endContainer? (token : Token) (frames : List Frame) : Option Progress :=
  match token, frames with
  | .closeArray, .array items :: frames => some (settle frames (.array items.reverse true))
  | .closeObject, .object members :: frames => some (settle frames (.object members.reverse true))
  | _, _ => none

def step (token : Token) (frames : List Frame) : Awaiting → Progress
  | .value => beginValue token frames
  | .firstItem => (endContainer? token frames).getD (beginValue token frames)
  | .name => beginName token frames
  | .firstName => (endContainer? token frames).getD (beginName token frames)
  | .colon =>
      if token = .colon then .reading frames .value else .finished (abandon frames none)
  | .separator =>
      match token, frames with
      | .comma, .array _ :: _ => .reading frames .value
      | .comma, .object _ :: _ => .reading frames .name
      | token, frames => (endContainer? token frames).getD (.finished (abandon frames none))

/-- Reads tokens to the end of a value, and says whether they end there. -/
def build : Progress → List Token → Tree × Bool
  | .finished tree, tokens => (tree, tokens.isEmpty)
  | .reading frames _, [] => (abandon frames none, true)
  | .reading frames awaiting, token :: tokens => build (step token frames awaiting) tokens

/-- The tree of a text, and whether nothing follows it. -/
def ofText (text : List Char) : Tree × Bool := build (.reading [] .value) (Token.scan text)

mutual

def ofValue : Json → Tree
  | .null => .null
  | .bool value => .bool value
  | .number value => .number value
  | .string value => .string value
  | .array items => .array (ofItems items) true
  | .object members => .object (ofMembers members) true

def ofItems : List Json → List Tree
  | [] => []
  | item :: items => ofValue item :: ofItems items

def ofMembers : List (String × Json) → List (Option String × Tree)
  | [] => []
  | (name, value) :: members => (some name, ofValue value) :: ofMembers members

end

mutual

/-- The value of a tree whose containers nest at most so many levels deep. -/
def value? (levels : Nat) : Tree → Option Json
  | .fault => none
  | .unusable => none
  | .null => some .null
  | .bool value => some (.bool value)
  | .number value => some (.number value)
  | .string value => some (.string value)
  | .array items complete =>
      if levels = 0 ∨ complete = false then none
      else (items? (levels - 1) items).map .array
  | .object members complete =>
      if levels = 0 ∨ complete = false then none
      else (members? (levels - 1) members).map .object

def items? (levels : Nat) : List Tree → Option (List Json)
  | [] => some []
  | item :: items => do return (← item.value? levels) :: (← items? levels items)

def members? (levels : Nat) : List (Option String × Tree) → Option (List (String × Json))
  | [] => some []
  | (name, value) :: members => do
      return (← name, ← value.value? levels) :: (← members? levels members)

end

end Tree

end PromptRegistry.Json
