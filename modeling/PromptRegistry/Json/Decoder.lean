import PromptRegistry.Json.Tree
import PromptRegistry.Json.Value
import PromptRegistry.Text.Characters

/-! # Decoding trees -/

namespace PromptRegistry.Json

/-- The kind of a value that was found, with the value where a message shows it. -/
inductive Found where
  | null
  | bool (value : Bool)
  | number (value : Number)
  | string (value : String)
  | sequence
  | map
  deriving DecidableEq, Repr

def Found.description : Found → String
  | .null => "null"
  | .bool true => "boolean `true`"
  | .bool false => "boolean `false`"
  | .number (.integer value) => "integer `" ++ String.ofList (integerText value) ++ "`"
  | .number (.real value) => "floating point `" ++ String.ofList value.text ++ "`"
  | .string value => "string " ++ quoted value
  | .sequence => "sequence"
  | .map => "map"

inductive Fault where
  | malformed
  | wrongType (found : Found) (expected : String)
  | negative (value : Int)
  | missingField (name : String)
  | duplicateField (name : String)
  | unknownKind (name : String)
  | tooShort (length : Nat) (title : String) (fields : Nat)
  | tooLong (length : Nat)
  | noBody
  deriving DecidableEq, Repr

def countText (n : Nat) : String := String.ofList (decimalText n)

def Fault.message : Fault → String
  | .malformed => "invalid JSON"
  | .wrongType found expected => "invalid type: " ++ found.description ++ ", expected " ++ expected
  | .negative value =>
      "invalid value: integer `" ++ String.ofList (integerText value) ++ "`, expected u64"
  | .missingField name => "missing field `" ++ name ++ "`"
  | .duplicateField name => "duplicate field `" ++ name ++ "`"
  | .unknownKind name => "unknown variant `" ++ name ++ "`, expected `text` or `chat`"
  | .tooShort length title fields =>
      "invalid length " ++ countText length ++ ", expected struct " ++ title ++ " with " ++
        countText fields ++ " elements"
  | .tooLong length =>
      "invalid length " ++ countText length ++ ", expected fewer elements in array"
  | .noBody => "data did not match any variant of untagged enum PromptBody"

def Tree.mismatch (expected : String) : Tree → Fault
  | .fault => .malformed
  | .unusable => .malformed
  | .null => .wrongType .null expected
  | .bool value => .wrongType (.bool value) expected
  | .number value => .wrongType (.number value) expected
  | .string value => .wrongType (.string value) expected
  | .array _ _ => .wrongType .sequence expected
  | .object _ _ => .wrongType .map expected

abbrev Decoder (α : Type) := Tree → Except Fault α

namespace Decoder

def text : Decoder String
  | .string value => .ok value
  | tree => .error (tree.mismatch "a string")

def word : Decoder Nat
  | .number (.integer value) => if 0 ≤ value then .ok value.toNat else .error (.negative value)
  | tree => .error (tree.mismatch "u64")

/-- Null stands for an absent value. -/
def optional {α : Type} (decoder : Decoder α) : Decoder (Option α)
  | .null => .ok none
  | tree => (decoder tree).map some

def list {α : Type} (decoder : Decoder α) : Decoder (List α)
  | .array items complete => do
      let values ← items.mapM decoder
      if complete then return values else throw .malformed
  | tree => .error (tree.mismatch "a sequence")

/-- Any value whose containers nest at most so many levels deep. -/
def value (levels : Nat) : Decoder Json := fun tree =>
  match tree.value? levels with
  | some value => .ok value
  | none => .error .malformed

def skip : Decoder Unit := fun tree => if tree.isWhole then .ok () else .error .malformed

/-- Decodes a whole text. Surplus items of an array are a fault of the text. -/
def run {α : Type} (decoder : Decoder α) (text : String) : Except Fault α :=
  let (tree, ended) := Tree.ofText text.toList
  match decoder tree with
  | .ok value => if ended then .ok value else .error .malformed
  | .error (.tooLong _) => .error .malformed
  | .error fault => .error fault

end Decoder

/-- How to read the fields of a record: their names, the check of one value, and the record made
from values that passed it. A field without a value is a fault or has a default. -/
structure Fields (α : Type) where
  names : List String
  check : String → Decoder Unit
  make : (String → Option Tree) → (String → Fault) → Except Fault α

namespace Fields

variable {α β : Type}

def pure (value : α) : Fields α := ⟨[], fun _ => Decoder.skip, fun _ _ => .ok value⟩

def checkOnly (decoder : Decoder α) : Decoder Unit := fun tree => (decoder tree).map fun _ => ()

def required (name : String) (decoder : Decoder α) : Fields α where
  names := [name]
  check _ := checkOnly decoder
  make find missing :=
    match find name with
    | some tree => decoder tree
    | none => .error (missing name)

def withDefault (name : String) (default : α) (decoder : Decoder α) : Fields α where
  names := [name]
  check _ := checkOnly decoder
  make find _ :=
    match find name with
    | some tree => decoder tree
    | none => .ok default

/-- Reads further fields and applies the function read before to their value. -/
def and (first : Fields (α → β)) (second : Fields α) : Fields β where
  names := first.names ++ second.names
  check name := if name ∈ first.names then first.check name else second.check name
  make find missing := do
    let f ← first.make find missing
    let a ← second.make find missing
    return f a

/-- Checks the members of an object in order and keeps those that belong to the record. -/
def collect (fields : Fields α) :
    List (Option String × Tree) → List (String × Tree) → Except Fault (List (String × Tree))
  | [], found => .ok found
  | (none, _) :: _, _ => .error .malformed
  | (some name, tree) :: members, found =>
      if name ∈ fields.names then
        if found.any (·.1 == name) then .error (.duplicateField name)
        else do
          fields.check name tree
          collect fields members ((name, tree) :: found)
      else do
        Decoder.skip tree
        collect fields members found

def checkItems (fields : Fields α) : List (String × Tree) → Except Fault Unit
  | [] => .ok ()
  | (name, tree) :: rest => do
      fields.check name tree
      checkItems fields rest

def decoder (fields : Fields α) (title : String) : Decoder α
  | .object members complete => do
      let found ← fields.collect members []
      if !complete then throw .malformed
      fields.make (fun name => valueAt? name found) .missingField
  | .array items complete => do
      let found := fields.names.zip items
      fields.checkItems found
      if !complete then throw .malformed
      if fields.names.length < items.length then throw (.tooLong items.length)
      fields.make (fun name => valueAt? name found) fun name =>
        .tooShort (fields.names.idxOf name) title fields.names.length
  | tree => .error (tree.mismatch ("struct " ++ title))

end Fields

end PromptRegistry.Json
