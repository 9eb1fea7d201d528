import PromptRegistry.Index
import PromptRegistry.Number.Binary64

/-! # JSON values and their text -/

namespace PromptRegistry

/-- Numbers from the least signed to the greatest unsigned integer of 64 bits are exact when
written as integers, all others are binary. -/
inductive Json.Number where
  | integer (value : Int)
  | real (value : Binary64)
  deriving DecidableEq, Repr

inductive Json where
  | null
  | bool (value : Bool)
  | number (value : Json.Number)
  | string (value : String)
  | array (items : List Json)
  | object (members : List (String × Json))
  deriving Repr

namespace Json

mutual

/-- Sorts the members of every object by name and keeps the last of equal names. -/
def canonical : Json → Json
  | .array items => .array (canonicalItems items)
  | .object members => .object (canonicalMembers members [])
  | value => value

def canonicalItems : List Json → List Json
  | [] => []
  | item :: items => item.canonical :: canonicalItems items

def canonicalMembers : List (String × Json) → List (String × Json) → List (String × Json)
  | [], sorted => sorted
  | (name, value) :: members, sorted =>
      canonicalMembers members (insertEntry name value.canonical sorted)

end

def ofStrings (items : List String) : Json := .array (items.map .string)

/-- Null stands for an absent text. -/
def ofOption (text : Option String) : Json := text.elim .null .string


structure Layout where
  line : Nat → List Char
  afterColon : List Char

def Layout.compact : Layout := ⟨fun _ => [], []⟩

def Layout.pretty : Layout := ⟨fun depth => '\n' :: List.replicate (2 * depth) ' ', [' ']⟩

def hexChar (n : Nat) : Char := Nat.digitChar n

/-- A character inside quotes: the quote, the backslash and control characters are escaped. -/
def escape (c : Char) : List Char :=
  if c = '"' then ['\\', '"']
  else if c = '\\' then ['\\', '\\']
  else if c = '\n' then ['\\', 'n']
  else if c = '\r' then ['\\', 'r']
  else if c = '\t' then ['\\', 't']
  else if c = '\x08' then ['\\', 'b']
  else if c = '\x0c' then ['\\', 'f']
  else if c.toNat < 0x20 then
    ['\\', 'u', '0', '0', hexChar (c.toNat / 16), hexChar (c.toNat % 16)]
  else [c]

def quote (text : String) : List Char := '"' :: text.toList.flatMap escape ++ ['"']

def integerText : Int → List Char
  | .ofNat n => decimalText n
  | .negSucc n => '-' :: decimalText (n + 1)

def Number.text : Number → List Char
  | .integer value => integerText value
  | .real value => value.text

mutual

/-- The text of a value that stands at a depth. -/
def print (layout : Layout) (depth : Nat) : Json → List Char
  | .null => ['n', 'u', 'l', 'l']
  | .bool true => ['t', 'r', 'u', 'e']
  | .bool false => ['f', 'a', 'l', 's', 'e']
  | .number value => value.text
  | .string value => quote value
  | .array [] => ['[', ']']
  | .array (item :: items) =>
      '[' :: layout.line (depth + 1) ++ item.print layout (depth + 1) ++
        printItems layout (depth + 1) items ++ layout.line depth ++ [']']
  | .object [] => ['{', '}']
  | .object ((name, value) :: members) =>
      '{' :: layout.line (depth + 1) ++ quote name ++ ':' :: layout.afterColon ++
        value.print layout (depth + 1) ++ printMembers layout (depth + 1) members ++
        layout.line depth ++ ['}']

/-- Items after the first, each behind a comma. -/
def printItems (layout : Layout) (depth : Nat) : List Json → List Char
  | [] => []
  | item :: items =>
      ',' :: layout.line depth ++ item.print layout depth ++ printItems layout depth items

/-- Members after the first, each behind a comma. -/
def printMembers (layout : Layout) (depth : Nat) : List (String × Json) → List Char
  | [] => []
  | (name, value) :: members =>
      ',' :: layout.line depth ++ quote name ++ ':' :: layout.afterColon ++
        value.print layout depth ++ printMembers layout depth members

end

def compact (value : Json) : String := String.ofList (value.print .compact 0)

def pretty (value : Json) : String := String.ofList (value.print .pretty 0)

end Json

end PromptRegistry
