import PromptRegistry.Index
import PromptRegistry.Text.Basic
import PromptRegistry.Text.Characters

/-!
# Variable files

Variables that are set keep their values. The first line that is no assignment, comment or blank
ends the reading.
-/

namespace PromptRegistry.VariableFile

/-- Which rule the next character of a value is read by. -/
inductive Mode where
  | plain
  | single
  | double
  /-- After a backslash, inside double quotes or not. -/
  | escaped (quoted : Bool)
  /-- After a dollar sign, with the name so far in reverse: letters and digits of any script. -/
  | name (quoted : Bool) (reversed : List Char)
  /-- Inside braces after a dollar sign. -/
  | bracedName (quoted : Bool) (reversed : List Char)
  /-- After a blank, where only a comment may follow. -/
  | ended
  deriving DecidableEq, Repr

def Mode.unquoted (quoted : Bool) : Mode := if quoted then .double else .plain

def escapedValue? : Char → Option Char
  | 'n' => some '\n'
  | c => if ['\\', '\'', '"', '$', ' '].contains c then some c else none

/-- Reads a value, putting in the values of variables that are named after a dollar sign. -/
def readValue? (environment : Index String) : Mode → List Char → Option (List Char)
  | .plain, [] => some []
  | .ended, [] => some []
  | .escaped false, [] => some []
  | .name false reversed, [] => some (valueOf reversed)
  | _, [] => none
  | .ended, c :: cs =>
      if c = ' ' ∨ c = '\t' then readValue? environment .ended cs
      else if c = '#' then some []
      else none
  | .escaped quoted, c :: cs => do
      return (← escapedValue? c) :: (← readValue? environment (.unquoted quoted) cs)
  | .single, c :: cs =>
      if c = '\'' then readValue? environment .plain cs
      else (readValue? environment .single cs).map (c :: ·)
  | .name quoted reversed, c :: cs =>
      if isAlphanumeric c then readValue? environment (.name quoted (c :: reversed)) cs
      else if c = '\x7b' ∧ reversed.isEmpty then readValue? environment (.bracedName quoted []) cs
      else if c = '$' then
        (readValue? environment (.name quoted []) cs).map (valueOf reversed ++ ·)
      else (readValue? environment (.unquoted quoted) cs).map (valueOf reversed ++ c :: ·)
  | .bracedName quoted reversed, c :: cs =>
      if c = '\x7d' then
        (readValue? environment (.unquoted quoted) cs).map (valueOf reversed ++ ·)
      else readValue? environment (.bracedName quoted (c :: reversed)) cs
  | .double, c :: cs =>
      if c = '$' then readValue? environment (.name true []) cs
      else if c = '"' then readValue? environment .plain cs
      else if c = '\\' then readValue? environment (.escaped true) cs
      else (readValue? environment .double cs).map (c :: ·)
  | .plain, c :: cs =>
      if c = '$' then readValue? environment (.name false []) cs
      else if c = '\'' then readValue? environment .single cs
      else if c = '"' then readValue? environment .double cs
      else if c = '\\' then readValue? environment (.escaped false) cs
      else if c = ' ' ∨ c = '\t' then readValue? environment .ended cs
      else (readValue? environment .plain cs).map (c :: ·)
where
  valueOf (reversed : List Char) : List Char :=
    ((environment.get? (String.ofList reversed.reverse)).getD "").toList

def isKeyChar (c : Char) : Bool := c.isAlphanum || c == '_' || c == '.'

/-- A key begins with a letter or an underscore. Digits and points may follow. -/
def readKey? (text : List Char) : Option (List Char × List Char) :=
  match splitFirst (fun c => !isKeyChar c) text with
  | ([], _) => none
  | (c :: key, rest) =>
      if c.isAlpha ∨ c = '_' then some (c :: key, rest.dropWhile isWhiteSpace) else none

/-- A line is an assignment, or nothing where it is blank or a comment. -/
inductive Line where
  | nothing
  | assignment (key : String) (value : String)
  deriving DecidableEq, Repr

def isComment (text : List Char) : Bool := text.isEmpty || text.head? == some '#'

def readLine? (environment : Index String) (line : List Char) : Option Line := do
  let text := trimBoth isWhiteSpace line
  if isComment text then return .nothing
  let (key, rest) ← readKey? text
  let (key, rest) ←
    if key = "export".toList ∧ rest.head? ≠ some '=' then readKey? rest else some (key, rest)
  match rest with
  | '=' :: value =>
      let value := value.dropWhile isWhiteSpace
      let value ← if isComment value then some [] else readValue? environment .plain value
      return .assignment (String.ofList key) (String.ofList value)
  | _ => failure

/-- Sets what the lines assign, except for variables that are set already. -/
def loadLines (environment : Index String) : List (List Char) → Index String
  | [] => environment
  | line :: lines =>
      match readLine? environment line with
      | none => environment
      | some .nothing => loadLines environment lines
      | some (.assignment key value) =>
          loadLines
            (if (environment.get? key).isSome then environment else environment.insert key value)
            lines

def load (environment : Index String) (file : String) : Index String :=
  loadLines environment (splitParts (· == '\n') file.toList)

end PromptRegistry.VariableFile
