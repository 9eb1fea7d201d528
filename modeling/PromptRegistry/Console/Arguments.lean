import PromptRegistry.Console.Command
import PromptRegistry.Text.Basic

/-!
# Command lines

The value of an option is looked at only when the argument after it has been recognised, so an
unknown argument is reported before a bad value.
-/

namespace PromptRegistry.Console

/-- Why arguments make up no command. Asking for help or the version is among the reasons. -/
inductive UsageFault where
  | help
  | helpOnMissing
  | version
  | missingSubcommand
  | invalidSubcommand
  | missingArgument
  | unknownArgument
  | invalidValue
  | invalidBinding
  | repeatedOption
  | unexpectedValue
  deriving DecidableEq, Repr

inductive Subcommand where
  | get
  | warm
  | create
  deriving DecidableEq, Repr

namespace Subcommand

def name : Subcommand → String
  | get => "get"
  | warm => "warm"
  | create => "create"

def ofName? (text : String) : Option Subcommand := [get, warm, create].find? (·.name == text)

end Subcommand

structure CommandLine where
  command : Command
  logDir : Option String
  deriving DecidableEq, Repr

inductive Switch where
  | logDir
  | binding
  | chat
  | help
  | version
  deriving DecidableEq, Repr

/-- Where an argument stands: before the subcommand or after one. -/
abbrev Level := Option Subcommand

def longSwitch? (level : Level) (name : String) : Option Switch :=
  match name with
  | "help" => some .help
  | "log-dir" => some .logDir
  | "version" => if level = none then some .version else none
  | "var" => if level = some .get then some .binding else none
  | "chat" => if level = some .get then some .chat else none
  | _ => none

def shortSwitch? (level : Level) (letter : Char) : Option Switch :=
  if letter = 'h' then some .help
  else if letter = 'V' ∧ level = none then some .version
  else if letter = 'v' ∧ level = some .get then some .binding
  else none

/-- What was recognised last and has not been looked at yet. -/
inductive Pending where
  | nothing
  | logDir (value : Option String)
  | binding (value : Option String)
  | values (list : List String)
  deriving DecidableEq, Repr

def Pending.awaitsValue : Pending → Bool
  | logDir none => true
  | binding none => true
  | _ => false

structure Scan where
  logDir : Option String
  bindings : List (String × String)
  chat : Bool
  values : List String
  pending : Pending
  /-- Options have been ended by two dashes. -/
  trailing : Bool
  deriving Repr

namespace Scan

def start : Scan := ⟨none, [], false, [], .nothing, false⟩

/-- A path may not be empty, and the option may be given once. -/
def setLogDir (scan : Scan) (path : String) : Except UsageFault Scan :=
  if scan.logDir.isSome then .error .repeatedOption
  else if path.isEmpty then .error .invalidValue
  else .ok { scan with logDir := some path }

def addBinding (scan : Scan) (text : String) : Except UsageFault Scan :=
  match binding? text with
  | some binding => .ok { scan with bindings := scan.bindings ++ [binding] }
  | none => .error .invalidBinding

def addValues (level : Level) (scan : Scan) (list : List String) : Except UsageFault Scan :=
  if level = some .create ∧ list.contains "" then .error .invalidValue
  else .ok { scan with values := scan.values ++ list }

def resolve (level : Level) (scan : Scan) : Except UsageFault Scan :=
  let settled := { scan with pending := .nothing }
  match scan.pending with
  | .nothing => .ok settled
  | .logDir (some path) => settled.setLogDir path
  | .binding (some text) => settled.addBinding text
  | .values list => settled.addValues level list
  | .logDir none => .error .invalidValue
  | .binding none => .error .invalidValue

def switch (level : Level) (scan : Scan) (switch : Switch) (value : Option String) :
    Except UsageFault Scan :=
  match switch, value with
  | .logDir, some path => do (← scan.resolve level).setLogDir path
  | .logDir, none => do return { ← scan.resolve level with pending := .logDir none }
  | .binding, some text => do (← scan.resolve level).addBinding text
  | .binding, none => do return { ← scan.resolve level with pending := .binding none }
  | _, some _ => .error .unexpectedValue
  | .chat, none => do
      let scan ← scan.resolve level
      if scan.chat then .error .repeatedOption else .ok { scan with chat := true }
  | .help, none => do
      let _ ← scan.resolve level
      .error .help
  | .version, none => do
      let _ ← scan.resolve level
      .error .version

/-- An option of two dashes. A value may be attached behind an equals sign. -/
def longOption (level : Level) (scan : Scan) (text : List Char) : Except UsageFault Scan :=
  let (name, rest) := splitFirst (· == '=') text
  match longSwitch? level (String.ofList name) with
  | none => .error .unknownArgument
  | some found =>
      scan.switch level found (match rest with
        | _ :: value => some (String.ofList value)
        | [] => none)

/-- An option of one dash and one letter. No letter of a switch without a value leads on to the
next: asking for help or the version ends the scan. -/
def shortOption (level : Level) (scan : Scan) (letter : Char) (rest : List Char) :
    Except UsageFault Scan :=
  match shortSwitch? level letter with
  | none => .error .unknownArgument
  | some .binding =>
      scan.switch level .binding (match rest with
        | '=' :: value => some (String.ofList value)
        | [] => none
        | value => some (String.ofList value))
  | some found => scan.switch level found none

/-- A value of the subcommand itself. Only `warm` takes more than one. -/
def positional (subcommand : Subcommand) (scan : Scan) (text : String) : Except UsageFault Scan :=
  match subcommand, scan.pending with
  | .warm, .values list => .ok { scan with pending := .values (list ++ [text]) }
  | .warm, _ => do return { ← scan.resolve subcommand with pending := .values [text] }
  | _, .values _ => .error .unknownArgument
  | _, _ =>
      if !scan.values.isEmpty then .error .unknownArgument
      else do return { ← scan.resolve subcommand with pending := .values [text] }

def fillPending (scan : Scan) (text : String) : Scan :=
  match scan.pending with
  | .logDir none => { scan with pending := .logDir (some text) }
  | .binding none => { scan with pending := .binding (some text) }
  | _ => scan

/-- What an argument is, by its form alone. -/
inductive Form where
  | endOfOptions
  | long (text : List Char)
  | short (letter : Char) (rest : List Char)
  | plain
  deriving DecidableEq, Repr

def formOf (argument : String) : Form :=
  match argument.toList with
  | ['-', '-'] => .endOfOptions
  | '-' :: '-' :: text => .long text
  | '-' :: letter :: rest => .short letter rest
  | _ => .plain

/-- Scans one argument that may be an option, and hands on one that is none. -/
def argument (level : Level) (onPlain : Scan → String → Except UsageFault Scan) (scan : Scan)
    (text : String) : Except UsageFault Scan :=
  if scan.trailing then onPlain scan text
  else
    match formOf text with
    | .endOfOptions => .ok { scan with trailing := true }
    | .long option => scan.longOption level option
    | .short letter rest => scan.shortOption level letter rest
    | .plain =>
        if scan.pending.awaitsValue then .ok (scan.fillPending text) else onPlain scan text

end Scan

def scanSubcommand (subcommand : Subcommand) : Scan → List String → Except UsageFault Scan
  | scan, [] => scan.resolve subcommand
  | scan, text :: rest => do
      scanSubcommand subcommand
        (← scan.argument subcommand (Scan.positional subcommand) text) rest

def commandOf (subcommand : Subcommand) (scan : Scan) : Except UsageFault Command :=
  match subcommand, scan.values with
  | _, [] => .error .missingArgument
  | .get, name :: _ => .ok (.get name scan.bindings scan.chat)
  | .warm, names => .ok (.warm names)
  | .create, path :: _ => .ok (.create path)

/-- The help command takes the name of at most one subcommand. -/
def helpFault : List String → UsageFault
  | [] => .help
  | [text] => if text = "help" ∨ (Subcommand.ofName? text).isSome then .help else .invalidSubcommand
  | _ => .invalidSubcommand

def scanTop : Scan → List String → Except UsageFault CommandLine
  | scan, [] => do
      let scan ← scan.resolve none
      if scan.logDir.isSome then .error .missingSubcommand else .error .helpOnMissing
  | scan, text :: rest =>
      if scan.trailing then
        if text = "help" ∨ (Subcommand.ofName? text).isSome then .error .unknownArgument
        else .error .invalidSubcommand
      else if scan.pending.awaitsValue then do
        scanTop (← scan.argument none (fun _ _ => .error .invalidSubcommand) text) rest
      else
        match Subcommand.ofName? text with
        | some subcommand => do
            let inner ← scanSubcommand subcommand .start rest
            let command ← commandOf subcommand inner
            let outer ← scan.resolve none
            return ⟨command, inner.logDir.or outer.logDir⟩
        | none =>
            if text = "help" then .error (helpFault rest)
            else do
              scanTop (← scan.argument none (fun _ _ => .error .invalidSubcommand) text) rest

def CommandLine.parse (arguments : List String) : Except UsageFault CommandLine :=
  scanTop .start arguments

end PromptRegistry.Console
