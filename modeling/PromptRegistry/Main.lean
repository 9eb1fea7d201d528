import Std.Async.DNS
import Std.Async.TCP
import PromptRegistry.Console.Arguments
import PromptRegistry.Remote.Http
import PromptRegistry.Session.Service
import PromptRegistry.Settings.File

/-!
# The program

The remote store is reached over plain connections only.
-/

namespace PromptRegistry.Program

open Std.Async
open Std.Net (IPAddr SocketAddress)

partial def receiveAll (client : TCP.Socket.Client) (received : ByteArray) : Async ByteArray := do
  match ← client.recv? 65536 with
  | none => return received
  | some bytes => receiveAll client (received ++ bytes)

def socketAddress (address : IPAddr) (port : UInt16) : SocketAddress :=
  match address with
  | .v4 address => .v4 ⟨address, port⟩
  | .v6 address => .v6 ⟨address, port⟩

/-- Sends bytes to a host and receives until the connection is closed. -/
def converse (host : String) (port : Nat) (bytes : ByteArray) : Async ByteArray := do
  let addresses ← DNS.getAddrInfo host (String.ofList (decimalText port))
  match addresses[0]? with
  | none => throw (IO.userError "no address")
  | some address =>
      let client ← TCP.Socket.Client.mk
      client.connect (socketAddress address (UInt16.ofNat port))
      client.send bytes
      receiveAll client ByteArray.empty

def hostName (url : Url) : String :=
  String.ofList ((url.host.getD []).filter fun c => c != '[' && c != ']')

/-- Sends a request and reads the reply. Any fault of the connection leaves none. -/
def exchange (request : Remote.HttpRequest) : IO Remote.Reply := do
  if request.url.scheme != "http".toList then
    return .closed
  let port := request.url.port.getD 80
  try
    let bytes ← (converse (hostName request.url) port ⟨request.bytes.toArray⟩).block
    return .ofBytes bytes.toList
  catch _ => return .closed

def fetchAnswer (settings : Settings) (name : String) : IO Answer := do
  match Remote.fetchRequest settings name with
  | .error failure => return .error failure
  | .ok request =>
      let reply ← exchange request
      return Remote.fetch settings (fun _ => reply) name

def createAnswer (settings : Settings) (spec : Spec) : IO (Except Failure Record) := do
  match Remote.createRequest settings spec with
  | .error failure => return .error failure
  | .ok request =>
      let reply ← exchange request
      return Remote.create settings (fun _ => reply) spec

def eventOf (settings : Settings) : Request → IO Session.Event
  | .get name => return .get name (← fetchAnswer settings name)
  | .refresh name => return .refresh name (← fetchAnswer settings name)
  | .fetchAndStore name => return .fetchAndStore name (← fetchAnswer settings name)
  | .invalidate names =>
      return .invalidate (← names.mapM fun name => return (name, ← fetchAnswer settings name))
  | .create spec => return .create spec (← createAnswer settings spec)
  | .spawnRefresh name => return .spawnRefresh name
  | .store name body => return .store name body
  | .release number => return .complete number

def service (settings : Settings) : PromptService (StateT Served IO) :=
  .ofPerform fun request => do
    let event ← eventOf settings request
    modifyGet (Served.take event).run

/-- A session for one command. Its prompts are new to it, so nothing is refreshed. -/
def served : Served :=
  ⟨Runner.ofSource ⟨fun _ => .error .transport, fun _ => .error .transport⟩, []⟩

def readFile? (path : String) : IO (Option String) := do
  try
    return some (← IO.FS.readFile path)
  catch _ => return none

/-- The variables that are set, in the environment or by a file in the working directory. -/
def environment : IO (Index String) := do
  let names := [Settings.publicKeyName, Settings.secretKeyName, Settings.baseUrlName,
    Settings.timeoutName]
  let pairs ← names.filterMapM fun name => return (← IO.getEnv name).map fun value => (name, value)
  let environment := Index.ofList pairs
  match ← readFile? ".env" with
  | none => return environment
  | some file => return VariableFile.load environment file

/-- Adds lines to the log file in a directory. -/
def appendLog (directory : String) (lines : List String) : IO Unit := do
  IO.FS.createDirAll directory
  let log ← IO.FS.Handle.mk (directory ++ "/prompts.log") .append
  for line in lines do
    log.putStrLn line

/-- Reports all notices in the log, and those that are more than details to the user. -/
def reportNotices (logDir : Option String) (notices : List Notice) : IO Unit := do
  for notice in notices.filter (·.level ≠ .debug) do
    IO.eprintln notice.line
  match logDir with
  | none => return
  | some directory => appendLog directory (notices.map Notice.line)

def usage : String :=
  "Usage: prompts [--log-dir DIR] COMMAND\n\n" ++
  "Commands:\n" ++
  "  get NAME [--var KEY=VALUE]... [--chat]   Fetch a prompt, compile it and print the result\n" ++
  "  warm NAME...                             Fetch prompts and report those that fail\n" ++
  "  create PATH                              Create a prompt from a JSON definition\n" ++
  "  help [COMMAND]                           Print this text\n"

def usageMessage : Console.UsageFault → String
  | .help => ""
  | .version => ""
  | .helpOnMissing => "a command is required"
  | .missingSubcommand => "a command is required"
  | .invalidSubcommand => "there is no such command"
  | .missingArgument => "a name or path is required"
  | .unknownArgument => "an argument is not expected"
  | .invalidValue => "an option needs a value"
  | .invalidBinding => "a variable is not of the form key=value"
  | .repeatedOption => "an option is given twice"
  | .unexpectedValue => "an option takes no value"

def reportUsage : Console.UsageFault → IO UInt32
  | .help => do
      IO.print usage
      return 0
  | .version => do
      IO.println "prompts 0.1.0"
      return 0
  | fault => do
      IO.eprint ("error: " ++ usageMessage fault ++ "\n\n" ++ usage)
      return 2

def reportFailure (failure : Failure) : IO UInt32 := do
  IO.eprintln ("Error: " ++ ": ".intercalate failure.chain)
  return 1

def runCommand (line : Console.CommandLine) (settings : Settings) : IO UInt32 := do
  let (report, served) ←
    (line.command.run (service settings) fun path => readFile? path).run served
  reportNotices line.logDir (served.notices ++ report.notices)
  IO.print report.output
  match report.result with
  | .ok () => return 0
  | .error failure => reportFailure failure

def run (arguments : List String) : IO UInt32 := do
  match Console.CommandLine.parse arguments with
  | .error fault => reportUsage fault
  | .ok line =>
      match Settings.ofLookup (← environment).get? with
      | .error failure => reportFailure failure
      | .ok settings => runCommand line settings

end PromptRegistry.Program

def main (arguments : List String) : IO UInt32 := PromptRegistry.Program.run arguments
