import PromptRegistry.Cache
import PromptRegistry.Console.Arguments
import PromptRegistry.Console.Command
import PromptRegistry.Failure
import PromptRegistry.Index
import PromptRegistry.Json.Decoder
import PromptRegistry.Json.Token
import PromptRegistry.Json.Tree
import PromptRegistry.Json.Value
import PromptRegistry.Main
import PromptRegistry.Number.Binary64
import PromptRegistry.Prompt.Body
import PromptRegistry.Prompt.Compiler
import PromptRegistry.Prompt.Wire
import PromptRegistry.Proofs.Cache.Log
import PromptRegistry.Proofs.Cache.Store
import PromptRegistry.Proofs.Console.Dialogue
import PromptRegistry.Proofs.Console.Scan
import PromptRegistry.Proofs.Console.Spelling
import PromptRegistry.Proofs.Index.Lookup
import PromptRegistry.Proofs.Json.Spelling
import PromptRegistry.Proofs.Number.Decimal
import PromptRegistry.Proofs.Prompt.Arrival
import PromptRegistry.Proofs.Prompt.ByteScan
import PromptRegistry.Proofs.Prompt.Conversation
import PromptRegistry.Proofs.Prompt.Messages
import PromptRegistry.Proofs.Prompt.Repair
import PromptRegistry.Proofs.Prompt.Spelling
import PromptRegistry.Proofs.Prompt.Usage
import PromptRegistry.Proofs.Remote.BaseUrl
import PromptRegistry.Proofs.Remote.Echo
import PromptRegistry.Proofs.Remote.Payload
import PromptRegistry.Proofs.Remote.Reply
import PromptRegistry.Proofs.Session.Balance
import PromptRegistry.Proofs.Session.Batches
import PromptRegistry.Proofs.Session.Commutation
import PromptRegistry.Proofs.Session.Conservation
import PromptRegistry.Proofs.Session.History
import PromptRegistry.Proofs.Session.Prefill
import PromptRegistry.Proofs.Session.Reads
import PromptRegistry.Proofs.Session.Run
import PromptRegistry.Proofs.Session.Stability
import PromptRegistry.Proofs.Session.Step
import PromptRegistry.Proofs.Session.Writes
import PromptRegistry.Proofs.Settings.Resolution
import PromptRegistry.Proofs.Text.Slice
import PromptRegistry.Proofs.Text.Split
import PromptRegistry.Proofs.Url.Directory
import PromptRegistry.Proofs.Url.Host
import PromptRegistry.Remote.Client
import PromptRegistry.Remote.Http
import PromptRegistry.Session.Basic
import PromptRegistry.Session.Memory
import PromptRegistry.Session.Runner
import PromptRegistry.Session.Service
import PromptRegistry.Session.Step
import PromptRegistry.Settings.Basic
import PromptRegistry.Settings.File
import PromptRegistry.Text.Basic
import PromptRegistry.Text.Characters
import PromptRegistry.Url.Basic
import PromptRegistry.Url.Host
import PromptRegistry.Url.Parser
import PromptRegistry.Url.Path
