import PromptRegistry.Failure
import PromptRegistry.Text.Basic
import PromptRegistry.Url.Parser

/-! # Settings -/

namespace PromptRegistry

structure Settings where
  baseUrl : Url
  publicKey : String
  secretKey : String
  connectSeconds : Nat
  readSeconds : Nat
  deriving DecidableEq, Repr

namespace Settings

def publicKeyName : String := "LANGFUSE_PUBLIC_KEY"

def secretKeyName : String := "LANGFUSE_SECRET_KEY"

def baseUrlName : String := "LANGFUSE_BASE_URL"

def timeoutName : String := "PROMPTHUB_TIMEOUT_SECS"

def defaultBaseUrl : String := "https://cloud.langfuse.com/"

/-- Settings with the default limits of time. -/
def ofUrl (baseUrl : Url) (publicKey secretKey : String) : Settings :=
  ⟨baseUrl.asDirectory, publicKey, secretKey, 10, 30⟩

def setting? (lookup : String → Option String) (name : String) : Option String :=
  ((lookup name).map trim).filter (!·.isEmpty)

def missingKeys : Failure :=
  .message ("Langfuse public key and secret key must be provided. Please set " ++ publicKeyName ++
    " and " ++ secretKeyName)

def readBaseUrl (toAscii : Url.ToAscii) (text : String) : Except Failure Url :=
  match Url.parse text toAscii with
  | .ok url => .ok url
  | .error fault => .error (.context ("Invalid " ++ baseUrlName ++ ": " ++ text) (.url fault))

def readTimeout (text : String) : Except Failure Nat :=
  match readCount maxWord text.toList with
  | .ok seconds => .ok seconds
  | .error fault => .error (.context ("Invalid " ++ timeoutName ++ ": " ++ text) (.count fault))

def ofLookup (lookup : String → Option String) (toAscii : Url.ToAscii := Url.asciiNames) :
    Except Failure Settings :=
  match setting? lookup publicKeyName, setting? lookup secretKeyName with
  | some publicKey, some secretKey => do
      let baseUrl ← readBaseUrl toAscii ((setting? lookup baseUrlName).getD defaultBaseUrl)
      let settings := ofUrl baseUrl publicKey secretKey
      match setting? lookup timeoutName with
      | none => return settings
      | some text => return { settings with readSeconds := ← readTimeout text }
  | _, _ => .error missingKeys

end Settings

end PromptRegistry
