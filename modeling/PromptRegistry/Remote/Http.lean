import PromptRegistry.Remote.Client
import PromptRegistry.Text.Basic

/-!
# Messages of HTTP

The protocol version is 1.0: a connection carries one exchange, and a body is not cut into chunks.
-/

namespace PromptRegistry.Remote

/-- Path and query, as the first line of a request names them. -/
def targetText (url : Url) : List Char := url.path.text ++ url.query.elim [] ('?' :: ·)

/-- Host and port, as a request names them. -/
def addressText (url : Url) : List Char :=
  url.host.getD [] ++ url.port.elim [] fun port => ':' :: decimalText port

def requestLine (request : HttpRequest) : List Char :=
  request.method.name.toList ++ ' ' :: targetText request.url ++ " HTTP/1.0".toList

def header (name : String) (value : List Char) : List Char := name.toList ++ ':' :: ' ' :: value

/-- What says how a body is to be read. -/
def bodyHeaders (body : List UInt8) : List (List Char) :=
  [header "Content-Type" "application/json".toList,
    header "Content-Length" (decimalText body.length)]

def HttpRequest.bytes (request : HttpRequest) : List UInt8 :=
  let body := request.body.map fun text => Utf8.encode text.toList
  let lines :=
    [requestLine request, header "Host" (addressText request.url),
      header "Authorization" request.authorization.toList] ++ body.elim [] bodyHeaders
  Utf8.encode (lines.flatMap (· ++ ['\r', '\n']) ++ ['\r', '\n']) ++ body.getD []

/-- The bytes before the first empty line, and those after it. -/
def splitHead? : List UInt8 → Option (List UInt8 × List UInt8)
  | 13 :: 10 :: 13 :: 10 :: body => some ([], body)
  | byte :: bytes => (splitHead? bytes).map fun (head, body) => (byte :: head, body)
  | [] => none

def statusOf? (line : List Char) : Option Nat :=
  match splitParts (· == ' ') line with
  | protocol :: code :: _ =>
      if "HTTP/1.".toList.isPrefixOf protocol then (readCount 999 code).toOption else none
  | _ => none

/-- The length of a body, where a header announces it. -/
def announcedLength? (headers : List (List Char)) : Option Nat :=
  headers.findSome? fun line =>
    let (name, value) := splitFirst (· == ':') line
    if name.map Char.toLower = "content-length".toList then
      (readCount maxWord (trimBoth isWhiteSpace (value.drop 1))).toOption
    else none

/-- Reads a reply. A body that ends before its announced length is incomplete. -/
def Reply.ofBytes (bytes : List UInt8) : Reply :=
  match splitHead? bytes with
  | none => .closed
  | some (head, body) =>
      match splitParts (· == '\n') (Utf8.decode head) with
      | [] => .closed
      | first :: headers =>
          match statusOf? (trimBoth isWhiteSpace first), announcedLength? headers with
          | none, _ => .closed
          | some status, none => .answered status body true
          | some status, some length =>
              .answered status (body.take length) (length ≤ body.length)

end PromptRegistry.Remote
