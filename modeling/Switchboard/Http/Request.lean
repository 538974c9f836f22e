import Switchboard.Http.Error
import Switchboard.Http.Header
import Switchboard.Json.Printer
import Switchboard.Text.Base64
import Switchboard.Url.Parser

/-!
# Switchboard.Http.Request

Requests, the client that makes them, and how they are put together.

* `Settings`, `Client` — what all requests of a client have in common;
* `Part`, `Draft` — a request under construction, part by part;
* `Client.build` — the request that some parts amount to;
* `Interceptor`, `Client.intercept` — the steps between building and sending;
* `TokenProvider`, `credential` — the step that asks for a token and puts it on.

A part that is not acceptable does not stop the construction: the first such fault
is kept, and building reports it.
-/

namespace Switchboard.Http

/-- What all requests of a client have in common.  Times are in milliseconds. -/
structure Settings where
  timeout : Nat := 30000
  connectTimeout : Nat := 10000
  poolIdleTimeout : Nat := 90000
  defaultHeaders : List (String × String) := []
  userAgent : String := "conduit/0.1.1"
  /-- Whether answers may be compressed. -/
  compression : Bool := true
  maxRedirects : Nat := 10
  /-- What hosts outside ASCII are called in a URL. -/
  idna : Url.Idna := fun _ => none
  deriving Inhabited

/-- A request that is ready to be sent. -/
structure Request where
  method : String
  url : Url
  headers : Headers
  body : Option Bytes
  /-- A timeout of its own. -/
  timeout : Option Nat
  deriving DecidableEq, Repr, Inhabited

/-- When a request is made.  Who is asked anew each time may answer differently. -/
abbrev Moment := Nat

/-- A step between building a request and sending it. -/
abbrev Interceptor := Moment → Request → Except Error Request

structure Client where
  settings : Settings
  interceptors : List Interceptor := []

/-! ## Users -/

/-- The header that users and all tokens but API keys are sent in. -/
def authorizationHeader : String := "authorization"

/-- A user and a password as the value of a header. -/
def basic (user : String) (password : Option String) : String :=
  "Basic " ++ String.ofList (Text.base64 (Text.encode (user ++ ":" ++ password.getD "")))

/-- The headers that a URL asks for by naming a user. -/
def loginHeaders (u : Url) : Headers :=
  match u.login? with
  | some (user, password) => [(authorizationHeader, [basic user password])]
  | none => []

/-! ## Parts -/

/-- A part of a request. -/
inductive Part where
  | header (name value : String)
  | query (name value : String)
  | queries (pairs : List (String × String))
  | body (bytes : Bytes)
  /-- A JSON body, or why there is none. -/
  | json (value : Except String Json)
  | timeout (milliseconds : Nat)
  deriving Inhabited

/-- A request under construction. -/
structure Draft where
  method : String
  url : String
  headers : Headers := []
  query : List (String × String) := []
  body : Option Bytes := none
  timeout : Option Nat := none
  /-- The first fault so far. -/
  fault : Option Error := none

namespace Draft

/-- Keeps a fault, unless there is one. -/
def blame (d : Draft) (e : Error) : Draft := { d with fault := d.fault <|> some e }

def header (d : Draft) (name value : String) : Draft :=
  match Headers.checked? (name, value) with
  | some (n, v) => { d with headers := d.headers.insert n v }
  | none => d.blame (.build s!"invalid header '{name}'")

def json (d : Draft) : Except String Json → Draft
  | .ok j => { d with
      headers := d.headers.insert "content-type" "application/json"
      body := some (Text.encode j.render) }
  | .error text => d.blame (.json text)

/-- Adds one part. -/
def add (d : Draft) : Part → Draft
  | .header name value => d.header name value
  | .query name value => { d with query := d.query ++ [(name, value)] }
  | .queries pairs => { d with query := d.query ++ pairs }
  | .body bytes => { d with body := some bytes }
  | .json value => d.json value
  | .timeout ms => { d with timeout := some ms }

/-- Adds parts in turn. -/
def addAll (d : Draft) (parts : List Part) : Draft := parts.foldl add d

/-- The request that a draft amounts to.  A user in its URL becomes a header, which comes before
the default headers, and these come before its own. -/
def build (d : Draft) (settings : Settings) : Except Error Request := do
  match d.fault with
  | some e => .error e
  | none =>
    match Url.ofText? settings.idna d.url with
    | none => .error (.invalidUrl "")
    | some url =>
      let url := url.withPairs d.query
      if !url.hasHost then .error (.exchange .other)
      else match Headers.appendPairs? settings.defaultHeaders (loginHeaders url) with
        | none => .error (.exchange .other)
        | some hs =>
          return {
            method := d.method, url := url.withoutLogin, body := d.body, timeout := d.timeout
            headers := hs.appendAll d.headers }

end Draft

/-! ## Clients -/

namespace Client

/-- A client with given settings, unless they name no proper user agent. -/
def create (settings : Settings) : Except Error Client :=
  if isValue settings.userAgent then .ok { settings } else .error (.exchange .other)

def withInterceptor (c : Client) (i : Interceptor) : Client :=
  { c with interceptors := c.interceptors ++ [i] }

/-- The request that some parts amount to. -/
def build (c : Client) (method url : String) (parts : List Part) : Except Error Request :=
  ({ method, url : Draft }.addAll parts).build c.settings

/-- Takes a request through all steps in turn. -/
def intercept (c : Client) (now : Moment) (r : Request) : Except Error Request :=
  c.interceptors.foldlM (fun r i => i now r) r

/-- The request as it is handed over for sending. -/
def prepare (c : Client) (now : Moment) (method url : String) (parts : List Part) :
    Except Error Request := do
  let r ← c.build method url parts
  c.intercept now r

end Client

/-! ## Credentials -/

/-- Who is asked for a token each time one is needed: the token then, or why there is none. -/
abbrev TokenProvider := Moment → Except Error String

/-- A token that never changes. -/
def TokenProvider.fixed (token : String) : TokenProvider := fun _ => .ok token

/-- Asks for a token and puts it into a header, in place of what is there. -/
def credential (header : String) (provider : TokenProvider) : Interceptor := fun now r => do
  let t ← provider now
  if isValue t then return { r with headers := r.headers.insert header t }
  else .error (.interceptor s!"invalid {header} value: failed to parse header value")

/-- The header that API keys are sent in. -/
def apiKeyHeader : String := "x-api-key"

end Switchboard.Http
