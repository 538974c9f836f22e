import Switchboard.Auth.Providers
import Switchboard.Config.Apis

/-!
# Switchboard.Dispatch.Clients

The clients of a dispatcher, one for each API.

* `register`, `resolve` — add a client, and find the one for a name;
* `ofApis` — the clients for a configuration.
-/

namespace Switchboard

/-- An API with the client for its requests. -/
structure ClientEntry where
  api : Api
  client : Http.Client

/-- The clients by the names of their APIs. -/
structure Clients where
  entries : Keyed ClientEntry := []

namespace Clients

/-- Adds a client, unless there is one of its name. -/
def register (clients : Clients) (e : ClientEntry) : Except ApiError Clients :=
  if Keyed.has e.api.name clients.entries then
    .error (.configuration s!"API named {e.api.name} is already registered"
      "Give every API section a unique name")
  else .ok ⟨Keyed.set e.api.name e clients.entries⟩

/-- The client for a name. -/
def resolve (clients : Clients) (name : String) : Except ApiError ClientEntry :=
  match Keyed.get? name clients.entries with
  | some e => .ok e
  | none => .error (.missingApi name)

def names (clients : Clients) : List String := Keyed.keys clients.entries

def size (clients : Clients) : Nat := clients.entries.length

def isEmpty (clients : Clients) : Bool := clients.entries.isEmpty

/-! ## From a configuration -/

/-- The client for an API. -/
def entryFor (providers : Providers) (settings : Http.Settings) (api : Api) :
    Except ApiError ClientEntry := do
  let client ← (Http.Client.create settings).mapError fun e =>
    .configuration s!"Failed to create HTTP client for API {api.name}: {e.message}"
      "Check the HTTP client settings"
  match ← providers.interceptorFor api with
  | some i => return ⟨api, client.withInterceptor i⟩
  | none => return ⟨api, client⟩

/-- Adds the clients for some APIs in turn. -/
def registerAll (providers : Providers) (settings : Http.Settings) :
    Clients → List Api → Except ApiError Clients
  | clients, [] => .ok clients
  | clients, api :: rest => do
    let e ← entryFor providers settings api
    let clients ← clients.register e
    registerAll providers settings clients rest

/-- The clients for a configuration.  Operations need workers to run on. -/
def ofApis (hasWorkers : Bool) (providers : Providers) (settings : Http.Settings) (apis : Apis) :
    Except ApiError Clients :=
  if hasWorkers then registerAll providers settings {} apis.toList
  else .error (.configuration "No Tokio runtime available for operation workers"
    "Build the dispatcher inside a Tokio runtime or pass one with runtime()")

end Clients
end Switchboard
