import Switchboard.GraphQL.Document
import Switchboard.Json.Tagged

/-!
# Switchboard.GraphQL.Message

The messages of the `graphql-transport-ws` protocol.

* `ClientMessage`, `ServerMessage` — what either side may say;
* `toJson`, `ofJson`, `ofText` — messages as they are written and read;
* `ServerMessage.shown` — a message as an error text shows it.
-/

namespace Switchboard.GraphQL

/-- The name under which both sides agree on the protocol. -/
def subprotocol : String := "graphql-transport-ws"

inductive ClientMessage where
  /-- Opens the session. -/
  | init (payload : Option Json)
  | subscribe (id : String) (document : Document)
  /-- Ends a subscription. -/
  | complete (id : String)
  | ping (payload : Option Json)
  | pong (payload : Option Json)
  deriving Repr, Inhabited

inductive ServerMessage where
  /-- The session is open. -/
  | ack (payload : Option Json)
  /-- One result of a subscription. -/
  | next (id : String) (payload : Json)
  /-- Errors, after which the subscription is over. -/
  | error (id : String) (errors : List Json)
  /-- The subscription is over. -/
  | complete (id : String)
  | ping (payload : Option Json)
  | pong (payload : Option Json)
  deriving Repr, Inhabited

open Json Record

/-- A message with its tag. -/
def tagged (tag : String) (fields : List (String × Json)) : Json :=
  .object ((tagKey, .str tag) :: fields)

/-! ## From the client -/

namespace ClientMessage

/-- A message as it is written; an absent payload is left out. -/
def toJson : ClientMessage → Json
  | init p => tagged "connection_init" (Document.field "payload" id p)
  | subscribe i d => tagged "subscribe" [("id", .str i), ("payload", d.toJson)]
  | complete i => tagged "complete" [("id", .str i)]
  | ping p => tagged "ping" (Document.field "payload" id p)
  | pong p => tagged "pong" (Document.field "payload" id p)

/-- Reads the fields of one kind of message. -/
def shape (variant : String) (r : Record ClientMessage) : Decoder ClientMessage :=
  r.decodeGathered s!"struct variant ClientMessage::{variant}"

/-- A payload that may be absent. -/
def payload : Record (Option Json) := defaulted "payload" none (nullable value)

/-- Reads the document in a message. -/
def document : Decoder Document :=
  (Document.record value).decodeGathered "struct RequestDocument"

def shapes : Shapes ClientMessage where
  name := "ClientMessage"
  table := [
    ("connection_init", shape "ConnectionInit" (init <$> payload)),
    ("subscribe", shape "Subscribe"
      (subscribe <$> required "id" string <*> required "payload" document)),
    ("complete", shape "Complete" (complete <$> required "id" string)),
    ("ping", shape "Ping" (ping <$> payload)),
    ("pong", shape "Pong" (pong <$> payload))]

def ofJson : Decoder ClientMessage := shapes.ofJson

def ofText (text : String) : Except TextFault ClientMessage := shapes.ofText text

end ClientMessage

/-! ## From the server -/

namespace ServerMessage

/-- The subscription that a message is about. -/
def subscription? : ServerMessage → Option String
  | next id _ | error id _ | complete id => some id
  | _ => none

/-- A message as it is written; an absent payload is null. -/
def toJson : ServerMessage → Json
  | ack p => tagged "connection_ack" [("payload", p.getD .null)]
  | next i p => tagged "next" [("id", .str i), ("payload", p)]
  | error i es => tagged "error" [("id", .str i), ("payload", .arr es)]
  | complete i => tagged "complete" [("id", .str i)]
  | ping p => tagged "ping" [("payload", p.getD .null)]
  | pong p => tagged "pong" [("payload", p.getD .null)]

/-- Reads the fields of one kind of message. -/
def shape (variant : String) (r : Record ServerMessage) : Decoder ServerMessage :=
  r.decodeGathered s!"struct variant ServerMessage::{variant}"

/-- A payload that may be absent. -/
def payload : Record (Option Json) := defaulted "payload" none (nullable value)

def shapes : Shapes ServerMessage where
  name := "ServerMessage"
  table := [
    ("connection_ack", shape "ConnectionAck" (ack <$> payload)),
    ("next", shape "Next" (next <$> required "id" string <*> required "payload" value)),
    ("error", shape "Error"
      (error <$> required "id" string <*> required "payload" (sequence value))),
    ("complete", shape "Complete" (complete <$> required "id" string)),
    ("ping", shape "Ping" (ping <$> payload)),
    ("pong", shape "Pong" (pong <$> payload))]

def ofJson : Decoder ServerMessage := shapes.ofJson

def ofText (text : String) : Except TextFault ServerMessage := shapes.ofText text

end ServerMessage

/-! ## Shown -/

/-- Things in brackets with commas between them. -/
private def listed (opening closing : String) (items : List String) : String :=
  opening ++ ", ".intercalate items ++ closing

mutual
/-- A value with the kind of each part, as an error text shows it. -/
def shownValue : Json → String
  | .null => "Null"
  | .bool b => s!"Bool({b})"
  | .int n => s!"Number({n})"
  | .float x => s!"Number({x.render})"
  | .str s => s!"String({Text.quoted s})"
  | .arr items => "Array " ++ listed "[" "]" (shownItems items)
  | .obj fields => "Object " ++ listed "\x7b" "\x7d" (shownFields fields)

def shownItems : List Json → List String
  | [] => []
  | j :: rest => shownValue j :: shownItems rest

def shownFields : List (String × Json) → List String
  | [] => []
  | (k, j) :: rest => (Text.quoted k ++ ": " ++ shownValue j) :: shownFields rest
end

def shownPayload : Option Json → String
  | none => "None"
  | some j => s!"Some({shownValue j})"

/-- A message as an error text shows it. -/
def ServerMessage.shown (m : ServerMessage) : String :=
  match m with
  | ack p => named "ConnectionAck" [("payload", shownPayload p)]
  | next i p => named "Next" [("id", Text.quoted i), ("payload", shownValue p)]
  | error i es =>
    named "Error" [("id", Text.quoted i), ("payload", listed "[" "]" (shownItems es))]
  | complete i => named "Complete" [("id", Text.quoted i)]
  | ping p => named "Ping" [("payload", shownPayload p)]
  | pong p => named "Pong" [("payload", shownPayload p)]
where
  named (name : String) (fields : List (String × String)) : String :=
    name ++ " \x7b " ++ ", ".intercalate (fields.map fun (k, v) => k ++ ": " ++ v) ++ " \x7d"

end Switchboard.GraphQL
