import Switchboard.Json.Token
import Switchboard.Text.Utf8

/-!
# Switchboard.Json.Parser

Reading JSON text.  A machine goes over the words once, with a stack of the
arrays and objects that are still open.

* `scan` — the value at the front of a text, as far as it can be read;
* `ofText?` — the one value that a text holds, in canonical form;
* `ofBytes?` — the same for bytes, which have to be a text first.

Arrays and objects may nest `maxDepth` deep.
-/

namespace Switchboard.Json

/-- How deep arrays and objects may nest. -/
def maxDepth : Nat := 127

/-- An array or object that is still open, with what it holds so far in reverse;
an object may also have a key that waits for its value. -/
inductive Frame where
  | array (items : List Json)
  | object (fields : List (String × Json)) (key : Option String)
  deriving Repr, Inhabited

/-- What may come next. -/
inductive Expect where
  | value
  /-- A first item or the end of an array. -/
  | item
  /-- A first key or the end of an object. -/
  | field
  | key
  | colon
  /-- A comma or the end of the innermost frame. -/
  | next
  deriving Repr, Inhabited, DecidableEq

/-- What one word leads to. -/
inductive Step where
  | go (expect : Expect) (stack : List Frame)
  | done (j : Json)
  | fault
  deriving Repr, Inhabited

/-- A value is whole: it goes to the innermost frame, or is the answer. -/
def settle (j : Json) : List Frame → Step
  | [] => .done j
  | .array items :: stack => .go .next (.array (j :: items) :: stack)
  | .object fields (some key) :: stack => .go .next (.object ((key, j) :: fields) none :: stack)
  | .object _ none :: _ => .fault

/-- A word where a value is due. -/
def stepValue (stack : List Frame) : Token → Step
  | .leaf j => settle j stack
  | .text s => settle (.str s) stack
  | .openArray => .go .item (.array [] :: stack)
  | .openObject => .go .field (.object [] none :: stack)
  | _ => .fault

/-- A word where a key is due. -/
def stepKey : List Frame → Token → Step
  | .object fields _ :: stack, .text k => .go .colon (.object fields (some k) :: stack)
  | _, _ => .fault

/-- What one word leads to. -/
def step (stack : List Frame) : Expect → Token → Step
  | .value, t => stepValue stack t
  | .item, .closeArray => match stack with
    | .array items :: outer => settle (.arr items.reverse) outer
    | _ => .fault
  | .item, t => stepValue stack t
  | .field, .closeObject => match stack with
    | .object fields _ :: outer => settle (.obj fields.reverse) outer
    | _ => .fault
  | .field, t => stepKey stack t
  | .key, t => stepKey stack t
  | .colon, .colon => .go .value stack
  | .colon, _ => .fault
  | .next, t => match t, stack with
    | .comma, .array _ :: _ => .go .value stack
    | .comma, .object _ _ :: _ => .go .key stack
    | .closeArray, .array items :: outer => settle (.arr items.reverse) outer
    | .closeObject, .object fields _ :: outer => settle (.obj fields.reverse) outer
    | _, _ => .fault

/-- What a text holds at its front. -/
inductive Scan where
  /-- A whole value and the words after it. -/
  | whole (j : Json) (rest : List Token)
  /-- A value that breaks off, as far as it goes, if it has begun; and the key that
  waits for its value, if the value is an object that breaks off there. -/
  | broken (j : Option Json) (key : Option String)
  deriving Repr, Inhabited

/-- The value that a stack of open frames amounts to when it breaks off around
an inner one. -/
def closeAll (inner : Option Json) : List Frame → Option Json
  | [] => inner
  | .array items :: stack => closeAll (some (.arr (inner.toList ++ items).reverse)) stack
  | .object fields key :: stack =>
    let last := match key, inner with
      | some k, some j => [(k, j)]
      | _, _ => []
    closeAll (some (.obj (last ++ fields).reverse)) stack

/-- The key of the outermost frame that has no value yet. -/
def waitingKey : List Frame → Option String
  | [.object _ key] => key
  | _ => none

/-- A reading that goes no further. -/
def breakOff (stack : List Frame) : Scan := .broken (closeAll none stack) (waitingKey stack)

/-- Reads words until a value is whole, with at most `maxDepth` frames open. -/
def scanFrom (expect : Expect) (stack : List Frame) : List Token → Scan
  | [] => breakOff stack
  | t :: ts => match step stack expect t with
    | .go e s => if s.length ≤ maxDepth then scanFrom e s ts else breakOff stack
    | .done j => .whole j ts
    | .fault => breakOff stack

/-- The value at the front of a text, with fields as they stand there. -/
def scan (s : String) : Scan := scanFrom .value [] (tokens s)

/-- The value that a text holds, in canonical form; `none` when it holds none, or
anything after it. -/
def ofText? (s : String) : Option Json :=
  match scan s with
  | .whole j [] => some j.canonical
  | _ => none

/-- The value that some bytes hold, in canonical form. -/
def ofBytes? (bs : Bytes) : Option Json :=
  match Text.decode bs with
  | .ok s => ofText? s
  | .error _ => none

end Switchboard.Json
