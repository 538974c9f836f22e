import Switchboard.Json.Token

/-!
# Switchboard.Toml.Quoted

The four forms of a string: basic strings with escapes and literal strings
without, each on one line or on several.
-/

namespace Switchboard.Toml

/-- Control characters, which stand nowhere in a text unescaped; a tab does. -/
def isControl (c : Char) : Bool := (c.toNat < 0x20 && c != '\t') || c.toNat == 0x7F

def isSpace (c : Char) : Bool := c == ' ' || c == '\t'

/-- The character with a number, if there is one. -/
def charOf? (n : Nat) : Option Char := if n.isValidChar then some (Char.ofNat n) else none

/-- Reads the digits of a numbered escape. -/
def escapeDigits? (width : Nat) (cs : List Char) : Option Char :=
  let ds := cs.take width
  if ds.length = width then
    (ds.foldl (fun n d => do
      let n ← n
      let v ← Text.hexDigit? d
      return n * 16 + v) (some 0)).bind charOf?
  else none

/-- The character that a letter after a backslash stands for. -/
def escape? (c : Char) : Option Char :=
  if c = '"' ∨ c = '\\' then some c
  else if c = 'b' then some (Char.ofNat 0x08)
  else if c = 't' then some '\t'
  else if c = 'n' then some '\n'
  else if c = 'f' then some (Char.ofNat 0x0C)
  else if c = 'r' then some '\r'
  else if c = 'e' then some (Char.ofNat 0x1B)
  else none

/-- How many digits a numbered escape has. -/
def escapeWidth? (c : Char) : Option Nat :=
  if c = 'x' then some 2 else if c = 'u' then some 4 else if c = 'U' then some 8 else none

/-- Skips blanks and line ends. -/
def skipLines : List Char → List Char
  | '\r' :: '\n' :: r => skipLines r
  | c :: r => if isSpace c || c == '\n' then skipLines r else c :: r
  | [] => []

/-- What follows the backslash that ends a line: the text after the blanks and
line ends, if only blanks stand before the first line end. -/
def afterLineEnd? (cs : List Char) : Option (List Char) :=
  match cs.dropWhile isSpace with
  | '\n' :: r => some (skipLines r)
  | '\r' :: '\n' :: r => some (skipLines r)
  | _ => none

/-- A string so far, and what follows it. -/
abbrev Read := Option (List Char × List Char)

def Read.cons (c : Char) (r : Read) : Read := r.map fun (s, rest) => (c :: s, rest)

/-- Reads a basic string after its opening quote, `fuel` characters at most. -/
def basic? : Nat → List Char → Read
  | 0, _ => none
  | _ + 1, [] => none
  | _ + 1, '"' :: r => some ([], r)
  | fuel + 1, '\\' :: c :: r =>
    match escape? c, escapeWidth? c with
    | some d, _ => (basic? fuel r).cons d
    | none, some w => (escapeDigits? w r).bind fun d => (basic? fuel (r.drop w)).cons d
    | none, none => none
  | fuel + 1, c :: r => if isControl c || c == '\\' then none else (basic? fuel r).cons c

/-- Reads a literal string after its opening quote. -/
def literal? : List Char → Read
  | [] => none
  | c :: r =>
    if c = '\'' then some ([], r)
    else if isControl c then none
    else (literal? r).cons c

/-- What a run of quotes means in a string of several lines: three end it, and up
to two more before them belong to it. -/
def closing? (quote : Char) (cs : List Char) : Read :=
  let run := cs.takeWhile (· = quote)
  if run.length < 3 then none
  else
    let kept := min (run.length - 3) 2
    some (List.replicate kept quote, cs.drop (kept + 3))

/-- Reads a basic string of several lines after its opening quotes. -/
def basicLines? : Nat → List Char → Read
  | 0, _ => none
  | _ + 1, [] => none
  | fuel + 1, '"' :: r =>
    match closing? '"' ('"' :: r) with
    | some done => some done
    | none => (basicLines? fuel r).cons '"'
  | fuel + 1, '\\' :: r =>
    match afterLineEnd? r with
    | some r' => basicLines? fuel r'
    | none => match r with
      | [] => none
      | c :: r' => match escape? c, escapeWidth? c with
        | some d, _ => (basicLines? fuel r').cons d
        | none, some w => (escapeDigits? w r').bind fun d => (basicLines? fuel (r'.drop w)).cons d
        | none, none => none
  | fuel + 1, '\r' :: '\n' :: r => ((basicLines? fuel r).cons '\n').cons '\r'
  | fuel + 1, c :: r =>
    if isControl c && c != '\n' then none else (basicLines? fuel r).cons c

/-- Reads a literal string of several lines after its opening quotes. -/
def literalLines? : Nat → List Char → Read
  | 0, _ => none
  | _ + 1, [] => none
  | fuel + 1, '\'' :: r =>
    match closing? '\'' ('\'' :: r) with
    | some done => some done
    | none => (literalLines? fuel r).cons '\''
  | fuel + 1, '\r' :: '\n' :: r => ((literalLines? fuel r).cons '\n').cons '\r'
  | fuel + 1, c :: r =>
    if isControl c && c != '\n' then none else (literalLines? fuel r).cons c

/-- Drops a line end at the front. -/
def dropLineEnd : List Char → List Char
  | '\n' :: r => r
  | '\r' :: '\n' :: r => r
  | r => r

/-- Reads a string of one line, if there is one. -/
def string? : List Char → Read
  | '"' :: r => basic? (r.length + 1) r
  | '\'' :: r => literal? r
  | _ => none

/-- Reads a string of any form, if there is one. -/
def anyString? : List Char → Read
  | '"' :: '"' :: '"' :: r => basicLines? (r.length + 1) (dropLineEnd r)
  | '\'' :: '\'' :: '\'' :: r => literalLines? (r.length + 1) (dropLineEnd r)
  | cs => string? cs

end Switchboard.Toml
