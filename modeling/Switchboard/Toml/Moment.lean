/-!
# Switchboard.Toml.Moment

Dates and times, as a configuration may write them: a date, a time, or both, and
with both an offset.  A moment is checked against the calendar and the clock, and
written back in one form: a `T` between date and time, the seconds always, no zeros
at the end of a fraction and no fraction that is zero.
-/

namespace Switchboard.Toml

structure Date where
  year : Nat
  month : Nat
  day : Nat
  deriving DecidableEq, Repr

structure Time where
  hour : Nat
  minute : Nat
  second : Nat
  /-- The digits of the fraction. -/
  fraction : List Char
  deriving DecidableEq, Repr

inductive Offset where
  | utc
  | minutes (n : Int)
  deriving DecidableEq, Repr

/-- A date, a time, or both. -/
structure Moment where
  date : Option Date
  time : Option Time
  offset : Option Offset
  deriving DecidableEq, Repr

/-! ## The calendar and the clock -/

def isLeapYear (y : Nat) : Bool := y % 4 = 0 && (y % 100 ≠ 0 || y % 400 = 0)

def daysIn (year month : Nat) : Nat :=
  match month with
  | 2 => if isLeapYear year then 29 else 28
  | 4 | 6 | 9 | 11 => 30
  | _ => 31

def Date.valid (d : Date) : Bool :=
  1 ≤ d.month && d.month ≤ 12 && 1 ≤ d.day && d.day ≤ daysIn d.year d.month

/-- A minute may have a sixtieth second, the leap second. -/
def Time.valid (t : Time) : Bool :=
  t.hour ≤ 23 && t.minute ≤ 59 && t.second ≤ 60

/-! ## Reading -/

/-- Reads exactly `n` decimal digits. -/
def digits? : Nat → List Char → Option (Nat × List Char) := go 0
where
  go (acc : Nat) : Nat → List Char → Option (Nat × List Char)
    | 0, cs => some (acc, cs)
    | n + 1, c :: cs => if c.isDigit then go (acc * 10 + (c.toNat - 0x30)) n cs else none
    | _ + 1, [] => none

/-- Reads one given character. -/
def char? (c : Char) : List Char → Option (List Char)
  | d :: cs => if d = c then some cs else none
  | [] => none

def date? (cs : List Char) : Option (Date × List Char) := do
  let (year, cs) ← digits? 4 cs
  let cs ← char? '-' cs
  let (month, cs) ← digits? 2 cs
  let cs ← char? '-' cs
  let (day, cs) ← digits? 2 cs
  let d : Date := ⟨year, month, day⟩
  if d.valid then some (d, cs) else none

/-- Reads a fraction of a second, if there is one; nine digits of it count. -/
def fraction? : List Char → Option (List Char × List Char)
  | '.' :: cs =>
    let ds := cs.takeWhile Char.isDigit
    if ds.isEmpty then none else some (ds.take 9, cs.dropWhile Char.isDigit)
  | cs => some ([], cs)

/-- Reads the seconds; left out, they are zero. -/
def seconds? : List Char → Option ((Nat × List Char) × List Char)
  | ':' :: cs => do
    let (s, cs) ← digits? 2 cs
    let (f, cs) ← fraction? cs
    return ((s, f), cs)
  | cs => some ((0, []), cs)

def time? (cs : List Char) : Option (Time × List Char) := do
  let (hour, cs) ← digits? 2 cs
  let cs ← char? ':' cs
  let (minute, cs) ← digits? 2 cs
  let ((second, fraction), cs) ← seconds? cs
  let t : Time := ⟨hour, minute, second, fraction⟩
  if t.valid then some (t, cs) else none

/-- Reads an offset, if there is one. -/
def offset? : List Char → Option (Option Offset × List Char)
  | [] => some (none, [])
  | c :: cs =>
    if c = 'Z' ∨ c = 'z' then some (some .utc, cs)
    else if c = '+' ∨ c = '-' then do
      let (h, cs) ← digits? 2 cs
      let cs ← char? ':' cs
      let (m, cs) ← digits? 2 cs
      let n : Int := h * 60 + m
      if h ≤ 23 ∧ m ≤ 59 then some (some (.minutes (if c = '-' then -n else n)), cs) else none
    else none

/-- The moment that a word spells. -/
def Moment.ofChars? (cs : List Char) : Option Moment :=
  match date? cs with
  | some (d, []) => some ⟨some d, none, none⟩
  | some (d, c :: rest) =>
    if c = 'T' ∨ c = 't' ∨ c = ' ' then do
      let (t, rest) ← time? rest
      let (o, rest) ← offset? rest
      if rest.isEmpty then some ⟨some d, some t, o⟩ else none
    else none
  | none => do
    let (t, rest) ← time? cs
    if rest.isEmpty then some ⟨none, some t, none⟩ else none

/-! ## Writing -/

/-- A number with at least `width` digits. -/
def padded (width n : Nat) : String :=
  let ds := Nat.toDigits 10 n
  String.ofList (List.replicate (width - ds.length) '0' ++ ds)

def Date.render (d : Date) : String :=
  padded 4 d.year ++ "-" ++ padded 2 d.month ++ "-" ++ padded 2 d.day

/-- The digits of a fraction without zeros at the end. -/
def trimFraction (ds : List Char) : List Char := (ds.reverse.dropWhile (· = '0')).reverse

def Time.render (t : Time) : String :=
  padded 2 t.hour ++ ":" ++ padded 2 t.minute ++ ":" ++ padded 2 t.second ++
    (match trimFraction t.fraction with
      | [] => ""
      | ds => "." ++ String.ofList ds)

def Offset.render : Offset → String
  | utc => "Z"
  | minutes n =>
    (if n < 0 then "-" else "+") ++ padded 2 (n.natAbs / 60) ++ ":" ++ padded 2 (n.natAbs % 60)

def Moment.render (m : Moment) : String :=
  (match m.date with
    | some d => d.render
    | none => "") ++
  (if m.date.isSome && m.time.isSome then "T" else "") ++
  (match m.time with
    | some t => t.render
    | none => "") ++
  (match m.offset with
    | some o => o.render
    | none => "")

end Switchboard.Toml
