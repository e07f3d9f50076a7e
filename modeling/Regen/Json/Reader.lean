import Regen.Json.Basic
import Regen.Json.Double

/-!
# Reading JSON text

A strict reader: one value between blanks, no trailing commas, no unescaped control characters,
no lone surrogates, and at most 127 arrays and objects inside one another. Of two fields with
one key the last counts. An integer that fits in 64 bits, signed or unsigned, is read exactly;
any other number is read as a double, and refused when it is too large for one.
-/

namespace Regen.Json.Reader

def skipBlanks : List Char → List Char
  | c :: rest =>
    if c == ' ' || c == '\n' || c == '\r' || c == '\t' then skipBlanks rest else c :: rest
  | [] => []

/-- The rest of the text behind a literal word. -/
def afterWord : List Char → List Char → Option (List Char)
  | [], rest => some rest
  | w :: word, c :: rest => if w == c then afterWord word rest else none
  | _ :: _, [] => none

def hexValue? (c : Char) : Option Nat :=
  if '0' ≤ c ∧ c ≤ '9' then some (c.toNat - 48)
  else if 'a' ≤ c ∧ c ≤ 'f' then some (c.toNat - 87)
  else if 'A' ≤ c ∧ c ≤ 'F' then some (c.toNat - 55)
  else none

/-- The number written by four hexadecimal digits, and the text behind them. -/
def hexQuad : List Char → Option (Nat × List Char)
  | a :: b :: c :: d :: rest => do
    let n := (← hexValue? a) * 4096 + (← hexValue? b) * 256 + (← hexValue? c) * 16
      + (← hexValue? d)
    some (n, rest)
  | _ => none

/-- The character of a `\u` escape, which takes a second escape when it begins a surrogate
pair. -/
def unicodeEscape (cs : List Char) : Option (Char × List Char) := do
  let (first, rest) ← hexQuad cs
  if 0xDC00 ≤ first ∧ first ≤ 0xDFFF then none
  else if 0xD800 ≤ first ∧ first ≤ 0xDBFF then
    match rest with
    | '\\' :: 'u' :: rest =>
      let (second, rest) ← hexQuad rest
      if 0xDC00 ≤ second ∧ second ≤ 0xDFFF then
        some (Char.ofNat (0x10000 + (first - 0xD800) * 0x400 + (second - 0xDC00)), rest)
      else none
    | _ => none
  else some (Char.ofNat first, rest)

/-- The character of an escape, and the text behind it. -/
def escape : List Char → Option (Char × List Char)
  | '"' :: rest => some ('"', rest)
  | '\\' :: rest => some ('\\', rest)
  | '/' :: rest => some ('/', rest)
  | 'b' :: rest => some ('\x08', rest)
  | 'f' :: rest => some ('\x0c', rest)
  | 'n' :: rest => some ('\n', rest)
  | 'r' :: rest => some ('\r', rest)
  | 't' :: rest => some ('\t', rest)
  | 'u' :: rest => unicodeEscape rest
  | _ => none

/-- The rest of a string behind its opening quote, appended to what was read of it. -/
def string : (fuel : Nat) → (read : String) → List Char → Option (String × List Char)
  | 0, _, _ => none
  | _ + 1, _, [] => none
  | _ + 1, read, '"' :: rest => some (read, rest)
  | fuel + 1, read, '\\' :: rest =>
    match escape rest with
    | some (c, rest) => string fuel (read.push c) rest
    | none => none
  | fuel + 1, read, c :: rest => if c.toNat < 32 then none else string fuel (read.push c) rest

/-- Take digits into a significand while it stays below `2 ^ 64`; counts the digits taken. -/
def absorb (significand taken : Nat) : List Char → Nat × Nat
  | [] => (significand, taken)
  | c :: rest =>
    let next := significand * 10 + (c.toNat - 48)
    if next < UInt64.size then absorb next (taken + 1) rest else (significand, taken)

/-- The exponent behind an `e`, and the text behind it. -/
def exponent (cs : List Char) : Option (Int × List Char) :=
  let (negative, cs) := match cs with
    | '+' :: rest => (false, rest)
    | '-' :: rest => (true, rest)
    | _ => (false, cs)
  let digits := cs.takeWhile Char.isDigit
  if digits.isEmpty then none
  else
    let n : Nat := digits.foldl (fun n c => n * 10 + (c.toNat - 48)) 0
    some (if negative then -(n : Int) else n, cs.dropWhile Char.isDigit)

/-- The value of a number without fraction and exponent, of which all digits were taken. -/
def integer (negative : Bool) (significand : Nat) : Json :=
  if !negative then .int significand
  else if significand == 0 || -(significand : Int) < Int64.minValue.toInt then
    .double (-significand.toUInt64.toFloat).toBits
  else .int (-(significand : Int))

/-- The value of a number with a fraction, an exponent or too many digits. -/
def decimal (negative : Bool) (significand : Nat) (power : Int) (cs : List Char) :
    Option (Json × List Char) := do
  let (shift, rest) ← match cs with
    | 'e' :: rest | 'E' :: rest => exponent rest
    | _ => some (0, cs)
  let bits ← Double.ofDecimal? negative significand (power + shift)
  some (.double bits, rest)

/-- A number behind its sign. Digits that do not fit into the significand only scale it. -/
def number (negative : Bool) (cs : List Char) : Option (Json × List Char) :=
  let digits := cs.takeWhile Char.isDigit
  let rest := cs.dropWhile Char.isDigit
  if digits.isEmpty || (digits.head? == some '0' && digits.length != 1) then none
  else
    let (significand, taken) := absorb 0 0 digits
    let power := digits.length - taken
    match rest with
    | '.' :: rest =>
      let fraction := rest.takeWhile Char.isDigit
      let rest := rest.dropWhile Char.isDigit
      if fraction.isEmpty then none
      else
        let (significand, taken) := absorb significand 0 fraction
        decimal negative significand (power - taken) rest
    | 'e' :: _ | 'E' :: _ => decimal negative significand power rest
    | _ =>
      if power == 0 then some (integer negative significand, rest)
      else decimal negative significand power rest

mutual

/-- A value at the start of the text, with `depth` more levels of nesting allowed. -/
def value : (fuel depth : Nat) → List Char → Option (Json × List Char)
  | 0, _, _ => none
  | fuel + 1, depth, cs =>
    match cs with
    | 'n' :: _ => (afterWord "null".toList cs).map (.null, ·)
    | 't' :: _ => (afterWord "true".toList cs).map (.bool true, ·)
    | 'f' :: _ => (afterWord "false".toList cs).map (.bool false, ·)
    | '"' :: rest => (string (rest.length + 1) "" rest).map fun (s, rest) => (.str s, rest)
    | '-' :: rest => number true rest
    | '[' :: rest =>
      match depth, skipBlanks rest with
      | 0, _ => none
      | _ + 1, ']' :: rest => some (.arr [], rest)
      | depth + 1, rest => (items fuel depth rest).map fun (items, rest) => (.arr items, rest)
    | '\x7b' :: rest =>
      match depth, skipBlanks rest with
      | 0, _ => none
      | _ + 1, '\x7d' :: rest => some (.obj [], rest)
      | depth + 1, rest =>
        (members fuel depth rest).map fun (fields, rest) => (object fields, rest)
    | _ => number false cs

def items : (fuel depth : Nat) → List Char → Option (List Json × List Char)
  | 0, _, _ => none
  | fuel + 1, depth, cs => do
    let (item, rest) ← value fuel depth cs
    match skipBlanks rest with
    | ',' :: rest =>
      let (others, rest) ← items fuel depth (skipBlanks rest)
      some (item :: others, rest)
    | ']' :: rest => some ([item], rest)
    | _ => none

def members : (fuel depth : Nat) → List Char → Option (List (String × Json) × List Char)
  | 0, _, _ => none
  | fuel + 1, depth, cs =>
    match cs with
    | '"' :: rest => do
      let (key, rest) ← string (rest.length + 1) "" rest
      match skipBlanks rest with
      | ':' :: rest =>
        let (item, rest) ← value fuel depth (skipBlanks rest)
        match skipBlanks rest with
        | ',' :: rest =>
          let (others, rest) ← members fuel depth (skipBlanks rest)
          some ((key, item) :: others, rest)
        | '\x7d' :: rest => some ([(key, item)], rest)
        | _ => none
      | _ => none
    | _ => none

end

/-- The most arrays and objects that may stand inside one another. -/
def maxDepth : Nat := 127

end Regen.Json.Reader

namespace Regen.Json

/-- The value that a text holds, blanks around it aside. -/
def parse? (text : String) : Option Json :=
  let cs := Reader.skipBlanks text.toList
  match Reader.value (2 * cs.length + 2) Reader.maxDepth cs with
  | some (value, rest) => if (Reader.skipBlanks rest).isEmpty then some value else none
  | none => none

end Regen.Json
