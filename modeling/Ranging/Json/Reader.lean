import Ranging.Json.Number

/-!
# Reading JSON text

A reader takes what it needs from the front of the text and leaves the rest. The first problem
from left to right decides how reading fails, and a value of the wrong type is noticed where it
stands, before anything that follows it.

Values that nobody asked for are passed over by `skip`, which checks their form with a stack of
open brackets and no bound on the depth. It is more lenient than reading: escapes need not form
characters, and a number may be out of range.
-/

namespace Ranging.Json

/-- How reading can fail. -/
inductive Failure where
  /-- The text ends too early. -/
  | truncated
  /-- The text is no JSON. -/
  | malformed
  /-- The text is JSON so far, but not of the type asked for. -/
  | mismatched
deriving DecidableEq

/-- Takes a value from the front of a text, and leaves the rest. -/
abbrev Reader := StateT (List Char) (Except Failure)

/-- Characters that may stand between tokens. -/
def isBlank (c : Char) : Bool :=
  c = ' ' || c = '\t' || c = '\n' || c = '\r'

namespace Reader

/-- Pass over blanks and look at the next character. -/
def next? : Reader (Option Char) := do
  let rest := (← get).dropWhile isBlank
  set rest
  return rest.head?

/-- Pass over blanks and look at the next character, which must be there. -/
def next : Reader Char := do
  match ← next? with
  | some c => return c
  | none => throw .truncated

/-- Leave out the next character. -/
def drop : Reader Unit :=
  modify List.tail

/-- Take these characters, one after the other. -/
def literal : List Char → Reader Unit
  | [] => return
  | c :: expected => do
    match ← get with
    | [] => throw .truncated
    | d :: rest =>
      if d = c then set rest; literal expected
      else throw .malformed

/-- After blanks, take this character. -/
def punctuation (c : Char) : Reader Unit := do
  if (← next) = c then drop else throw .malformed

end Reader

/-! ## Strings -/

/-- The value of a hexadecimal digit. -/
def hexValue? (c : Char) : Option Nat :=
  if c.isDigit then some (c.toNat - '0'.toNat)
  else if 'a' ≤ c ∧ c ≤ 'f' then some (c.toNat - 'a'.toNat + 10)
  else if 'A' ≤ c ∧ c ≤ 'F' then some (c.toNat - 'A'.toNat + 10)
  else none

/-- The value of four hexadecimal digits. -/
def hexUnit? (a b c d : Char) : Option Nat := do
  return (((← hexValue? a) * 16 + (← hexValue? b)) * 16 + (← hexValue? c)) * 16 + (← hexValue? d)

/-- The first half of a character beyond the basic plane. -/
def isLeading (unit : Nat) : Bool := 0xD800 ≤ unit && unit ≤ 0xDBFF

/-- The second half of a character beyond the basic plane. -/
def isTrailing (unit : Nat) : Bool := 0xDC00 ≤ unit && unit ≤ 0xDFFF

/-- The character made of two halves. -/
def combine (leading trailing : Nat) : Char :=
  Char.ofNat (0x10000 + (leading - 0xD800) * 0x400 + (trailing - 0xDC00))

/-- The character that a letter after a backslash stands for. -/
def simpleEscape? : Char → Option Char
  | '"' => some '"'
  | '\\' => some '\\'
  | '/' => some '/'
  | 'b' => some '\x08'
  | 'f' => some '\x0c'
  | 'n' => some '\n'
  | 'r' => some '\r'
  | 't' => some '\t'
  | _ => none

/-- How a numeric escape fails that is followed by fewer than four characters. The four digits are
counted in bytes, so that two characters of two bytes each are four wrong digits. -/
def shortEscape (rest : List Char) : Failure :=
  if (rest.map Char.utf8Size).foldl (· + ·) 0 < 4 then .truncated else .malformed

/-- Put a character in front of what has been read. -/
def prepend (c : Char) (r : Except Failure (List Char × List Char)) :
    Except Failure (List Char × List Char) :=
  r.map fun (text, rest) => (c :: text, rest)

/-- The characters of a string up to its closing quote, and what follows it. -/
def stringBody : List Char → Except Failure (List Char × List Char)
  | [] => .error .truncated
  | '"' :: rest => .ok ([], rest)
  | '\\' :: rest =>
    match rest with
    | 'u' :: a :: b :: c :: d :: rest =>
      match hexUnit? a b c d with
      | none => .error .malformed
      | some unit =>
        if isTrailing unit then .error .malformed
        else if isLeading unit then
          match rest with
          | '\\' :: 'u' :: a :: b :: c :: d :: rest =>
            match hexUnit? a b c d with
            | none => .error .malformed
            | some second =>
              if isTrailing second then prepend (combine unit second) (stringBody rest)
              else .error .malformed
          | '\\' :: 'u' :: rest => .error (shortEscape rest)
          | [] | ['\\'] => .error .truncated
          | _ => .error .malformed
        else prepend (Char.ofNat unit) (stringBody rest)
    | 'u' :: rest => .error (shortEscape rest)
    | c :: rest =>
      match simpleEscape? c with
      | some c => prepend c (stringBody rest)
      | none => .error .malformed
    | [] => .error .truncated
  | c :: rest => if c.toNat < 0x20 then .error .malformed else prepend c (stringBody rest)

/-- What follows a string whose characters do not matter. -/
def skipString : List Char → Except Failure (List Char)
  | [] => .error .truncated
  | '"' :: rest => .ok rest
  | '\\' :: rest =>
    match rest with
    | 'u' :: a :: b :: c :: d :: rest =>
      if (hexUnit? a b c d).isSome then skipString rest else .error .malformed
    | 'u' :: rest => .error (shortEscape rest)
    | c :: rest => if (simpleEscape? c).isSome then skipString rest else .error .malformed
    | [] => .error .truncated
  | c :: rest => if c.toNat < 0x20 then .error .malformed else skipString rest

/-! ## Numbers -/

namespace Reader

/-- Take as many digits as there are, but at least one. `atEnd` is the failure if the text is over
before it. -/
def digits (atEnd : Failure) : Reader (List Char) := do
  let (digits, rest) := (← get).span Char.isDigit
  if digits.isEmpty then throw (if rest.isEmpty then atEnd else .malformed)
  set rest
  return digits

/-- Take this character if it comes next. -/
def optional (p : Char → Bool) : Reader (Option Char) := do
  match ← get with
  | c :: rest => if p c then set rest; return some c else return none
  | [] => return none

/-- The digits after a point, if there is one. -/
def fraction (atEnd : Failure) : Reader (List Char) := do
  if (← optional (· = '.')).isSome then digits atEnd else return []

/-- The exponent, if there is one. -/
def exponent? (atEnd : Failure) : Reader (Option Int) := do
  if (← optional fun c => c = 'e' || c = 'E').isNone then return none
  let sign ← optional fun c => c = '+' || c = '-'
  let magnitude : Int := digitsValue (← digits atEnd)
  return some (if sign = some '-' then -magnitude else magnitude)

/-- Take a number. It has no superfluous leading zero and no plus sign. -/
def numberText (atEnd : Failure) : Reader NumberText := do
  let negative := (← optional (· = '-')).isSome
  let whole ← digits atEnd
  if whole.head? = some '0' ∧ whole.length ≠ 1 then throw .malformed
  let fraction ← fraction atEnd
  let exponent ← exponent? atEnd
  return { negative, whole, fraction, exponent }

/-- Take a number that must be in range. -/
def number [Conversion] : Reader Number := do
  match Number.ofText? (← numberText .truncated) with
  | some n => return n
  | none => throw .malformed

/-- Take a string after its opening quote. -/
def stringText : Reader String := do
  let (text, rest) ← stringBody (← get)
  set rest
  return String.ofList text

/-- Refuse the value that comes next, which starts with `c`. Words, numbers and strings are read
first, and their own failure goes before. -/
def refuse [Conversion] {α : Type} (c : Char) : Reader α := do
  match c with
  | 'n' => literal "null".toList
  | 't' => literal "true".toList
  | 'f' => literal "false".toList
  | '"' => drop; discard stringText
  | '[' | '{' => pure ()
  | c => if c = '-' || c.isDigit then discard number else throw .malformed
  throw .mismatched

/-- Read any number. -/
def float [Conversion] : Reader Float := do
  let c ← next
  if c = '-' || c.isDigit then return (← number).toFloat else refuse c

/-- Read a whole number below `bound`. -/
def natBelow [Conversion] (bound : Nat) : Reader Nat := do
  let c ← next
  if c = '-' || c.isDigit then
    match ← number with
    | .word n => if n < bound then return n else throw .mismatched
    | .real _ => throw .mismatched
  else refuse c

/-- Read a value or null. -/
def nullable {α : Type} (r : Reader α) : Reader (Option α) := do
  if (← next?) = some 'n' then
    literal "null".toList
    return none
  else return some (← r)

/-- Read one of a few named values: its name, or an object whose only member has that name and is
null. -/
def choice [Conversion] {α : Type} (ofName? : String → Option α) : Reader α := do
  match ← next with
  | '"' =>
    drop
    match ofName? (← stringText) with
    | some a => return a
    | none => throw .mismatched
  | '{' =>
    drop
    punctuation '"'
    match ofName? (← stringText) with
    | none => throw .mismatched
    | some a =>
      punctuation ':'
      let c ← next
      if c ≠ 'n' then return ← refuse c
      literal "null".toList
      punctuation '}'
      return a
  | _ => throw .malformed

/-! ## Passing over values -/

/-- An open bracket. -/
inductive Bracket where
  | array
  | object
deriving DecidableEq

/-- The character that closes a bracket. -/
def Bracket.close : Bracket → Char
  | .array => ']'
  | .object => '}'

/-- Take a string whose characters do not matter, after its opening quote. -/
def passString : Reader Unit := do
  set (← skipString (← get))

/-- Take the name of a member and the colon. -/
def passKey : Reader Unit := do
  punctuation '"'
  passString
  punctuation ':'

/-- Take a value that is no array or object and starts with `c`. -/
def passScalar (c : Char) : Reader Unit := do
  match c with
  | 'n' => literal "null".toList
  | 't' => literal "true".toList
  | 'f' => literal "false".toList
  | '"' => drop; passString
  | c => if c = '-' || c.isDigit then discard (numberText .malformed) else throw .malformed

/-- Pass over the rest of a value inside of open brackets, the innermost first. `inValue` tells
whether a value comes next or has just ended. Every step takes a character, so that the length of
the text is enough `fuel`. -/
def passOpen (fuel : Nat) (inValue : Bool) (brackets : List Bracket) : Reader Unit := do
  match fuel with
  | 0 => throw .truncated
  | fuel + 1 =>
    if inValue then
      match ← next with
      | '[' =>
        drop
        if (← next) = ']' then drop; passOpen fuel false brackets
        else passOpen fuel true (.array :: brackets)
      | '{' =>
        drop
        if (← next) = '}' then drop; passOpen fuel false brackets
        else passKey; passOpen fuel true (.object :: brackets)
      | c => passScalar c; passOpen fuel false brackets
    else
      match brackets with
      | [] => return
      | bracket :: outer =>
        let c ← next
        if c = ',' then
          drop
          if bracket = .object then passKey
          passOpen fuel true brackets
        else if c = bracket.close then drop; passOpen fuel false outer
        else throw .malformed

/-- Pass over a value of any form and depth. -/
def skip : Reader Unit := do
  passOpen ((← get).length + 2) true []

end Reader

end Ranging.Json
