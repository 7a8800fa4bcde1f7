import Ranging.Decimal.Style

/-!
# JSON values and their text

A value keeps its members in the order in which they are written. Numbers are kept as text, since
the way in which a number is written is a decision of the format and not of its reader.
-/

namespace Ranging

/-- A JSON value. -/
inductive Json where
  | null
  | bool (value : Bool)
  /-- A number, by its text. -/
  | number (text : String)
  | string (text : String)
  | array (items : List Json)
  | object (members : List (String × Json))

namespace Json

/-- A number that is no fraction. -/
def nat (n : Nat) : Json := .number (toString n)

/-- A signed number that is no fraction. -/
def int (n : Int) : Json := .number (toString n)

/-- A binary64 number; one that is not finite becomes null. -/
def float (x : Float) : Json := .number (documentNumber x)

/-- A binary32 number; one that is not finite becomes null. -/
def float32 (x : Float32) : Json := .number (documentNumber32 x)

/-- A value or null. -/
def option {α : Type} (f : α → Json) : Option α → Json
  | some a => f a
  | none => .null

/-- One hexadecimal digit, in lower case. -/
def hexDigit (n : Nat) : Char :=
  Nat.digitChar n

/-- The text of a character inside a string. Quotes, backslashes and control characters are
escaped, all others stand for themselves. -/
def escape (c : Char) : List Char :=
  match c with
  | '"' => ['\\', '"']
  | '\\' => ['\\', '\\']
  | '\n' => ['\\', 'n']
  | '\t' => ['\\', 't']
  | '\r' => ['\\', 'r']
  | '\x08' => ['\\', 'b']
  | '\x0c' => ['\\', 'f']
  | c =>
    if c.toNat < 0x20 then
      ['\\', 'u', '0', '0', hexDigit (c.toNat / 16), hexDigit (c.toNat % 16)]
    else [c]

/-- A string in quotes. -/
def quote (s : String) : List Char :=
  '"' :: (s.toList.flatMap escape ++ ['"'])

mutual

/-- The text of a value without any blanks. -/
def compact : Json → List Char
  | .null => "null".toList
  | .bool b => (if b then "true" else "false").toList
  | .number text => text.toList
  | .string s => quote s
  | .array items => '[' :: (compactItems items ++ [']'])
  | .object members => '{' :: (compactMembers members ++ ['}'])

/-- Values separated by commas. -/
def compactItems : List Json → List Char
  | [] => []
  | [v] => v.compact
  | v :: rest => v.compact ++ ',' :: compactItems rest

/-- Members separated by commas. -/
def compactMembers : List (String × Json) → List Char
  | [] => []
  | [(k, v)] => quote k ++ ':' :: v.compact
  | (k, v) :: rest => quote k ++ ':' :: (v.compact ++ ',' :: compactMembers rest)

end

/-- A line break and the indentation of a nesting depth, two blanks for each level. -/
def newline (depth : Nat) : List Char :=
  '\n' :: List.replicate (2 * depth) ' '

mutual

/-- The text of a value with every item and member on a line of its own. -/
def prettyAt (depth : Nat) : Json → List Char
  | .array [] => ['[', ']']
  | .array items =>
    '[' :: newline (depth + 1) ++ prettyItems (depth + 1) items ++ newline depth ++ [']']
  | .object [] => ['{', '}']
  | .object members =>
    '{' :: newline (depth + 1) ++ prettyMembers (depth + 1) members ++ newline depth ++ ['}']
  | .null => compact .null
  | .bool b => compact (.bool b)
  | .number text => compact (.number text)
  | .string s => compact (.string s)

/-- Values on lines of their own. -/
def prettyItems (depth : Nat) : List Json → List Char
  | [] => []
  | [v] => prettyAt depth v
  | v :: rest => prettyAt depth v ++ ',' :: (newline depth ++ prettyItems depth rest)

/-- Members on lines of their own. -/
def prettyMembers (depth : Nat) : List (String × Json) → List Char
  | [] => []
  | [(k, v)] => quote k ++ ':' :: ' ' :: prettyAt depth v
  | (k, v) :: rest =>
    quote k ++ ':' :: ' ' ::
      (prettyAt depth v ++ ',' :: (newline depth ++ prettyMembers depth rest))

end

/-- The text of a value on one line. -/
def compactText (v : Json) : String :=
  String.ofList v.compact

/-- The text of a value over several lines, indented by two blanks for each level. -/
def prettyText (v : Json) : String :=
  String.ofList (v.prettyAt 0)

end Json

end Ranging
