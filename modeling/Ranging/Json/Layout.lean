import Ranging.Json.Reader

/-!
# Reading records

A record is written as an object, whose members may come in any order and among unknown ones, or
as an array of its fields in their order. A `Layout` lists the fields, and reading starts from a
value that every field then changes, so that a field which may be missing keeps its default.
-/

namespace Ranging.Json

/-- A field of a record. -/
structure Field (α : Type) where
  name : String
  /-- Reading fails if the field is missing. -/
  isRequired : Bool
  /-- Reads the field's value, and says how it changes the record. -/
  read : Reader (α → α)

namespace Field

/-- A field that must be there. -/
def required {α β : Type} (name : String) (r : Reader β) (assign : β → α → α) : Field α where
  name := name
  isRequired := true
  read := assign <$> r

/-- A field that may be missing. -/
def optional {α β : Type} (name : String) (r : Reader β) (assign : β → α → α) : Field α where
  name := name
  isRequired := false
  read := assign <$> r

end Field

/-- How a record is written. -/
structure Layout (α : Type) where
  start : α
  fields : List (Field α)

namespace Layout

variable {α : Type}

/-- The field with a name. -/
def field? (l : Layout α) (name : String) : Option (Field α) :=
  l.fields.find? (·.name = name)

/-- All required fields are among those that have been read. -/
def isComplete (l : Layout α) (seen : List String) : Bool :=
  l.fields.all fun f => !f.isRequired || seen.contains f.name

/-- Take the member whose name comes next, after its opening quote. A known member may come only
once; an unknown one is passed over. -/
def member (l : Layout α) (value : α) (seen : List String) : Reader (α × List String) := do
  let name ← Reader.stringText
  match l.field? name with
  | some f =>
    if seen.contains name then throw .mismatched
    Reader.punctuation ':'
    let change ← f.read
    return (change value, name :: seen)
  | none =>
    Reader.punctuation ':'
    Reader.skip
    return (value, seen)

/-- Take the members that are left, and the closing bracket. Every member takes a character, so
that the length of the text is enough `fuel`. -/
def members (l : Layout α) (fuel : Nat) (isFirst : Bool) (value : α) (seen : List String) :
    Reader α := do
  match fuel with
  | 0 => throw .truncated
  | fuel + 1 =>
    let c ← Reader.next
    if c = '}' then
      Reader.drop
      if l.isComplete seen then return value else throw .mismatched
    else
      if !isFirst then Reader.punctuation ','
      Reader.punctuation '"'
      let (value, seen) ← l.member value seen
      l.members fuel false value seen

/-- Whether an array has another item. Its comma is taken. -/
def hasItem (isFirst : Bool) : Reader Bool := do
  let c ← Reader.next
  if c = ']' then return false
  if !isFirst then
    Reader.punctuation ','
    if (← Reader.next) = ']' then throw .malformed
  return true

/-- Take the values of fields in their order, as long as there are items. -/
def items (isFirst : Bool) (value : α) : List (Field α) → Reader α
  | [] => return value
  | f :: rest => do
    if ← hasItem isFirst then
      let change ← f.read
      items false (change value) rest
    else if f.isRequired then throw .mismatched
    else items isFirst value rest

/-- Read a record. -/
def read [Conversion] (l : Layout α) : Reader α := do
  match ← Reader.next with
  | '{' =>
    Reader.drop
    l.members ((← get).length + 1) true l.start []
  | '[' =>
    Reader.drop
    let value ← items true l.start l.fields
    Reader.punctuation ']'
    return value
  | c => Reader.refuse c

/-- Read a text that holds nothing but a record. -/
def parse [Conversion] (l : Layout α) (text : String) : Except Failure α := do
  let (value, rest) ← l.read.run text.toList
  if (rest.dropWhile isBlank).isEmpty then return value else throw .malformed

end Layout

end Ranging.Json
