import Ranging.Text.CaseTable

/-!
# Lower case

The full lower-case mapping of the Unicode standard. All characters but two map by themselves: the
dotted capital I becomes two characters, and a capital sigma becomes a final sigma at the end of a
word.
-/

namespace Ranging.Text

/-- The number of a character lies in one of the ranges. -/
def inRanges (ranges : List (Nat × Nat)) (c : Char) : Bool :=
  ranges.any fun (first, last) => first ≤ c.toNat && c.toNat ≤ last

/-- The character is passed over when the end of a word is looked for. -/
def isIgnorable (c : Char) : Bool :=
  inRanges ignorableRanges c

/-- The first character that is not passed over has a case. -/
def startsCased (text : List Char) : Bool :=
  match text.dropWhile isIgnorable with
  | c :: _ => inRanges casedRanges c
  | [] => false

/-- The lower-case form of a character, wherever it stands. -/
def lowerChar (c : Char) : Char :=
  match lowerRanges.find? (·.contains c.toNat) with
  | some r => Char.ofNat (c.toNat + r.offset).toNat
  | none => c

/-- Lower case of the rest of a text. `before` is what has gone before, the nearest first. -/
def lowerAfter (before : List Char) : List Char → List Char
  | [] => []
  | c :: rest =>
    let lower :=
      if c = 'Σ' then
        if startsCased before && !startsCased rest then ['ς'] else ['σ']
      else if c = 'İ' then ['i', '\u0307']
      else [lowerChar c]
    lower ++ lowerAfter (c :: before) rest

/-- A text in lower case. -/
def lowercase (text : String) : String :=
  String.ofList (lowerAfter [] text.toList)

end Ranging.Text
