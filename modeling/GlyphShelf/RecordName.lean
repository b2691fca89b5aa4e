import GlyphShelf.Key
import GlyphShelf.Numeral

/-!
# Record names

Payloads and links of one key lie side by side on a medium, told apart by name:
`20013` holds a payload and `20013.lnk` the link of the same key. Reading a name is
more generous than writing one, because leading zeros are read too; every other name
belongs to someone else.
-/

namespace GlyphShelf

/-- What the name of a record says about it. -/
inductive RecordName
  /-- The glyph filed under a key. -/
  | payload (key : Key)
  /-- The neighbours of a key in the recency ring. -/
  | link (key : Key)
deriving DecidableEq

namespace RecordName

/-- The canonical name: the decimal number of the key, and a suffix for links. -/
def text : RecordName → String
  | payload key => toString key.number
  | link key => toString key.number ++ ".lnk"

def keyOfDigits? (digits : List Char) : Option Key :=
  (Numeral.ofDigitsBelow? 65536 digits).bind Key.ofNumber?

/-- Reads a name: digits alone name a payload, digits and the suffix a link. -/
def ofText? (name : String) : Option RecordName :=
  let digits := name.toList.takeWhile Char.isDigit
  let suffix := name.toList.dropWhile Char.isDigit
  if suffix = [] then (keyOfDigits? digits).map payload
  else if suffix = ".lnk".toList then (keyOfDigits? digits).map link
  else none

def isLink (name : String) : Bool :=
  match ofText? name with
  | some (link _) => true
  | _ => false

/-- The key of a glyph, if the name is read as the name of its payload. -/
def glyph? (name : String) : Option Key :=
  match ofText? name with
  | some (payload key) => if key.IsAnchor then none else some key
  | _ => none

theorem toList_payload (key : Key) :
    (payload key).text.toList = Nat.toDigits 10 key.number := by
  simp [text]

theorem toList_link (key : Key) :
    (link key).text.toList = Nat.toDigits 10 key.number ++ ".lnk".toList := by
  simp [text]

private theorem digits_of_number (key : Key) :
    ∀ c ∈ Nat.toDigits 10 key.number, c.isDigit = true :=
  fun _ h => Nat.isDigit_of_mem_toDigits (by decide) (by decide) h

private theorem keyOfDigits?_number (key : Key) :
    keyOfDigits? (Nat.toDigits 10 key.number) = some key := by
  simp [keyOfDigits?, Numeral.ofDigitsBelow?_eq, Numeral.ofDigits?_toDigits,
    Option.filter, key.number_lt]

/-- A canonical name is read as what it was written for. -/
@[simp] theorem ofText?_text (name : RecordName) : ofText? name.text = some name := by
  cases name with
  | payload key =>
    have before : (Nat.toDigits 10 key.number).takeWhile Char.isDigit =
        Nat.toDigits 10 key.number := by
      have whole : (Nat.toDigits 10 key.number ++ []).takeWhile Char.isDigit = _ :=
        List.takeWhile_append_of_pos (digits_of_number key)
      simpa using whole
    have after : (Nat.toDigits 10 key.number).dropWhile Char.isDigit = [] := by
      have whole : (Nat.toDigits 10 key.number ++ []).dropWhile Char.isDigit = _ :=
        List.dropWhile_append_of_pos (digits_of_number key)
      simpa using whole
    simp only [ofText?, toList_payload, before, after, if_true, keyOfDigits?_number,
      Option.map_some]
  | link key =>
    have before : (Nat.toDigits 10 key.number ++ ".lnk".toList).takeWhile Char.isDigit =
        Nat.toDigits 10 key.number := by
      rw [List.takeWhile_append_of_pos (digits_of_number key)]
      simp
    have after : (Nat.toDigits 10 key.number ++ ".lnk".toList).dropWhile Char.isDigit =
        ".lnk".toList := by
      rw [List.dropWhile_append_of_pos (digits_of_number key)]
      decide
    simp only [ofText?, toList_link, before, after, keyOfDigits?_number, Option.map_some, if_true]
    simp

/-- Different records of the same or of different keys never share a name. -/
theorem text_injective {a b : RecordName} (h : a.text = b.text) : a = b :=
  Option.some.inj (by rw [← ofText?_text a, ← ofText?_text b, h])

end RecordName

end GlyphShelf
