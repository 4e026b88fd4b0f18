/-
Unwind.Json.Value — the structure of JSON texts, as a machine that takes one
lexical element at a time.

The brackets that are open are kept as a stack, so texts may nest to any
depth.
-/
import Unwind.Json.Token

namespace Unwind.Json

/-- A JSON value. An object keeps its members in order, repeated keys too. -/
inductive Value
  | null
  | bool (b : Bool)
  /-- A number written with digits alone. -/
  | natural (n : Nat)
  /-- Any other number. -/
  | number
  | string (units : List UInt16)
  | list (items : List Value)
  | object (members : List (List UInt16 × Value))

/-- The value that is a single lexical element. -/
def Token.value? : Token → Option Value
  | null => some .null
  | bool b => some (.bool b)
  | natural n => some (.natural n)
  | number => some .number
  | string units => some (.string units)
  | _ => none

/-- A bracket that is open, with what stands behind it, the latest first. -/
inductive Bracket
  | list (items : List Value)
  /-- An object, the value of whose last key is outstanding. -/
  | object (members : List (List UInt16 × Value)) (key : List UInt16)

/-- What may follow. -/
inductive Reader
  /-- A value must follow. -/
  | value (brackets : List Bracket)
  /-- A first item of a list, or its end. -/
  | firstItem (outer : List Bracket)
  /-- A first key of an object, or its end. -/
  | firstKey (outer : List Bracket)
  /-- A further key of an object. -/
  | key (members : List (List UInt16 × Value)) (outer : List Bracket)
  /-- The colon after a key. -/
  | colon (members : List (List UInt16 × Value)) (key : List UInt16) (outer : List Bracket)
  /-- A comma, or the end of a list. -/
  | moreItems (items : List Value) (outer : List Bracket)
  /-- A comma, or the end of an object. -/
  | moreMembers (members : List (List UInt16 × Value)) (outer : List Bracket)
  /-- Nothing. -/
  | complete (value : Value)

namespace Reader

/-- A value has been read. -/
def deliver (v : Value) : List Bracket → Reader
  | [] => complete v
  | .list items :: outer => moreItems (v :: items) outer
  | .object members name :: outer => moreMembers ((name, v) :: members) outer

/-- Takes the first lexical element of a value. -/
def begin? (brackets : List Bracket) : Token → Option Reader
  | .openList => some (firstItem brackets)
  | .openObject => some (firstKey brackets)
  | token => token.value?.map fun v => deliver v brackets

/-- Takes a lexical element; refuses one that cannot follow. -/
def feed? : Reader → Token → Option Reader
  | value brackets, token => begin? brackets token
  | firstItem outer, .closeList => some (deliver (.list []) outer)
  | firstItem outer, token => begin? (.list [] :: outer) token
  | firstKey outer, .closeObject => some (deliver (.object []) outer)
  | firstKey outer, .string name => some (colon [] name outer)
  | key members outer, .string name => some (colon members name outer)
  | colon members name outer, .colon => some (value (.object members name :: outer))
  | moreItems items outer, .comma => some (value (.list items :: outer))
  | moreItems items outer, .closeList => some (deliver (.list items.reverse) outer)
  | moreMembers members outer, .comma => some (key members outer)
  | moreMembers members outer, .closeObject => some (deliver (.object members.reverse) outer)
  | _, _ => none

/-- The value that has been read, if it is complete. -/
def finish? : Reader → Option Value
  | complete v => some v
  | _ => none

end Reader

/-- The value of a JSON text. -/
def Value.parse? (text : String) : Option Value := do
  let tokens ← tokens? text.toList
  let reader ← tokens.foldlM Reader.feed? (.value [])
  reader.finish?

/-- Whether every surrogate among UTF-16 units is one of a pair. -/
def isPaired : List UInt16 → Bool
  | [] => true
  | [u] => u &&& 0xf800 != 0xd800
  | u :: v :: rest =>
    if u &&& 0xf800 != 0xd800 then isPaired (v :: rest)
    else u &&& 0xfc00 == 0xd800 && v &&& 0xfc00 == 0xdc00 && isPaired rest

end Unwind.Json
