/-
Unwind.Json.Token — the lexical grammar of JSON, as a machine that takes one
character at a time.

A string is kept as its UTF-16 units, since escapes can spell lone surrogates.
Of the numbers only the plain natural ones are kept as values: a sign, a
fraction or an exponent makes a number that is not one of them.
-/

namespace Unwind.Json

/-- A lexical element. -/
inductive Token
  | openList
  | closeList
  | openObject
  | closeObject
  | colon
  | comma
  | null
  | bool (b : Bool)
  /-- Digits alone. -/
  | natural (n : Nat)
  /-- Any other number. -/
  | number
  | string (units : List UInt16)
  deriving DecidableEq

/-! ## Characters -/

/-- The blanks between lexical elements. -/
def isBlank (c : Char) : Bool := c == ' ' || c == '\n' || c == '\t' || c == '\r'

/-- The value of a decimal digit. -/
def digit? (c : Char) : Option Nat :=
  if c.isDigit then some (c.toNat - '0'.toNat) else none

/-- The value of a hexadecimal digit in either letter case. -/
def hexDigit? (c : Char) : Option Nat :=
  if c.isDigit then some (c.toNat - '0'.toNat)
  else if 'a' ≤ c && c ≤ 'f' then some (c.toNat - 'a'.toNat + 10)
  else if 'A' ≤ c && c ≤ 'F' then some (c.toNat - 'A'.toNat + 10)
  else none

/-- The UTF-16 units of a character. -/
def units (c : Char) : List UInt16 :=
  if c.toNat < 0x10000 then [c.toNat.toUInt16]
  else
    let above := c.toNat - 0x10000
    [(0xd800 + above / 0x400).toUInt16, (0xdc00 + above % 0x400).toUInt16]

/-- The unit that a single-character escape stands for. -/
def escaped? : Char → Option UInt16
  | '"' => some 0x22
  | '\\' => some 0x5c
  | '/' => some 0x2f
  | 'b' => some 0x08
  | 'f' => some 0x0c
  | 'n' => some 0x0a
  | 'r' => some 0x0d
  | 't' => some 0x09
  | _ => none

/-! ## The machine -/

/-- Where the machine stands within a number. -/
inductive NumberPhase
  /-- After the sign. -/
  | minus
  /-- After a leading zero. -/
  | zero (negative : Bool)
  | integer (negative : Bool) (n : Nat)
  /-- After the decimal point. -/
  | point
  | fraction
  /-- After the exponent's letter. -/
  | exponentLetter
  /-- After the exponent's sign. -/
  | exponentSign
  | exponent

namespace NumberPhase

/-- The phase after a further character, if the character belongs to the
number. -/
def feed? (phase : NumberPhase) (c : Char) : Option NumberPhase :=
  match phase, digit? c with
  | minus, some 0 => some (zero true)
  | minus, some d => some (integer true d)
  | integer negative n, some d => some (integer negative (10 * n + d))
  | point, some _ | fraction, some _ => some fraction
  | exponentLetter, some _ | exponentSign, some _ | exponent, some _ => some exponent
  | zero _, none | integer .., none =>
    if c == '.' then some point
    else if c == 'e' || c == 'E' then some exponentLetter
    else none
  | fraction, none => if c == 'e' || c == 'E' then some exponentLetter else none
  | exponentLetter, none => if c == '+' || c == '-' then some exponentSign else none
  | _, _ => none

/-- The number that has been read, if it can end here. -/
def token? : NumberPhase → Option Token
  | zero false => some (.natural 0)
  | integer false n => some (.natural n)
  | zero true | integer true _ | fraction | exponent => some .number
  | _ => none

end NumberPhase

/-- Where the machine stands. -/
inductive Position
  /-- Between lexical elements. -/
  | between
  /-- Within a word, these characters of which must follow. -/
  | word (rest : List Char) (token : Token)
  | number (phase : NumberPhase)
  | string (units : Array UInt16)
  /-- After a backslash. -/
  | escape (units : Array UInt16)
  /-- Within the four digits of an escape, so many of which must follow. -/
  | unicode (units : Array UInt16) (missing value : Nat)

/-- The machine: what it has read, and where it stands. -/
structure Lexer where
  tokens : Array Token
  position : Position

namespace Lexer

/-- Nothing has been read. -/
def start : Lexer := ⟨#[], .between⟩

/-- The machine after a lexical element. -/
def emit (tokens : Array Token) (token : Token) : Lexer := ⟨tokens.push token, .between⟩

/-- Takes a character between lexical elements. -/
def begin? (tokens : Array Token) (c : Char) : Option Lexer :=
  if isBlank c then some ⟨tokens, .between⟩
  else match c with
    | '[' => some (emit tokens .openList)
    | ']' => some (emit tokens .closeList)
    | '\x7b' => some (emit tokens .openObject)
    | '\x7d' => some (emit tokens .closeObject)
    | ':' => some (emit tokens .colon)
    | ',' => some (emit tokens .comma)
    | '"' => some ⟨tokens, .string #[]⟩
    | 'n' => some ⟨tokens, .word ['u', 'l', 'l'] .null⟩
    | 't' => some ⟨tokens, .word ['r', 'u', 'e'] (.bool true)⟩
    | 'f' => some ⟨tokens, .word ['a', 'l', 's', 'e'] (.bool false)⟩
    | '-' => some ⟨tokens, .number .minus⟩
    | _ => (digit? c).map fun d =>
      ⟨tokens, .number (if d = 0 then .zero false else .integer false d)⟩

/-- Takes a character within a string. -/
def feedString? (tokens : Array Token) (seen : Array UInt16) (c : Char) : Option Lexer :=
  if c == '"' then some (emit tokens (.string seen.toList))
  else if c == '\\' then some ⟨tokens, .escape seen⟩
  else if c.toNat < 0x20 then none
  else some ⟨tokens, .string (seen ++ (units c).toArray)⟩

/-- Takes a character; refuses one that cannot follow what has been read. -/
def feed? : Lexer → Char → Option Lexer
  | ⟨tokens, .between⟩, c => begin? tokens c
  | ⟨tokens, .word [] token⟩, c => begin? (tokens.push token) c
  | ⟨tokens, .word (expected :: rest) token⟩, c =>
    if c == expected then
      some (if rest.isEmpty then emit tokens token else ⟨tokens, .word rest token⟩)
    else none
  | ⟨tokens, .number phase⟩, c =>
    match phase.feed? c with
    | some phase => some ⟨tokens, .number phase⟩
    | none => phase.token?.bind fun token => begin? (tokens.push token) c
  | ⟨tokens, .string seen⟩, c => feedString? tokens seen c
  | ⟨tokens, .escape seen⟩, c =>
    if c == 'u' then some ⟨tokens, .unicode seen 4 0⟩
    else (escaped? c).map fun unit => ⟨tokens, .string (seen.push unit)⟩
  | ⟨tokens, .unicode seen missing value⟩, c =>
    (hexDigit? c).map fun d =>
      let value := 16 * value + d
      if missing ≤ 1 then ⟨tokens, .string (seen.push value.toUInt16)⟩
      else ⟨tokens, .unicode seen (missing - 1) value⟩

/-- What has been read, if the text can end here. -/
def finish? : Lexer → Option (List Token)
  | ⟨tokens, .between⟩ => some tokens.toList
  | ⟨tokens, .number phase⟩ => phase.token?.map fun token => (tokens.push token).toList
  | _ => none

end Lexer

/-- The lexical elements of a text. -/
def tokens? (text : List Char) : Option (List Token) :=
  (text.foldlM Lexer.feed? Lexer.start).bind Lexer.finish?

end Unwind.Json
