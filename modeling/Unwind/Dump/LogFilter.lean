/-
Unwind.Dump.LogFilter — how log filters are written.

A log filter is a list of directives with commas between them. A directive is
a level alone, or a target, a span in brackets or both of them, with or without
a level behind an equals sign.
-/

namespace Unwind.Dump.LogFilter

/-- A level, by its name in any letter case or by its number. -/
def isLevel (text : List Char) : Bool :=
  ["trace", "debug", "info", "warn", "error", "off", "0", "1", "2", "3", "4", "5"].any fun name =>
    name.toList == text.map Char.toLower

/-- A character of a target's path. -/
def isTargetChar (c : Char) : Bool :=
  c.isAlphanum || c == '_' || c == ':' || c == '-' || 0x80 ≤ c.toNat

/-- What follows a target or a span in brackets, if the text begins with one. -/
def rest? : List Char → Option (List Char)
  | '[' :: text =>
    match text.dropWhile (· != ']') with
    | _ :: rest => some rest
    | [] => none
  | c :: text => if isTargetChar c then some (text.dropWhile isTargetChar) else none
  | [] => none

/-- What may follow a target or a span: nothing, or a level, which may be left out. -/
def isTail : List Char → Bool
  | [] => true
  | '=' :: level => level.isEmpty || isLevel level
  | _ => false

/-- Whether a text is a directive. -/
def isDirective (text : List Char) : Bool :=
  isLevel text || (rest? text).any fun rest => isTail rest || (rest? rest).any isTail

/-- The parts of a text between commas. -/
def parts : List Char → List (List Char)
  | [] => [[]]
  | ',' :: text => [] :: parts text
  | c :: text =>
    match parts text with
    | part :: rest => (c :: part) :: rest
    | [] => [[c]]

/-- A text without the blanks around it. -/
def trim (text : List Char) : List Char :=
  ((text.dropWhile Char.isWhitespace).reverse.dropWhile Char.isWhitespace).reverse

/-- What is wrong with the text of a log filter, if anything is. Empty parts are
passed over. -/
def error? (text : String) : Option String :=
  if (parts text.toList).all fun part => part.isEmpty || isDirective (trim part) then none
  else some "invalid filter directive"

end Unwind.Dump.LogFilter
