import BlockPainting.Json.Value

/-!
# Writing JSON

The compact form has no white space. The indented form has each item and each member on a line of
its own. Characters beyond ASCII are written as they are.
-/

namespace BlockPainting.Json.Printer

def hex4 (c : Char) : List Char :=
  let ds := Nat.toDigits 16 c.toNat
  List.replicate (4 - ds.length) '0' ++ ds

def char (c : Char) : List Char :=
  if c = '"' then ['\\', '"']
  else if c = '\\' then ['\\', '\\']
  else if c = '\n' then ['\\', 'n']
  else if c = '\r' then ['\\', 'r']
  else if c = '\t' then ['\\', 't']
  else if c = '\x08' then ['\\', 'b']
  else if c = '\x0c' then ['\\', 'f']
  else if c < ' ' then '\\' :: 'u' :: hex4 c
  else [c]

def quoted (s : String) : String :=
  String.ofList ('"' :: s.toList.flatMap char ++ ['"'])

/-- A number by its digits. The exponent always has a sign. -/
def number (n : NumberText) : String :=
  let sign := if n.negative then ['-'] else []
  let fraction :=
    match n.fraction with
    | none => []
    | some ds => '.' :: ds
  let exponent :=
    match n.exponent with
    | none => []
    | some (down, ds) => 'e' :: (if down then '-' else '+') :: ds
  String.ofList (sign ++ n.whole ++ fraction ++ exponent)

/-- What separates items, given the text between them. -/
def joined (separator : String) (parts : List String) : String :=
  separator.intercalate parts

mutual

def compact : Json → String
  | .null => "null"
  | .bool true => "true"
  | .bool false => "false"
  | .number n => number n
  | .string s => quoted (s.getD "")
  | .array js => "[" ++ joined "," (compactItems js) ++ "]"
  | .object ms => "\x7b" ++ joined "," (compactMembers ms) ++ "\x7d"

def compactItems : List Json → List String
  | [] => []
  | j :: rest => compact j :: compactItems rest

def compactMembers : List (Option String × Json) → List String
  | [] => []
  | (key, j) :: rest => (quoted (key.getD "") ++ ":" ++ compact j) :: compactMembers rest

end

def indent (depth : Nat) : String :=
  String.ofList (List.replicate (2 * depth) ' ')

/-- Brackets around lines, with nothing between them if there are no lines. -/
def block (depth : Nat) (opening closing : String) (parts : List String) : String :=
  if parts = [] then opening ++ closing
  else
    opening ++ "\n" ++ joined ",\n" (parts.map (indent (depth + 1) ++ ·)) ++ "\n" ++ indent depth
      ++ closing

mutual

/-- A value with each item and member on its own line, inside so many brackets. -/
def indented (depth : Nat) : Json → String
  | .array js => block depth "[" "]" (indentedItems (depth + 1) js)
  | .object ms => block depth "\x7b" "\x7d" (indentedMembers (depth + 1) ms)
  | j => compact j

def indentedItems (depth : Nat) : List Json → List String
  | [] => []
  | j :: rest => indented depth j :: indentedItems depth rest

def indentedMembers (depth : Nat) : List (Option String × Json) → List String
  | [] => []
  | (key, j) :: rest =>
    (quoted (key.getD "") ++ ": " ++ indented depth j) :: indentedMembers depth rest

end

end BlockPainting.Json.Printer

namespace BlockPainting.Json

def render (j : Json) : String := Printer.compact j

/-- The value with each item and each member on a line of its own. -/
def renderIndented (j : Json) : String := Printer.indented 0 j

end BlockPainting.Json
