import BlockPainting.Instruction

/-!
# Program text

Each instruction is one line. Metadata is written in comment lines before them, one comment line for
each line of the metadata, and only a program with metadata has a heading.

A line that is read is empty, a comment, or a keyword followed by bracketed groups. White space may
stand around the line, between groups, just inside the brackets and around commas; the keyword may
be in any case, and numbers may have a plus sign and leading zeros.
-/

namespace BlockPainting

/-- What the comment lines of a program tell about it. -/
structure Metadata where
  title : Option String := none
  description : Option String := none
  score : Option String := none
  settings : Option String := none

/-- An instruction as one line, without its end. -/
def Instruction.line : Instruction → String
  | .color block paint => s!"color [{block.text}] {paint.text}"
  | .lineCut block axis position => s!"cut [{block.text}] [{axis.text}] [{position}]"
  | .pointCut block x y => s!"cut [{block.text}] [{x}, {y}]"
  | .merge a b => s!"merge [{a.text}] [{b.text}]"
  | .swap a b => s!"swap [{a.text}] [{b.text}]"

namespace Metadata

/-- One comment line for each line of a text. -/
def comments (label : String) : Option String → List String
  | none => []
  | some text => (Text.lines text.toList).map fun line => label ++ String.ofList line

/-- The first comment line of a program with metadata. -/
def heading : String := "# robopaint"

def lines (m : Metadata) : List String :=
  let given := m.title.isSome || m.description.isSome || m.score.isSome || m.settings.isSome
  (if given then [heading] else [])
    ++ comments "# Source: " m.title
    ++ comments "# " m.description
    ++ comments "# Score: " m.score
    ++ comments "# Config: " m.settings

end Metadata

/-- Program text: the comment lines, then the instructions. -/
def writeProgram (program : List Instruction) (metadata : Metadata) : String :=
  String.join ((metadata.lines ++ program.map Instruction.line).map (· ++ "\n"))

/-- The numbers of an instruction, as messages name them. -/
inductive Quantity where
  | channel
  | offset
  | pointX
  | pointY
  deriving DecidableEq

def Quantity.text : Quantity → String
  | channel => "color channel"
  | offset => "cut offset"
  | pointX => "cut x"
  | pointY => "cut y"

inductive LineError where
  | noBracket (rest : String)
  | unclosed
  | blockId (error : BlockIdError)
  /-- A group is not a number, or too large a number. -/
  | number (quantity : Quantity) (text : String)
  | channels (count : Nat)
  /-- The axis of a line cut is neither `x` nor `y`. -/
  | axis (text : String)
  /-- The point of a point cut has no comma. -/
  | point (text : String)
  | arguments (word : String) (count : Nat)
  | keyword (word : String)
  deriving DecidableEq

/-- A malformed line of a program, counted from one. -/
structure ListingError where
  line : Nat
  reason : LineError
  deriving DecidableEq

namespace LineError

def message : LineError → String
  | noBracket rest => s!"expected '[' at {Text.quote rest}"
  | unclosed => "unterminated '['"
  | blockId error => error.message
  | number quantity text => s!"invalid {quantity.text} {Text.quote text}"
  | channels count => s!"color needs 4 channels, got {count}"
  | axis text => s!"invalid cut axis {Text.quote text}"
  | point text => s!"invalid cut point {Text.quote text}"
  | arguments word count => s!"wrong number of arguments for {Text.quote word}: {count}"
  | keyword word => s!"unknown instruction {Text.quote word}"

end LineError

def ListingError.message (e : ListingError) : String :=
  s!"line {e.line}: {e.reason.message}"

namespace Listing

open Text

def textOf (cs : List Char) : String := String.ofList cs

theorem splitOnce_length {p : Char → Bool} {cs before after : List Char}
    (h : splitOnce p cs = some (before, after)) : after.length < cs.length := by
  induction cs generalizing before after with
  | nil => simp [splitOnce] at h
  | cons c rest ih =>
    unfold splitOnce at h
    split at h
    · cases h; simp
    · cases hs : splitOnce p rest with
      | none => simp [hs] at h
      | some pair =>
        obtain ⟨b, a⟩ := pair
        simp only [hs, Option.map_some, Option.some.injEq, Prod.mk.injEq] at h
        have := ih hs
        rw [List.length_cons, ← h.2]
        omega

theorem trimStart_length (cs : List Char) : (trimStart cs).length ≤ cs.length := by
  unfold trimStart
  induction cs with
  | nil => simp
  | cons c rest ih =>
    simp only [List.dropWhile_cons]
    split <;> simp only [List.length_cons] <;> omega

/-- The bracketed groups of a text without white space in front, each trimmed. -/
def groupsFrom (cs : List Char) : Except LineError (List (List Char)) :=
  match cs with
  | [] => .ok []
  | '[' :: body =>
    match _h : splitOnce (· == ']') body with
    | none => .error .unclosed
    | some (group, rest) => do
      let groups ← groupsFrom (trimStart rest)
      return trim group :: groups
  | cs => .error (.noBracket (textOf cs))
termination_by cs.length
decreasing_by
  have := splitOnce_length _h
  have := trimStart_length rest
  simp only [List.length_cons]
  omega

def groups (cs : List Char) : Except LineError (List (List Char)) :=
  groupsFrom (trimStart cs)

def block (cs : List Char) : Except LineError BlockId :=
  match BlockId.read? cs with
  | some id => .ok id
  | none => .error (.blockId ⟨textOf cs⟩)

/-- A number up to `limit`, with white space around it. -/
def number (quantity : Quantity) (limit : Nat) (cs : List Char) : Except LineError Nat :=
  match readNumeral limit (trim cs) with
  | some n => .ok n
  | none => .error (.number quantity (textOf cs))

def paint (cs : List Char) : Except LineError Color := do
  match ← (fields ',' cs).mapM (number .channel 255) with
  | [r, g, b, a] => return ⟨r.toUInt8, g.toUInt8, b.toUInt8, a.toUInt8⟩
  | channels => throw (.channels channels.length)

def axis (cs : List Char) : Except LineError Axis :=
  match cs with
  | ['x'] | ['X'] => .ok .x
  | ['y'] | ['Y'] => .ok .y
  | cs => .error (.axis (textOf cs))

inductive Keyword where
  | color
  | cut
  | merge
  | swap
  deriving DecidableEq

def Keyword.read? (cs : List Char) : Option Keyword :=
  match String.ofList (cs.map Char.toLower) with
  | "color" => some .color
  | "cut" => some .cut
  | "merge" => some .merge
  | "swap" => some .swap
  | _ => none

/-- The keyword of a line and what follows the white space after it. -/
def splitKeyword (line : List Char) : List Char × List Char :=
  (splitOnce isBlank line).getD (line, [])

/-- Reads a trimmed line that is neither empty nor a comment. -/
def instruction (line : List Char) : Except LineError Instruction := do
  let (keyword, rest) := splitKeyword line
  let args ← groups rest
  match Keyword.read? keyword, args with
  | some .color, [id, c] =>
    let id ← block id
    let c ← paint c
    return .color id c
  | some .cut, [id, a, position] =>
    let a ← axis a
    let id ← block id
    let position ← number .offset maxCoordinate position
    return .lineCut id a position
  | some .cut, [id, point] =>
    match splitOnce (· == ',') point with
    | none => throw (.point (textOf point))
    | some (x, y) =>
      let id ← block id
      let x ← number .pointX maxCoordinate x
      let y ← number .pointY maxCoordinate y
      return .pointCut id x y
  | some .merge, [a, b] =>
    let a ← block a
    let b ← block b
    return .merge a b
  | some .swap, [a, b] =>
    let a ← block a
    let b ← block b
    return .swap a b
  | some _, args => throw (.arguments (textOf keyword) args.length)
  | none, _ => throw (.keyword (textOf keyword))

/-- Whether a trimmed line says nothing. -/
def isSkipped (line : List Char) : Bool :=
  match line with
  | [] => true
  | c :: _ => c == '#'

/-- Reads lines, the first of which has the given number. -/
def instructions (first : Nat) : List (List Char) → Except ListingError (List Instruction)
  | [] => .ok []
  | line :: more =>
    let trimmed := trim line
    if isSkipped trimmed then instructions (first + 1) more
    else
      match instruction trimmed with
      | .error reason => .error ⟨first, reason⟩
      | .ok i => do
        let rest ← instructions (first + 1) more
        return i :: rest

end Listing

/-- Reads program text; the first malformed line is reported. -/
def readProgram (text : String) : Except ListingError (List Instruction) :=
  Listing.instructions 1 (Text.lines text.toList)

end BlockPainting
