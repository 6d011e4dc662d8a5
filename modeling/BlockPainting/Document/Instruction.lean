import BlockPainting.BlockId
import BlockPainting.Color
import BlockPainting.Instruction
import BlockPainting.Json.Decode
import BlockPainting.Number.ExactDouble
import BlockPainting.Rect

/-!
# Instructions in JSON documents

A color is an array of four channels, an id its text, an axis a capital letter. An instruction is an
object with one member, whose key is the kind.
-/

namespace BlockPainting

namespace Color

def toJson (c : Color) : Json :=
  .array [.nat c.red.toNat, .nat c.green.toNat, .nat c.blue.toNat, .nat c.alpha.toNat]

def channel? (j : Json) : Option UInt8 :=
  (j.nat? 255).map Nat.toUInt8

def ofJson? : Json → Option Color
  | .array [r, g, b, a] => do
    let r ← channel? r
    let g ← channel? g
    let b ← channel? b
    let a ← channel? a
    return ⟨r, g, b, a⟩
  | _ => none

end Color

namespace BlockId

def toJson (id : BlockId) : Json := .text id.text

def ofJson? (j : Json) : Option BlockId := do
  let s ← j.text?
  read? s.toList

end BlockId

namespace Axis

def toJson : Axis → Json
  | x => .text "X"
  | y => .text "Y"

def ofJson? (j : Json) : Option Axis := do
  match ← j.name? with
  | "X" => return x
  | "Y" => return y
  | _ => none

end Axis

namespace Instruction

def toJson : Instruction → Json
  | color block paint =>
    .record [("Color", .record [("block", block.toJson), ("color", paint.toJson)])]
  | lineCut block axis position =>
    .record [("LineCut",
      .record [("block", block.toJson), ("axis", axis.toJson), ("at", .nat position)])]
  | pointCut block x y =>
    .record [("PointCut", .record [("block", block.toJson), ("x", .nat x), ("y", .nat y)])]
  | merge a b => .record [("Merge", .record [("a", a.toJson), ("b", b.toJson)])]
  | swap a b => .record [("Swap", .record [("a", a.toJson), ("b", b.toJson)])]

/-- Reads the operands of an instruction of some kind. -/
def ofRecord? (kind : String) (j : Json) : Option Instruction :=
  match kind with
  | "Color" => do
    let r ← j.record? ["block", "color"]
    let block ← r.required 0 BlockId.ofJson?
    let paint ← r.required 1 Color.ofJson?
    return color block paint
  | "LineCut" => do
    let r ← j.record? ["block", "axis", "at"]
    let block ← r.required 0 BlockId.ofJson?
    let axis ← r.required 1 Axis.ofJson?
    let position ← r.required 2 (Json.nat? maxWord)
    return lineCut block axis position
  | "PointCut" => do
    let r ← j.record? ["block", "x", "y"]
    let block ← r.required 0 BlockId.ofJson?
    let x ← r.required 1 (Json.nat? maxWord)
    let y ← r.required 2 (Json.nat? maxWord)
    return pointCut block x y
  | "Merge" => do
    let r ← j.record? ["a", "b"]
    let a ← r.required 0 BlockId.ofJson?
    let b ← r.required 1 BlockId.ofJson?
    return merge a b
  | "Swap" => do
    let r ← j.record? ["a", "b"]
    let a ← r.required 0 BlockId.ofJson?
    let b ← r.required 1 BlockId.ofJson?
    return swap a b
  | _ => none

def ofJson? : Json → Option Instruction
  | .object [(some kind, j)] => ofRecord? kind j
  | _ => none

end Instruction

end BlockPainting
