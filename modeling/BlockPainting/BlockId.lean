import BlockPainting.Number.ExactDouble
import BlockPainting.Text.Quoted
import BlockPainting.Text.Reading

/-!
# Block ids

A block is named by a top-level number followed by the child index of every cut on the way down,
written `3.0.2`. Merges take fresh top-level numbers from a supply that never goes back.
-/

namespace BlockPainting

def maxRoot : Nat := maxWord

/-- The name of a block. -/
structure BlockId where
  root : Nat
  path : List Nat
  deriving DecidableEq, Hashable

structure BlockIdError where
  text : String
  deriving DecidableEq

def BlockIdError.message (e : BlockIdError) : String :=
  s!"invalid block id {Text.quote e.text}"

namespace BlockId

def top (root : Nat) : BlockId := ⟨root, []⟩

def child (id : BlockId) (index : Nat) : BlockId :=
  ⟨id.root, id.path ++ [index]⟩

/-- The descendant reached by the child indices in `relative`. -/
def descend (id : BlockId) (relative : List Nat) : BlockId :=
  ⟨id.root, id.path ++ relative⟩

def withRoot (id : BlockId) (root : Nat) : BlockId :=
  ⟨root, id.path⟩

/-- Ids are ordered by top-level number, then by path. -/
instance : Ord BlockId where
  compare a b := (compare a.root b.root).then (compare a.path b.path)

/-- The id as written, its numbers separated by points. -/
def text (id : BlockId) : String :=
  ".".intercalate (toString id.root :: id.path.map toString)

def readIndex (cs : List Char) : Option Nat :=
  Text.readNumeral 3 cs

/-- Reads an id: a top-level number, then child indices below four, separated by points. -/
def read? (cs : List Char) : Option BlockId :=
  match Text.fields '.' cs with
  | [] => none
  | root :: path => do
    let root ← Text.readNumeral maxRoot root
    let path ← path.mapM readIndex
    return ⟨root, path⟩

/-- Reads an id or reports the text that is none. -/
def parse (s : String) : Except BlockIdError BlockId :=
  match read? s.toList with
  | some id => .ok id
  | none => .error ⟨s⟩

end BlockId

/-- The top-level numbers that are still unused. -/
structure IdSupply where
  /-- The number the next merged block gets, if it is not beyond the largest. -/
  next : Nat
  deriving DecidableEq

namespace IdSupply

def after (largest : Nat) : IdSupply := ⟨largest + 1⟩

/-- Takes the next number, unless all are used up. -/
def take (ids : IdSupply) : Option (BlockId × IdSupply) :=
  if ids.next ≤ maxRoot then some (.top ids.next, ⟨ids.next + 1⟩) else none

end IdSupply

end BlockPainting
