import BlockPainting.CommandLine.Help
import BlockPainting.CommandLine.Path
import BlockPainting.Number.ExactDouble
import BlockPainting.Settings
import BlockPainting.Text.Reading

/-!
# Arguments

Arguments are read from left to right. An option takes its values from the arguments after it, or
one value from behind an equals sign; a value that begins with a dash must be given in the second
way. After `--` there are no more options.

A request is what a command line asks for: a picture, what to do with it, and where the results go.
-/

namespace BlockPainting.CommandLine

inductive Task where
  | solve
  | refine (program : String)
  /-- Run the program in one file after the program in another. -/
  | splice (opening body : String) (bodyStart : Nat)
  deriving DecidableEq

/-- What a command line asks for. Files are named by path. -/
structure Request where
  image : String
  layout : Option String
  settings : Settings
  /-- Settings as a document, which then replace all others. -/
  document : Option String
  task : Task
  output : Option String
  preview : Option String
  runs : Nat
  json : Bool

def Request.title (r : Request) : String :=
  (fileName r.image).getD "bench"

/-- Why no request comes of the arguments. -/
inductive Stop where
  | help (form : HelpForm)
  | version
  | misuse (reason : String)

structure Reading where
  image : Option String := none
  given : List Name := []
  layout : Option String := none
  settings : Settings := {}
  document : Option String := none
  refine : Option String := none
  splice : List String := []
  bodyStart : Nat := 0
  output : Option String := none
  preview : Option String := none
  runs : Nat := 1
  json : Bool := false
  /-- The option whose values come next, and those it has. -/
  pending : Option (Name × List String) := none
  escaped : Bool := false

def readPath (v : String) : Option String :=
  if v = "" then none else some v

/-- A number that may have a sign; only zero may have a minus sign. -/
def readWord (v : String) : Option Nat :=
  match v.toList with
  | '-' :: cs => Text.readDigits 0 cs
  | cs => Text.readNumeral maxWord cs

def readPositive (limit : Nat) (v : String) : Option Nat :=
  (Text.readNumeral limit v.toList).filter (· ≠ 0)

def readSizes (v : String) : Option (List Nat) :=
  (Text.fields ',' v.toList).mapM fun cs => readWord (String.ofList cs)

namespace Reading

def setting {α : Type} (r : Reading) (value : Option α) (change : Settings → α → Settings) :
    Option Reading :=
  value.map fun a => { r with settings := change r.settings a }

/-- The cell sizes after some more were given, which take the place of the default. -/
def addSizes (r : Reading) (sizes : List Nat) : Reading :=
  let before := if .gridSizes ∈ r.given then r.settings.gridCellSizes else []
  { r with settings := { r.settings with gridCellSizes := before ++ sizes } }

def value (r : Reading) (name : Name) (v : String) : Option Reading :=
  match name with
  | .layout => (readPath v).map fun p => { r with layout := some p }
  | .strategy => r.setting (readChoice strategyChoices v) fun s a => { s with strategy := a }
  | .maxDepth => r.setting (readWord v) fun s a => { s with maxDepth := a }
  | .medianEpsilon => r.setting (Text.readReal v.toList) fun s a => { s with medianEpsilon := a }
  | .estimator => r.setting (readChoice estimatorChoices v) fun s a => { s with estimator := a }
  | .quadTreeLevels => r.setting (readPositive maxWord v) fun s a => { s with quadTreeLevels := a }
  | .gridSizes => (readSizes v).map r.addSizes
  | .stripeStep => r.setting (readPositive maxWord v) fun s a => { s with stripeStep := a }
  | .layoutPlan => r.setting (readChoice planChoices v) fun s a => { s with layoutPlan := a }
  | .refineRadius => r.setting (readWord v) fun s a => { s with refineRadius := a }
  | .refineMaxCuts =>
    r.setting (Text.readNumeral maxLong v.toList) fun s a => { s with refineMaxCuts := a }
  | .refine => (readPath v).map fun p => { r with refine := some p }
  | .bodyStart => (readWord v).map fun n => { r with bodyStart := n }
  | .output => (readPath v).map fun p => { r with output := some p }
  | .preview => (readPath v).map fun p => { r with preview := some p }
  | .runs => (readPositive maxLong v).map fun n => { r with runs := n }
  | .settings => some { r with document := some v }
  | _ => none

def values (r : Reading) (name : Name) : List String → Option Reading
  | [] => if name = .json then some { r with json := true } else some r
  | [v] => r.value name v
  | vs => (vs.mapM readPath).map fun ps => { r with splice := r.splice ++ ps }

/-- Takes in an option, which must not have been given before. -/
def accept (r : Reading) (name : Name) (vs : List String) : Except Stop Reading :=
  if name ∈ r.given ∧ ¬ name.repeatable then
    .error (.misuse s!"the argument '--{name.text}' cannot be used multiple times")
  else
    match r.values name vs with
    | none => .error (.misuse s!"invalid value for '--{name.text}'")
    | some next => .ok { next with given := name :: r.given, pending := none }

/-- Takes in an option without a value. The letter asks for the brief help. -/
def flag (r : Reading) (name : Name) (form : HelpForm) : Except Stop Reading :=
  match name with
  | .help => .error (.help form)
  | .version => .error .version
  | _ => r.accept name []

/-- Takes in an argument that belongs to no option. -/
def positional (r : Reading) (word : String) : Except Stop Reading :=
  match r.image, readPath word with
  | none, some path => .ok { r with image := some path }
  | none, none => .error (.misuse "a value is required for '<IMAGE_PATH>'")
  | some _, _ => .error (.misuse s!"unexpected argument '{word}' found")

/-- Takes in an option by name, with the value behind the equals sign if there is one. -/
def long (r : Reading) (name : List Char) (attached : Option (List Char)) : Except Stop Reading :=
  match Name.read? (String.ofList name), attached with
  | none, _ => .error (.misuse s!"unexpected argument '--{String.ofList name}' found")
  | some name, none =>
    if name.arity = 0 then r.flag name .full else .ok { r with pending := some (name, []) }
  | some name, some v =>
    if name.arity = 1 then r.accept name [String.ofList v]
    else .error (.misuse s!"wrong number of values for '--{name.text}'")

def letter (r : Reading) (c : Char) : Except Stop Reading :=
  match Name.ofLetter? c with
  | none => .error (.misuse s!"unexpected argument '-{c}' found")
  | some name => r.flag name .brief

def unfinished (name : Name) : Stop :=
  .misuse s!"a value is required for '--{name.text}' but none was supplied"

def word (r : Reading) (v : String) : Except Stop Reading :=
  match r.pending with
  | none => r.positional v
  | some (name, vs) =>
    let vs := vs ++ [v]
    if vs.length = name.arity then r.accept name vs
    else .ok { r with pending := some (name, vs) }

def next (r : Reading) (argument : String) : Except Stop Reading :=
  if r.escaped then r.positional argument
  else
    match argument.toList, r.pending with
    | '-' :: _ :: _, some (name, _) => .error (unfinished name)
    | ['-', '-'], none => .ok { r with escaped := true }
    | '-' :: '-' :: cs, none =>
      match Text.splitOnce (· == '=') cs with
      | some (name, v) => r.long name (some v)
      | none => r.long cs none
    | '-' :: c :: cs, none => (c :: cs).foldlM letter r
    | _, _ => r.word argument

/-- The task, unless options are given that exclude or require each other. What an option requires
may be missing if another option excludes it. -/
def task (r : Reading) : Except Stop Task :=
  if r.refine.isSome ∧ r.splice ≠ [] then
    .error (.misuse "the argument '--refine' cannot be used with '--splice'")
  else if .bodyStart ∈ r.given ∧ r.splice = [] ∧ r.refine = none then
    .error (.misuse "the argument '--body-start' requires '--splice'")
  else
    match r.refine, r.splice with
    | some program, _ => .ok (.refine program)
    | none, [opening, body] => .ok (.splice opening body r.bodyStart)
    | none, _ => .ok .solve

/-- The request, once all arguments are read. -/
def finish (r : Reading) : Except Stop Request :=
  match r.pending, r.image with
  | some (name, _), _ => .error (unfinished name)
  | none, none => .error (.misuse "the argument '<IMAGE_PATH>' was not provided")
  | none, some image => do
    let task ← r.task
    return {
      image
      layout := r.layout
      settings := r.settings
      document := r.document
      task
      output := r.output
      preview := r.preview
      runs := r.runs
      json := r.json }

end Reading

def Request.ofArguments (arguments : List String) : Except Stop Request := do
  let r ← arguments.foldlM Reading.next {}
  r.finish

end BlockPainting.CommandLine
