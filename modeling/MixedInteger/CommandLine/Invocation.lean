import MixedInteger.Settings

/-!
What a command line asks for. Words that start with a hyphen are options; long ones
take their value after an equals sign or from the next word. Every option but the
verbosity may be given once, and exactly one word names the model. After `--` every
word is taken as it stands.
-/
namespace MixedInteger.CommandLine

/-- The solver that a model is handed to. -/
inductive EngineChoice where
  | inProcess
  | external
  deriving DecidableEq

/-- The engine with a given option name. -/
def EngineChoice.ofName? : String → Option EngineChoice
  | "in-process" => some inProcess
  | "good-lp" => some external
  | _ => none

/-- What a run is asked to do. -/
structure Request where
  engine : EngineChoice := .inProcess
  settings : Settings := {}
  /-- Whether the value of every column is printed. -/
  printSolution : Bool := false
  /-- How often more detail was asked for. -/
  verbosity : Nat := 0

/-- A command line, read. -/
structure Invocation where
  /-- The path of the model. -/
  model : String
  request : Request

/-- Why a command line is not carried out. -/
inductive Misuse where
  | unknownOption (word : String)
  | unexpectedValue (name : String)
  | missingValue (name : String)
  | invalidValue (name value : String)
  | repeated (name : String)
  | surplusWord (word : String)
  | emptyModel
  | missingModel
  /-- The usage text was asked for. -/
  | help
  deriving DecidableEq

def Misuse.message : Misuse → String
  | unknownOption word => "unknown option " ++ word
  | unexpectedValue name => "option --" ++ name ++ " takes no value"
  | missingValue name => "option --" ++ name ++ " needs a value"
  | invalidValue name value => "invalid value " ++ value ++ " for option --" ++ name
  | repeated name => "option --" ++ name ++ " is given twice"
  | surplusWord word => "unexpected word " ++ word
  | emptyModel => "the path of the model is empty"
  | missingModel => "no model is given"
  | help => "usage: milp [OPTIONS] MODEL"

/-! ### Words -/

/-- The kinds of words on a command line. -/
inductive Word where
  /-- Everything after it is an operand. -/
  | separator
  /-- A long option, with the value attached to it. -/
  | long (name : String) (value : Option String)
  /-- A group of short options. -/
  | shorts (letters : List Char)
  | operand
  deriving DecidableEq

/-- Tell the kind of a word; a single hyphen is an operand. -/
def Word.ofString (text : String) : Word :=
  match text.toList with
  | ['-', '-'] => .separator
  | '-' :: '-' :: body =>
    let name := String.ofList (body.takeWhile (· ≠ '='))
    match body.dropWhile (· ≠ '=') with
    | [] => .long name none
    | _ :: value => .long name (some (String.ofList value))
  | ['-'] => .operand
  | '-' :: letters => .shorts letters
  | _ => .operand

/-! ### Options -/

namespace Request

/-- The request with other settings. -/
def withSettings (request : Request) (change : Settings → Settings) : Request :=
  { request with settings := change request.settings }

/-- Carry out an option without a value; `none` for any other name. -/
def switch? (request : Request) : String → Option Request
  | "no-heuristic" => some (request.withSettings fun settings => { settings with heuristic := false })
  | "print-solution" => some { request with printSolution := true }
  | "verbose" => some
    { request with
      settings := { request.settings with verbose := true }, verbosity := request.verbosity + 1 }
  | _ => none

/-- Carry out an option with a value: `none` for any other name, and an inner `none`
for a value that the option does not have. -/
def assign? (request : Request) (name value : String) : Option (Option Request) :=
  let setting {β : Type} (parsed : Option β) (change : β → Settings → Settings) :
      Option (Option Request) := some (parsed.map fun it => request.withSettings (change it))
  match name with
  | "backend" => some ((EngineChoice.ofName? value).map fun engine => { request with engine })
  | "precision" => setting (Precision.ofName? value) fun it settings =>
    { settings with precision := it }
  | "presolve" => setting (PresolveLevel.ofName? value) fun it settings =>
    { settings with presolve := it }
  | "selection" => setting (NodeSelection.ofName? value) fun it settings =>
    { settings with selection := it }
  | "rule" => setting (BranchingRule.ofName? value) fun it settings => { settings with rule := it }
  | "gap" => setting (Binary64.read? value) fun it settings => { settings with gapTolerance := it }
  | "time-limit" => setting (Binary64.read? value) fun it settings => settings.withTimeLimit it
  | "max-nodes" => setting (readUInt64? value) fun it settings => { settings with nodeLimit := it }
  | "max-iterations" => setting (readUInt64? value) fun it settings =>
    { settings with iterationLimit := it }
  | "max-depth" => setting (readUInt64? value) fun it settings => { settings with depthLimit := it }
  | "max-cuts" => setting (readUInt64? value) fun it settings => { settings with maxCuts := it }
  | _ => none

/-- Whether an option takes a value. -/
def takesValue (name : String) : Bool := (assign? {} name "").isSome

end Request

/-- A command line read up to some word. -/
structure Reading where
  model : Option String := none
  request : Request := {}
  /-- The options that may not be given again. -/
  seen : List String := []

namespace Reading

/-- Take a word as the path of the model. -/
def operand (reading : Reading) (word : String) : Except Misuse Reading :=
  if reading.model.isSome then .error (.surplusWord word)
  else if word.isEmpty then .error .emptyModel
  else .ok { reading with model := some word }

/-- Mark an option as given; only the verbosity may be repeated. -/
def mark (reading : Reading) (name : String) : Except Misuse Reading :=
  if name = "verbose" then .ok reading
  else if reading.seen.contains name then .error (.repeated name)
  else .ok { reading with seen := name :: reading.seen }

/-- Take an option without a value. -/
def switch (reading : Reading) (name : String) : Except Misuse Reading := do
  if name = "help" then throw .help
  match reading.request.switch? name with
  | none => throw (.unknownOption ("--" ++ name))
  | some request => return { ← reading.mark name with request }

/-- Take an option with its value. -/
def assign (reading : Reading) (name value : String) : Except Misuse Reading := do
  match reading.request.assign? name value with
  | none =>
    throw (if name = "help" ∨ (reading.request.switch? name).isSome then .unexpectedValue name
      else .unknownOption ("--" ++ name))
  | some none => throw (.invalidValue name value)
  | some (some request) => return { ← reading.mark name with request }

/-- Take one letter of a group of short options. -/
def short (reading : Reading) (letter : Char) : Except Misuse Reading :=
  match letter with
  | 'v' => reading.switch "verbose"
  | 'h' => reading.switch "help"
  | other => .error (.unknownOption (String.ofList ['-', other]))

/-- Read words from the left. -/
def words (reading : Reading) : List String → Except Misuse Reading
  | [] => .ok reading
  | word :: rest =>
    match Word.ofString word with
    | .separator => rest.foldlM operand reading
    | .operand => do (← reading.operand word).words rest
    | .shorts letters => do (← letters.foldlM short reading).words rest
    | .long name (some value) => do (← reading.assign name value).words rest
    | .long name none =>
      if Request.takesValue name then
        match rest with
        | [] => .error (.missingValue name)
        | value :: later =>
          if Word.ofString value = .operand then do (← reading.assign name value).words later
          else .error (.missingValue name)
      else do (← reading.switch name).words rest

end Reading

/-- Read a command line. -/
def Invocation.ofWords (words : List String) : Except Misuse Invocation := do
  let reading ← Reading.words {} words
  match reading.model with
  | none => throw .missingModel
  | some model => return { model, request := reading.request }

end MixedInteger.CommandLine
