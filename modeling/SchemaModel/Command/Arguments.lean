import SchemaModel.Command.Order

/-!
# Command line arguments

Options are written `--name value`, `--name=value`, `-n value` or `-nvalue`, and several short
flags may share one dash.  Two dashes alone end the options.  Of several values of an option the
last holds.
-/

namespace SchemaModel.Command

/-- An option: its name, how it is written, and whether it takes a value. -/
structure OptionSpec where
  name : String
  long : String
  short : Option Char := none
  takesValue : Bool := true
  deriving DecidableEq, Inhabited

/-- What was given: options with their values, in order, and the other arguments. -/
structure Given where
  options : List (String × Option String) := []
  positional : List String := []
  deriving DecidableEq, Inhabited

/-- How far an argument with options determines what they are. -/
inductive Reading where
  | complete (options : List (String × Option String))
  | pending (options : List (String × Option String)) (name : String)
  deriving DecidableEq, Inhabited

/-- The short options in a run of characters after a dash.  An option that takes a value takes the
rest of the run. -/
def readShort? (specs : List OptionSpec) : List Char → Option Reading
  | [] => some (.complete [])
  | c :: rest =>
    match specs.find? fun spec => spec.short = some c with
    | none => none
    | some spec =>
      if spec.takesValue then
        if rest.isEmpty then some (.pending [] spec.name)
        else some (.complete [(spec.name, some (String.ofList rest))])
      else
        match readShort? specs rest with
        | none => none
        | some (.complete options) => some (.complete ((spec.name, none) :: options))
        | some (.pending options name) => some (.pending ((spec.name, none) :: options) name)

def readLong? (specs : List OptionSpec) (text : List Char) : Option Reading :=
  let word := String.ofList (text.takeWhile (· ≠ '='))
  match specs.find? fun spec => spec.long = word, text.dropWhile (· ≠ '=') with
  | none, _ => none
  | some spec, [] =>
    if spec.takesValue then some (.pending [] spec.name) else some (.complete [(spec.name, none)])
  | some spec, _ :: value =>
    if spec.takesValue then some (.complete [(spec.name, some (String.ofList value))]) else none

def readOption? (specs : List OptionSpec) (text : List Char) : Option Reading :=
  match text with
  | '-' :: '-' :: _ => readLong? specs text
  | _ :: rest => readShort? specs rest
  | [] => none

/-- The given arguments after those already read; `none` for a usage error.  Unless options may
follow other arguments, the first argument that is no option ends them. -/
def readArguments? (specs : List OptionSpec) (interspersed : Bool) (given : Given) :
    List String → Option Given
  | [] => some given
  | argument :: rest =>
    if argument = "--" then some { given with positional := given.positional ++ rest }
    else if argument.toList.head? = some '-' ∧ 1 < argument.length then
      match readOption? specs argument.toList with
      | none => none
      | some (.complete options) =>
        readArguments? specs interspersed { given with options := given.options ++ options } rest
      | some (.pending options name) =>
        match rest with
        | [] => none
        | value :: rest =>
          readArguments? specs interspersed
            { given with options := given.options ++ options ++ [(name, some value)] } rest
    else if interspersed then
      readArguments? specs interspersed
        { given with positional := given.positional ++ [argument] } rest
    else some { given with positional := given.positional ++ argument :: rest }

namespace Given

def has (given : Given) (name : String) : Bool :=
  given.options.any fun option => option.1 = name

def value? (given : Given) (name : String) : Option String :=
  (given.options.reverse.lookup name).join

end Given

def mainOptions : List OptionSpec :=
  [{ name := "version", long := "--version", short := some 'v', takesValue := false },
   { name := "help", long := "--help", takesValue := false }]

def commandOptions : List OptionSpec :=
  [{ name := "format", long := "--format", short := some 'f' },
   { name := "config", long := "--config", short := some 'c' },
   { name := "help", long := "--help", takesValue := false }]

def readPath? (text : String) : Option FilePath :=
  if FilePath.isNameable text then some (FilePath.ofText text) else none

def readRequest? (given : Given) (format : String) : Option Request := do
  let settings := given.value? "config"
  let _ ← settings.toList.mapM readPath?
  some ⟨(given.value? "format").getD format, settings⟩

def readCommand (arguments : List String) (order? : Given → Option Order) : Order :=
  match readArguments? commandOptions true {} arguments with
  | none => .usage
  | some given => if given.has "help" then .help else (order? given).getD .usage

def resolveOrder? (given : Given) : Option Order :=
  match given.positional with
  | [schema] => do some (.resolve (← readRequest? given "json") (← readPath? schema))
  | _ => none

def validateOrder? (given : Given) : Option Order :=
  match given.positional with
  | [schema, data] => do
    some (.validate (← readRequest? given "table") (← readPath? schema) (← readPath? data))
  | _ => none

def readMain (arguments : List String) : Except Order (List String) :=
  match readArguments? mainOptions false {} arguments with
  | none => .error .usage
  | some given =>
    if given.has "help" then .error .help
    else if given.has "version" then .error .version
    else .ok given.positional

/-- The order of a command by its name.  A name that is no command may still be an option behind
two dashes. -/
def readNamed (name : String) (arguments : List String) : Order :=
  if name = "resolve" then readCommand arguments resolveOrder?
  else if name = "validate" then readCommand arguments validateOrder?
  else
    match readMain (name :: arguments) with
    | .error order => order
    | .ok _ => .usage

def readOrder (arguments : List String) : Order :=
  match readMain arguments with
  | .error order => order
  | .ok [] => .usage
  | .ok (name :: rest) => readNamed name rest

@[reducible] def usualReader : ArgumentReader where
  read := readOrder

end SchemaModel.Command
