import SchemaModel.Workspace

/-!
# Orders

What the arguments of a command line come down to: a command on files with its options, help or the
version, or nothing that is understood.
-/

namespace SchemaModel.Command

structure Request where
  format : String
  settings : Option String
  deriving DecidableEq, Inhabited

inductive Order where
  | usage
  | help
  | version
  | resolve (request : Request) (schema : FilePath)
  | validate (request : Request) (schema data : FilePath)
  deriving DecidableEq, Inhabited

/-- What reads the arguments of a command line. -/
class ArgumentReader where
  read : List String → Order

def Order.paths : Order → List FilePath
  | .resolve request schema => schema :: request.settings.toList.map FilePath.ofText
  | .validate request schema data =>
    schema :: data :: request.settings.toList.map FilePath.ofText
  | _ => []

end SchemaModel.Command
