import SchemaModel.Command.Arguments
import SchemaModel.Command.Run
import SchemaModel.Console.Plain
import SchemaModel.Settings.Coerce

/-!
# The program

Reads the files that a run may look at, runs it and prints what it has shown.
-/

namespace SchemaModel

/-- What the file system holds at a place, if anything.  What is there and cannot be read as a
text is taken for a directory. -/
def readNode (names : List String) : IO (Option (List String × FileNode)) := do
  try
    let text ← IO.FS.readFile ("/" ++ "/".intercalate names)
    return some (names, .file text)
  catch
    | .noFileOrDirectory .. => return none
    | _ => return some (names, .directory)

/-- The places that an order may look at: those on the way to a named path, and those where settings
are searched. -/
def Command.Order.consulted (order : Command.Order) (workspace : Workspace) : List (List String) :=
  order.paths.flatMap workspace.passed ++ Workspace.upward Settings.fileName workspace.here

/-- The outcome of running the program with the bound on whole numbers that is set unless another
is asked for, on a terminal without colours. -/
def runPlainly (workspace : Workspace) (arguments : List String) : Command.Outcome :=
  let _ := Platform.standard
  let _ := Console.plainTerminal
  let _ := Settings.lenient
  let _ := Command.usualReader
  Command.run workspace arguments

end SchemaModel

def main (arguments : List String) : IO UInt32 := do
  let current ← IO.currentDir
  let here := (SchemaModel.FilePath.ofText (toString current)).parts
  let bare : SchemaModel.Workspace := { here }
  let order := SchemaModel.Command.readOrder arguments
  let nodes ← (order.consulted bare).filterMapM SchemaModel.readNode
  let outcome := SchemaModel.runPlainly { bare with nodes } arguments
  IO.print outcome.output
  return UInt32.ofNat outcome.exitCode
