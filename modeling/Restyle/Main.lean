-- SUMMARY: The program on real files.
import Restyle.Command.Run

/-!
# The program

The outermost layer: files of the operating system behind `FileSystem`, and the process itself.
-/

namespace Restyle

namespace FileError

/-- The reason of an error of the operating system. -/
def ofIO : IO.Error → FileError
  | .noFileOrDirectory .. => .notFound
  | .alreadyExists .. => .alreadyExists
  | .inappropriateType _ code _ => if code = 20 then .notDirectory else .isDirectory
  | .invalidArgument _ 36 _ => .nameTooLong
  | e => .other (toString e)

end FileError

/-- An action on real files. -/
def onDisk {α : Type} (action : IO α) : IO (Except FileError α) := do
  match ← action.toBaseIO with
  | .ok result => return .ok result
  | .error e => return .error (FileError.ofIO e)

instance : FileSystem IO where
  read path := do
    match ← onDisk (IO.FS.readBinFile path) with
    | .ok bytes =>
      match String.fromUTF8? bytes with
      | some text => return .ok text
      | none => return .error .notText
    | .error e => return .error e
  write path text := onDisk (IO.FS.writeFile path text)
  makeDirectories path := onDisk (IO.FS.createDirAll path)

end Restyle

/-- Runs the program on the arguments of the process. -/
def main (arguments : List String) : IO UInt32 := do
  let exit ← Restyle.Program.run arguments
  let stdout ← IO.getStdout
  stdout.putStr exit.stdout
  stdout.flush
  return exit.code.toUInt32
