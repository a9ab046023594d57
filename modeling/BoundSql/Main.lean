import BoundSql.Command.Program

/-!
# The command line

Runs the program on the files, the environment and the standard streams of the system.
-/
namespace BoundSql

/-- A text, if the bytes are one. -/
def contentOfBytes (bytes : ByteArray) : Content :=
  match String.fromUTF8? bytes with
  | some text => .text text
  | none => .binary

/-- Why a file could not be read. -/
def contentOfError : IO.Error → Content
  | .noFileOrDirectory .. => .missing
  | .permissionDenied .. => .denied
  | .inappropriateType _ code _ => if code = 21 then .directory else .blocked
  | _ => .missing

def readContent (path : String) : IO Content := do
  match ← (IO.FS.readBinFile path).toBaseIO with
  | .ok bytes => return contentOfBytes bytes
  | .error e => return contentOfError e

/-- Reads a stream to its end. -/
partial def readBytes (stream : IO.FS.Stream) (before : ByteArray) : IO ByteArray := do
  let chunk ← stream.read 65536
  if chunk.isEmpty then return before else readBytes stream (before ++ chunk)

def host : Command.Host IO where
  environment name := IO.getEnv name
  contentOf := readContent
  input := do return contentOfBytes (← readBytes (← IO.getStdin) .empty)

end BoundSql

def main (words : List String) : IO UInt32 := do
  let outcome ← BoundSql.host.run words
  IO.print outcome.output
  IO.eprint outcome.errors
  return outcome.code
