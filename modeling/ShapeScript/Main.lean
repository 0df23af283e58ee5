/-
ShapeScript.Main — the command-line program.

The program looks at the files that its command line can touch, lets
`CommandLine.run` decide everything, and then writes what changed and
prints what is to be printed.
-/
import ShapeScript.CommandLine

namespace ShapeScript

open CommandLine

/-- Everything that a stream still gives. -/
partial def readAll (stream : IO.FS.Stream) (before : ByteArray) : IO ByteArray := do
  let more ← stream.read 65536
  if more.isEmpty then return before else readAll stream (before ++ more)

/-- What stands at a path, if anything. -/
def lookAt (path : String) : IO (Option DiskEntry) := do
  let here := (← IO.currentDir) / path
  if ← here.isDir then return some .directory
  if ← here.pathExists then return some (.file (← IO.FS.readBinFile here))
  return none

/-- The entries at some paths, by the places that they lead to. -/
def lookAtAll (paths : List String) : IO (List (String × DiskEntry)) :=
  (paths.filter fun path => (Disk.refusal? path).isNone).filterMapM fun path => do
    return (← lookAt path).map (Disk.placeOf path, ·)

/-- Makes a path hold what the disk has there, if that is new. -/
def putBack (before after : Disk) (path : String) : IO Unit := do
  match before.entry? path, after.entry? path with
  | none, some .directory => IO.FS.createDirAll path
  | some (.file old), some (.file new) => if old.data != new.data then IO.FS.writeBinFile path new
  | none, some (.file new) => IO.FS.writeBinFile path new
  | _, _ => pure ()

/-- A number of nanoseconds as seconds with four places. -/
def secondsText (nanos : Nat) : String :=
  let units := nanos / 100000
  let places := toString (units % 10000)
  toString (units / 10000) ++ "." ++ "".pushn '0' (4 - places.length) ++ places

/-- The name of an error that a run does not handle. -/
def escapeText : Escape → String
  | .disk e => e.description
  | .notText => "The input is not UTF-8"

/-- Runs the program on the words of its command line. -/
def runProgram (words : List String) : IO UInt32 := do
  let started ← IO.monoNanosNow
  let directory := (← IO.currentDir).toString
  let empty : Disk := ⟨directory, []⟩
  let paths := match parse words with
    | .ok r => r.paths empty
    | .error _ => []
  let disk : Disk := ⟨directory, ← lookAtAll paths⟩
  let stdin ← IO.getStdin
  let wantsInput := match parse words with
    | .ok r => r.file.isNone
    | .error _ => false
  let input ←
    if ← pure wantsInput <&&> (do return !(← stdin.isTty)) then
      some <$> readAll stdin ByteArray.empty
    else pure none
  let outcome := run words ⟨disk, input, .builtin⟩
  for path in paths.reverse do putBack disk outcome.disk path
  let elapsed := (← IO.monoNanosNow) - started
  IO.print (outcome.output (secondsText elapsed))
  IO.eprint outcome.err
  match outcome.ending with
  | .exit status => return UInt32.ofNat status
  | .escaped e =>
    IO.eprintln (escapeText e)
    return 1

end ShapeScript

/-- The program. -/
def main (words : List String) : IO UInt32 := ShapeScript.runProgram words
