import ScenarioAtlas.Command.Answer
import ScenarioAtlas.Record.Disk

/-!
# The program

The arguments say what to do, and the picture of the disk to do it on comes from standard input.
-/

namespace ScenarioAtlas

set_option autoImplicit false

/-- All that a stream still holds. -/
partial def readAll (stream : IO.FS.Stream) (done : String) : IO String := do
  let line ← stream.getLine
  if line.isEmpty then return done else readAll stream (done ++ line)

end ScenarioAtlas

def main (arguments : List String) : IO UInt32 := do
  match ScenarioAtlas.Disk.ofPicture? (← ScenarioAtlas.readAll (← IO.getStdin) "") with
  | none =>
    IO.eprintln "Error: standard input holds no picture of a disk"
    return 1
  | some disk =>
    let answer := ScenarioAtlas.Command.answer disk arguments
    IO.print answer.text
    match answer with
    | .output _ => return 0
    | .failure reason => IO.eprintln ("Error: " ++ reason.message)
    | .misuse error => IO.eprintln ("error: " ++ error.message)
    return answer.exitCode.toUInt32
