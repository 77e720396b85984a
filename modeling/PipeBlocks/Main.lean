import PipeBlocks.Run
import Std.Time.Format

/-! The program on real files, standard input and standard output. -/
namespace PipeBlocks.Main

open Std.Time (DateTime TimeZone Timestamp)

/-- A number with zeros in front. -/
def padded (width n : Nat) : String :=
  let digits := toString n
  "".pushn '0' (width - digits.length) ++ digits

/-- The present time, in UTC and to the microsecond. -/
def now : IO Text := do
  let t := DateTime.ofTimestamp (← Timestamp.now) TimeZone.ZoneRules.UTC
  let date := "-".intercalate
    [padded 4 t.year.toInt.toNat, padded 2 t.month.toNat, padded 2 t.day.toNat]
  let time := ":".intercalate
    [padded 2 t.hour.toNat, padded 2 t.minute.toNat, padded 2 t.second.toNat]
  let micros := padded 6 (t.nanosecond.toNat / 1000)
  return s!"{date}T{time}.{micros}Z".toList

def fileError (e : IO.Error) : FileError :=
  match e with
  | .noFileOrDirectory .. => .notFound
  | .inappropriateType _ code _ =>
    -- some calls give the negated number
    if code = 21 || code = -21 then .isDirectory else .notDirectory
  | e => .other e.toString

/-- Runs an action that fails as operations on files do. -/
def attempt (action : IO α) : IO (Except FileError α) := do
  match ← action.toBaseIO with
  | .ok a => return .ok a
  | .error e => return .error (fileError e)

/-- Reads a stream to its end. -/
partial def readAll (s : IO.FS.Stream) (read : ByteArray) : IO ByteArray := do
  let more ← s.read 65536
  if more.isEmpty then return read else readAll s (read ++ more)

def contentOf (action : IO ByteArray) : IO (Except FileError Text) := do
  return (← attempt action).bind fun b => (Content.ofBytes b).read

instance : Host IO where
  readFile path := contentOf (IO.FS.readBinFile (String.ofList path))
  readInput := contentOf do readAll (← IO.getStdin) .empty
  writeFile path t := attempt (IO.FS.writeFile (String.ofList path) (String.ofList t))
  print t := do (← IO.getStdout).putStr (String.ofList t)
  diagnose d := do
    let text := d.render (← now)
    (← IO.getStderr).putStr (String.ofList text)

end PipeBlocks.Main

def main (args : List String) : IO UInt32 := do
  let setting ← IO.getEnv "RUST_LOG"
  let exit ← PipeBlocks.run (setting.map String.toList) (args.map String.toList)
  if exit = .usage then (← IO.getStderr).putStrLn ""
  return exit.code.toUInt32
