import Playback.Command.Basic
import Std.Time.DateTime.Timestamp

namespace Playback

/-- Some calls give the number of an error negated. -/
def errorNumber (code : UInt32) : UInt32 := min code (0 - code)

def Trouble.ofError (e : IO.Error) : Trouble :=
  match e with
  | .noFileOrDirectory .. => .missing
  | .alreadyExists .. => .alreadyThere
  | .invalidArgument _ code _ | .inappropriateType _ code _ =>
    match errorNumber code with
    | 20 => .notDirectory
    | 21 => .isDirectory
    | 36 => .nameTooLong
    | _ => .other (toString e)
  | e => .other (toString e)

def attempt (action : IO α) : IO (Except Trouble α) := do
  try return .ok (← action)
  catch e => return .error (.ofError e)

def textOf (bytes : ByteArray) : Except Trouble String :=
  match String.fromUTF8? bytes with
  | some text => .ok text
  | none => .error .notText

partial def readAll (stream : IO.FS.Stream) (sofar : ByteArray) : IO ByteArray := do
  let chunk ← stream.read 65536
  if chunk.isEmpty then return sofar else readAll stream (sofar ++ chunk)

instance : Host IO where
  home := IO.getEnv "HOME"
  content path := return (← attempt (IO.FS.readBinFile path)).bind textOf
  isThere path := return (← attempt (IO.FS.Handle.mk path .read)).isOk
  makeDirectories path := attempt (IO.FS.createDirAll path)
  write path text := attempt (IO.FS.writeFile path text)
  extend path text := attempt do (← IO.FS.Handle.mk path .append).putStr text
  readInput := return (← attempt do readAll (← IO.getStdin) .empty).bind textOf
  print output := do
    let out ← IO.getStdout
    out.putStr output.render
    out.flush
  complain line := do (← IO.getStderr).putStrLn line
  now := do
    let time ← Std.Time.Timestamp.now
    let nanos := time.toNanosecondsSinceUnixEpoch.val
    return ⟨nanos / 1000000000, (nanos % 1000000000).toNat⟩
  random := return (← IO.getRandomBytes 15).toList.foldl (fun n b => 256 * n + b.toNat) 0
  pause ms := IO.sleep (UInt32.ofNat (min ms 4294967295))

end Playback

def main (words : List String) : IO UInt32 := return (← Playback.Command.run words).toUInt32
