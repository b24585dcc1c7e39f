import Playback.Instant
import Playback.Json.Writer

namespace Playback

inductive Trouble where
  | missing
  | alreadyThere
  | notDirectory
  | isDirectory
  | nameTooLong
  | zeroInName
  | notText
  | other (text : String)
  deriving DecidableEq, Repr

def Trouble.message : Trouble → String
  | missing => "No such file or directory (os error 2)"
  | alreadyThere => "File exists (os error 17)"
  | notDirectory => "Not a directory (os error 20)"
  | isDirectory => "Is a directory (os error 21)"
  | nameTooLong => "File name too long (os error 36)"
  | zeroInName => "file name contained an unexpected NUL byte"
  | notText => "stream did not contain valid UTF-8"
  | other text => text

inductive Output where
  | line (v : Json.Value)
  | summary (v : Json.Value)
  | text (s : String)
  deriving Repr

def Output.render : Output → String
  | line v => v.compact ++ "\n"
  | summary v => v.pretty ++ "\n"
  | text s => s

def joinPath (directory name : String) : String :=
  if directory.endsWith "/" then directory ++ name else directory ++ "/" ++ name

class Host (m : Type → Type) where
  home : m (Option String)
  content : String → m (Except Trouble String)
  isThere : String → m Bool
  makeDirectories : String → m (Except Trouble Unit)
  write : String → String → m (Except Trouble Unit)
  /-- Writes at the end of a file, which is made if it is missing. -/
  extend : String → String → m (Except Trouble Unit)
  readInput : m (Except Trouble String)
  print : Output → m Unit
  /-- Prints a line where it does not mix with what is printed. -/
  complain : String → m Unit
  now : m Instant
  random : m Nat
  pause : Nat → m Unit

end Playback
