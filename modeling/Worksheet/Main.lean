import Worksheet.Command.Run

namespace Worksheet.Program

/-- The fault that an error of the system stands for. The number of an error is stored negated. -/
def faultOf (e : IO.Error) : FileFault :=
  match e with
  | .noFileOrDirectory .. => .missing
  | .inappropriateType _ number _ =>
    if number + 20 == 0 then .notDirectory else .other (toString e)
  | .invalidArgument _ number _ => if number + 36 == 0 then .tooLong else .other (toString e)
  | _ => .other (toString e)

/-- Reads a directory with all that is in it. -/
partial def entryOf (d : IO.FS.DirEntry) : IO Entry := do
  if ← d.path.isDir then
    let found ← d.path.readDir
    return .directory (← found.toList.mapM fun c => do return (c.fileName, ← entryOf c))
  else return .file

/-- What stands at a path. -/
def find (path : String) : IO (Option Entry) := do
  let d : IO.FS.DirEntry := ⟨path, ""⟩
  if (Path.fault? path).isSome then return none
  else if ← d.root.isDir then return some (← entryOf d)
  else if ← d.root.pathExists then return some .file
  else return none

/-- The text of a file. -/
def read (path : String) : IO (Except FileFault String) := do
  let d : IO.FS.DirEntry := ⟨path, ""⟩
  match Path.fault? path with
  | some fault => return .error fault
  | none =>
    if ← d.root.isDir then return .error .isDirectory
    else
      match ← (IO.FS.readBinFile path).toBaseIO with
      | .error e => return .error (faultOf e)
      | .ok bytes =>
        match String.fromUTF8? bytes with
        | some text => return .ok text
        | none => return .error .notText

/-- The files of the system. -/
def files : Files IO := ⟨find, read⟩

/-- A source of choices that begins anew with every run. -/
def freshSource : IO (Uniform SplitMix) := do
  let bytes ← IO.getRandomBytes 8
  return ⟨⟨bytes.toList.foldl (fun n b => n * 256 + b.toUInt64) 0⟩⟩

end Worksheet.Program

open Worksheet in
def main (words : List String) : IO UInt32 := do
  let printed ← Invocation.run Program.files (← Program.freshSource) words
  for line in printed.output do
    IO.println line
  for line in printed.messages do
    IO.eprintln line
  return printed.exit.toUInt32
