import FrontendAssets.CommandLine.Run

/-!
# `FrontendAssets.Main`: the program in its process

The outer layer of the program: it asks the system what the plan of the program asks, and ends with
the exit code. Errors of the system that a volume has no refusal for end the process; they are no
part of the plan.
-/

set_option autoImplicit false

namespace FrontendAssets.CommandLine

/-- The number of an error, which the system gives with either sign. -/
def errorNumber (code : UInt32) : Nat := min code.toNat (-code).toNat

/-- The refusal that an error of the system stands for. Errors that no refusal stands for, such as a
lack of rights, are none of the model's. -/
def refusalOf? : IO.Error → Option Refusal
  | .noFileOrDirectory .. => some .missing
  | .inappropriateType _ code _ => some (if errorNumber code = 21 then .isFolder else .notFolder)
  | .invalidArgument _ code _ => if errorNumber code = 36 then some .nameTooLong else none
  | _ => none

/-- Do something to a path, unless its text has a null character, which would end it early. The
check is made here because the system would take the part in front of it for the path. -/
def attempt {α : Type} (path : Path) (act : String → IO α) : IO (Except Refusal α) := do
  if path.text.contains '\x00' then return .error .nullCharacter
  match ← (act (String.ofList path.text)).toBaseIO with
  | .ok a => return .ok a
  | .error e =>
    match refusalOf? e with
    | some reason => return .error reason
    | none => throw e

/-- The bytes of a file, or why the system refuses them. -/
def bytesAt (path : String) : IO Bytes := do
  return (← IO.FS.readBinFile path).toList

/-- What a directory holds down to a depth, regular files and folders only. The depth bounds the
recursion, and no path goes deeper than the longest one that the system takes. -/
def treeAt : (depth : Nat) → (path : String) → IO Tree
  | 0, _ => return .empty
  | depth + 1, path => do
    let here ← IO.currentDir
    let entries ← (here / path).readDir
    entries.foldlM (fun tree entry => do
      let name := entry.fileName.toList
      match ← entry.path.metadata.toBaseIO with
      | .error _ => return tree
      | .ok about =>
        if about.type == .dir then
          return .folder name (← treeAt depth entry.path.toString) tree
        else if about.type == .file then
          return .file name (← bytesAt entry.path.toString) tree
        else return tree) .empty

/-- The answers of the system to the queries of the program. This is the one place where something
is done; everything else is a plan. -/
def askSystem : (q : Query) → IO q.Answer
  | .list path => attempt path (treeAt Volume.pathLimit)
  | .read path => attempt path bytesAt
  | .write path content =>
    attempt path fun text => IO.FS.writeBinFile text ⟨content.toArray⟩
  | .print content => do (← IO.getStdout).write ⟨content.toArray⟩
  | .report t => do (← IO.getStderr).putStr (String.ofList t)

/-- Run a plan against the system. A failure is written beside the output and ends the process with
exit code 1. -/
def perform : Steps Nat → IO UInt32
  | .done code => return code.toUInt32
  | .failed failure => do
    (← IO.getStderr).putStrLn (String.ofList failure.message)
    return 1
  | .ask q next => do perform (next (← askSystem q))

end FrontendAssets.CommandLine

/-- Run the program on the arguments of the process. -/
def main (arguments : List String) : IO UInt32 :=
  FrontendAssets.CommandLine.perform
    (FrontendAssets.CommandLine.program (arguments.map String.toList))
