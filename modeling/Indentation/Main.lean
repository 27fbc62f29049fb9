import Indentation.Command.Run

/-! The program. The files that the options name are read into a store, the command runs on it,
and what it changed is written back. -/
namespace Indentation.Command

def probe (files : List (Text × ByteArray)) (directories : List Text) (path : Text) :
    IO (List (Text × ByteArray) × List Text) := do
  try
    let bytes ← IO.FS.readBinFile (String.ofList path)
    return ((path, bytes) :: files, directories)
  catch e =>
    match e with
    | .inappropriateType .. => return (files, path :: directories)
    | _ => return (files, directories)

def parent (path : Text) : Text :=
  match (path.reverse.dropWhile (· != '/')).reverse with
  | [] => ['.']
  | dir => dir

def surroundings (o : Options) : IO Store := do
  let paths := [o.file, o.target, parent o.target]
  let (files, directories) ← paths.foldlM (fun (fs, ds) path => probe fs ds path) ([], [])
  return .ofEntries files directories

def writeBack (before after : Store) : IO Unit :=
  for (place, bytes) in after.files do
    unless before.file? place == some bytes do
      IO.FS.writeBinFile (String.ofList (Store.pathOf place)) bytes

def perform (args : List Text) : IO UInt32 := do
  let store ← match Options.ofArguments args with
    | .ok o => surroundings o
    | .error _ => pure (.ofEntries [] [])
  let outcome := run store args
  for line in outcome.log do IO.eprintln line
  if outcome.status = 2 then IO.eprint usage
  writeBack store outcome.store
  IO.print (String.ofList outcome.output)
  return outcome.status.toUInt32

end Indentation.Command

def main (args : List String) : IO UInt32 :=
  Indentation.Command.perform (args.map String.toList)
