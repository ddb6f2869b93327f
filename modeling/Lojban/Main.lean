import Lojban.CommandLine

namespace Lojban.CommandLine

def readBytes (source : Source) : IO ByteArray := do
  match source with
  | .input => (← IO.getStdin).readBinToEnd
  | .file name => IO.FS.readBinFile name

def readText (source : Source) : ExceptT Error IO String := do
  let bytes ← ExceptT.mk <| try
      return .ok (← readBytes source)
    catch _ => return .error .notFound
  textOfBytes bytes

end Lojban.CommandLine

open Lojban.CommandLine in
def main (args : List String) : IO UInt32 := do
  match ← (run readText "jbotree" args).run with
  | .ok exit =>
    (← IO.getStdout).putStr exit.stdout
    (← IO.getStderr).putStr exit.stderr
    return exit.code.toUInt32
  | .error e =>
    (← IO.getStderr).putStrLn ("Error: " ++ e.message)
    return 1
