import MessageSelector.Command.Report

/-!
# The program

Runs the command line: prints what an invocation leads to, complaints on the error stream, and ends
with its status.
-/

namespace MessageSelector.Command

/-- The complaint about arguments that cannot be used. -/
def Misuse.message : Misuse → String
  | noArguments | noVerb => "expected one of the commands check, keys and eval"
  | unknownVerb => "unknown command; the commands are check, keys and eval"
  | unknownArgument => "unexpected argument"
  | noSelector => "the selector is missing"
  | noValue => "an option is missing its value"
  | surplusValue => "an option that takes no value was given one"
  | badValue => "the value of an option is not valid"
  | repeated => "an option was given more than once"

/-- The standard input up to its end. -/
def readStandardInput : IO ByteArray := do
  let input ← IO.getStdin
  let mut bytes := ByteArray.empty
  repeat
    let part ← input.read 4096
    if part.isEmpty then break
    bytes := bytes ++ part
  return bytes

/-- The text of a file, or of the standard input if the path is a hyphen, or why it cannot be
read. -/
def readText (path : String) : IO (Except String String) := do
  try
    let bytes ← if path = "-" then readStandardInput else IO.FS.readBinFile path
    match String.fromUTF8? bytes with
    | some text => return .ok text
    | none => return .error "stream did not contain valid UTF-8"
  catch
    | .noFileOrDirectory .. => return .error "No such file or directory (os error 2)"
    | error => return .error (toString error)

/-- A record as a line. -/
def recordLine (record : Selector.Record) : String :=
  let details := record.fields.map fun (name, text) => name ++ ": " ++ text
  record.level ++ " " ++ record.message ++ ", " ++ ", ".intercalate details

end MessageSelector.Command

open MessageSelector.Command in
/-- Runs the command line. -/
def main (arguments : List String) : IO UInt32 := do
  match Invocation.ofArguments arguments with
  | .error misuse =>
    IO.eprintln ("error: " ++ misuse.message)
    return 2
  | .ok invocation =>
    let (report, records) ← invocation.perform readText
    if invocation.verbose then
      for record in records do
        IO.eprintln (recordLine record)
    match report with
    | .printed _ text => IO.print text
    | .failed message => IO.eprintln ("error: " ++ message)
    return report.status
