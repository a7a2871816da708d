/-
The command line.

    check QUERY [-i|--input JSON] [-p|--pretty] [--syntax-only] [--strict] [--max-depth N]
    ast QUERY

`check` prints the value of a query as JSON; without an input option the document is read from
standard input if that is not a terminal.  `ast` prints the canonical text of a query.
-/
import PathQuery.Report

namespace PathQuery.CommandLine

/-- What the arguments ask for. -/
inductive Command where
  | check (request : CheckRequest)
  | ast (query : String)

/-- Reads the options behind a query. -/
def options (request : CheckRequest) : List String → Option CheckRequest
  | [] => some request
  | "-i" :: json :: rest => options { request with input := some json } rest
  | "--input" :: json :: rest => options { request with input := some json } rest
  | "-p" :: rest => options { request with pretty := true } rest
  | "--pretty" :: rest => options { request with pretty := true } rest
  | "--syntax-only" :: rest => options { request with syntaxOnly := true } rest
  | "--strict" :: rest => options { request with strict := true } rest
  | "--max-depth" :: limit :: rest =>
    (readNat? limit.toList).bind fun n => options { request with maxDepth := some n } rest
  | _ => none

/-- Reads the arguments. -/
def command : List String → Option Command
  | "check" :: query :: rest => (options { query := query } rest).map .check
  | ["ast", query] => some (.ast query)
  | _ => none

/-- The variables of the process, where the system shows them. -/
def processEnvironment : IO (List (String × String)) := do
  try
    let text ← IO.FS.readFile "/proc/self/environ"
    return (text.splitOn "\x00").map fun entry =>
      match entry.splitOn "=" with
      | name :: value => (name, "=".intercalate value)
      | [] => (entry, "")
  catch _ => return []

/-- Everything that is left to read. -/
partial def readAll (stream : IO.FS.Stream) (text : String) : IO String := do
  let line ← stream.getLine
  if line.isEmpty then return text else readAll stream (text ++ line)

/-- Takes the document from standard input if there is none yet and someone else writes to it. -/
def withInput (request : CheckRequest) : IO CheckRequest := do
  if request.input.isSome || request.syntaxOnly then return request
  let stdin ← IO.getStdin
  if ← stdin.isTty then return request
  let text ← readAll stdin ""
  if Text.trim text.toList = [] then return request
  return { request with input := some text }

/-- Does what a command asks for. -/
def run : Command → IO (Except ReportError String)
  | .check request => do
    let environment ← processEnvironment
    return check (fun name => environment.lookup name) (← withInput request)
  | .ast query => return render query

end PathQuery.CommandLine

open PathQuery in
/-- Runs the command line: output on success, a message and status `1` on an error, status `2`
if the arguments make no command. -/
def main (args : List String) : IO UInt32 := do
  match CommandLine.command args with
  | none =>
    IO.eprintln "usage: check QUERY [options] | ast QUERY"
    return 2
  | some command =>
    match ← CommandLine.run command with
    | .ok output =>
      IO.println output
      return 0
    | .error e =>
      IO.eprintln e.message
      return 1
