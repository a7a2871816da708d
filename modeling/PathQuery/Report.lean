/-
Queries asked of a JSON document, as text.

* **`check`** — the output for a query and a document: the value as JSON, or that the syntax is
  valid;
* **`render`** — the canonical text of a query;
* **`ReportError`** — why there is no output.
-/
import PathQuery.Expr.Canonical
import PathQuery.Json.Convert
import PathQuery.Json.Read
import PathQuery.Json.Write
import PathQuery.Session

namespace PathQuery

/-- What is asked. -/
structure CheckRequest where
  query : String
  /-- The document whose members are the variables; without one there are none. -/
  input : Option String := none
  /-- One item to a line. -/
  pretty : Bool := false
  /-- Only parse. -/
  syntaxOnly : Bool := false
  /-- Unknown names are errors. -/
  strict : Bool := false
  maxDepth : Option Nat := none
deriving DecidableEq, Repr

inductive ReportError where
  | query (error : QueryError)
  | invalidJson
  | inputNotObject (kind : String)
deriving DecidableEq, Repr

def ReportError.message : ReportError → String
  | .query e => e.message
  | .invalidJson => "invalid JSON"
  | .inputNotObject kind => "input must be a JSON object, got " ++ kind

/-- The host of a check: one function, which looks up a name in the environment of the process. -/
def environmentHost (lookup : String → Option String) : Host Unit where
  call _ args _ :=
    let name := (args.head?.map Value.text).getD ""
    .done (.ok (match lookup name with
      | some s => .string s
      | none => .null)) ()
  force _ _ := .done (.ok .null) ()
  intercept _ v _ := .done (.ok v) ()
  hasMethod _ _ _ := (false, ())
  callMethod _ _ _ _ := .done (.ok .null) ()
  property _ _ _ := (none, ())

/-- The engine of a check. -/
def CheckRequest.environment (r : CheckRequest) : Environment where
  globals := Globals.empty.register "env" 0
  interceptor := none
  options := ⟨r.maxDepth.getD 128, r.strict⟩

/-- The variables of a check. -/
def readContext : Option String → Except ReportError Context
  | none => .ok .empty
  | some text =>
    match Json.parse? text with
    | none => .error .invalidJson
    | some json =>
      match json.toValue with
      | .object fields => .ok (.ofFields fields)
      | v => .error (.inputNotObject v.kind)

/-- The tree of a query. -/
def parseQuery (query : String) : Except ReportError Expr :=
  (Expr.parse query).mapError fun e => .query (.parse e)

/-- The value of a query as a document. -/
def checkJson (lookup : String → Option String) (r : CheckRequest) (context : Context) :
    Except ReportError Json := do
  let host := environmentHost lookup
  let session : Session Unit := ⟨.empty, ⟨(), #[]⟩⟩
  let (answer, session) := session.run host r.environment context r.query
  let v ← answer.mapError .query
  ((v.toJson host).runIn session.world).1.mapError fun e => .query (.eval e)

/-- The output of a check. -/
def check (lookup : String → Option String) (r : CheckRequest) : Except ReportError String := do
  if r.syntaxOnly then
    let _ ← parseQuery r.query
    return "Syntax is valid"
  else
    let context ← readContext r.input
    let json ← checkJson lookup r context
    return if r.pretty then json.pretty else json.compact

/-- The canonical text of a query. -/
def render (query : String) : Except ReportError String := (parseQuery query).map Expr.canonical

end PathQuery
