/-
Queries run one after the other.

A session holds the stored trees, which engines share, and the world.

* **`Session.run`** — the value of a query text: a bare name is resolved at once, anything else is
  compiled through the store and evaluated;
* **`QueryError`** — an error of such a run.
-/
import PathQuery.Evaluation
import PathQuery.QueryCache

namespace PathQuery

/-- Why a query has no value. -/
inductive QueryError where
  | parse (error : ParseError)
  | eval (error : EvalError)
deriving DecidableEq, Repr

def QueryError.message : QueryError → String
  | .parse e => "parse error: " ++ e.message
  | .eval e => "evaluation error: " ++ e.message

/-- Whether a text is a word of the language: three of them in any case, two in capitals. -/
def isKeyword (text : String) : Bool :=
  ["true", "false", "null"].any (Text.eqIgnoreCase text) || text == "AND" || text == "OR"

/-- Whether a query is nothing but a name: ASCII letters, digits and underscores, no digit first,
and not a word of the language. -/
def isBareName (query : String) : Bool :=
  match query.toList with
  | [] => false
  | c :: rest =>
    (c.isAlpha || c == '_') && rest.all (fun c => c.isAlphanum || c == '_') && !isKeyword query

/-- Stored trees and the world. -/
structure Session (σ : Type) where
  cache : QueryCache
  world : World σ

namespace Session

variable {σ : Type}

/-- Compiles a query through the store and evaluates its tree. -/
def runCompiled (s : Session σ) (host : Host σ) (env : Environment) (context : Context)
    (query : String) : Except QueryError Value × Session σ :=
  match s.cache.compile query with
  | (.error e, cache) => (.error (.parse e), { s with cache := cache })
  | (.ok stored, cache) =>
    let (answer, world) := (evaluate host env context stored.tree).runIn s.world
    (answer.mapError .eval, ⟨cache, world⟩)

/-- The value of a query. -/
def run (s : Session σ) (host : Host σ) (env : Environment) (context : Context) (query : String) :
    Except QueryError Value × Session σ :=
  if isBareName query then
    match (resolveName host env query context).runIn s.world with
    | (.error e, world) => (.error (.eval e), { s with world := world })
    | (.ok (some v), world) => (.ok v, { s with world := world })
    | (.ok none, world) => { s with world := world }.runCompiled host env context query
  else s.runCompiled host env context query

end Session

end PathQuery
