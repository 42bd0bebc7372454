import Groundwork.Failure
import Groundwork.Json.Value

/-!
Requests to a service of the web and what comes of them. The service itself is outside: an operation
that needs it is given a function from requests to outcomes.
-/

namespace Groundwork

structure HttpRequest where
  url : String
  headers : List (String × String)
  body : Json
  timeout : Json

def HttpRequest.toJson (r : HttpRequest) : Json :=
  .obj [("url", .str r.url),
    ("headers", .obj (r.headers.map fun (name, value) => (name, .str value))), ("json", r.body),
    ("timeout", r.timeout)]

/-- What comes of a request: an answer with status and body, no connection, or a failure that has
nothing to do with the connection. -/
inductive HttpOutcome where
  | answered (status : Int) (body : String)
  | unreachable (reason : String)
  | broken (failure : Failure)
  deriving DecidableEq, Repr

structure Wire where
  pending : List HttpOutcome := []
  sent : List HttpRequest := []

namespace Wire

/-- Takes the next outcome; without one the service cannot be reached any more. -/
def send (request : HttpRequest) : StateM Wire HttpOutcome := fun wire =>
  let sent := request :: wire.sent
  match wire.pending with
  | outcome :: rest => (outcome, ⟨rest, sent⟩)
  | [] => (.unreachable "exhausted", ⟨[], sent⟩)

def requests (wire : Wire) : List HttpRequest := wire.sent.reverse

end Wire

end Groundwork
