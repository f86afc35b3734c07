import SiteAnalysis.Python.Json

/-
  This file defines what a call of the `requests` library
  comes back with.

  Key definitions include:
    * `Body`
    * `Response`
    * `HttpOutcome`
    * `Response.raisesForStatus`
-/

------------------------------------------------------------
-- Responses
------------------------------------------------------------

namespace Python

/- What `response.json()` makes of the content. -/
inductive Body
  | empty
  | notJson (message : String)
  | json (value : Json)

structure Response where
  statusCode : Nat
  body : Body

/- `response.raise_for_status()` raises. -/
def Response.raisesForStatus (r : Response) : Bool :=
  400 ≤ r.statusCode ∧ r.statusCode < 600

/- The kinds of `requests.RequestException`. -/
inductive RequestKind
  | connectionError
  | timeout
  | other
deriving DecidableEq

/- A response, or the exception of the call. -/
inductive HttpOutcome
  | response (r : Response)
  | failure (kind : RequestKind) (message : String)

end Python
