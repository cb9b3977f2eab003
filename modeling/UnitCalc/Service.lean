import UnitCalc.Calculator
import UnitCalc.Service.Address
import UnitCalc.Service.Body

/-!
# The service

The same calculator behind three addresses: one that evaluates an expression, one that lists the
standard units, and one that says that the service is up.
-/

namespace UnitCalc

namespace Service

variable [Platform]

/-- The response to an expression. -/
def evaluate (settings : Settings) (text : String) (precision : Option Int) : Response :=
  match calculate text with
  | .ok q =>
    match q.formatWith settings precision with
    | .ok formatted => .value q formatted
    | .error _ => .broken
  | .error (.failure failure) => .failure failure
  | .error (.limit _) => .broken

/-- The response of an address to a method. -/
def answer (settings : Settings) (address : Address) (method : String) (body : Body) : Response :=
  if method ≠ address.method then .refusal 405 "Method Not Allowed"
  else match address with
    | .health => .healthy version
    | .units =>
      match UnitTable.standard.rows with
      | .ok rows => .units rows
      | .error _ => .broken
    | .evaluate =>
      match readBody body with
      | .ok (text, precision) => evaluate settings text precision
      | .error places => .invalid places

/-- The response to a request. Methods are the same in letters of either case, and the response to
`HEAD` has no content. -/
def respond (settings : Settings) (request : Request) : Response :=
  let method := Text.toCapitals request.method
  let response :=
    match request.address? with
    | none => .refusal 404 "Not Found"
    | some address => answer settings address method request.body
  if method = "HEAD" then .bare response.status else response

end Service

end UnitCalc
