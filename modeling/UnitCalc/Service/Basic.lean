import UnitCalc.UnitTable.Basic

/-!
# Requests and responses

Requests arrive decoded, and responses are still to be encoded: both hold what is said, not how it
is written.
-/

namespace UnitCalc

namespace Service

/-! ## Requests -/

/-- A value in the body of a request. -/
inductive Field where
  | null
  | boolean (b : Bool)
  | integer (n : Int)
  | real (x : Binary64)
  | text (s : String)
  | composite
  deriving DecidableEq

/-- The body of a request. -/
inductive Body where
  | missing
  | record (fields : List (String × Field))
  | other
  deriving DecidableEq

structure Request where
  method : String
  /-- The URL reference that names the address. -/
  target : String
  body : Body := .missing
  deriving DecidableEq

/-! ## Responses -/

/-- A place in a request that is not as it should be. -/
abbrev Place := List String

/-- The content of a response. -/
inductive Response where
  /-- The service is up. -/
  | healthy (version : String)
  /-- Symbols with their descriptions and quantities. -/
  | units (rows : List (String × String × Quantity))
  | value (q : Quantity) (formatted : String)
  | failure (failure : Failure)
  /-- The body is not as it should be. -/
  | invalid (places : List Place)
  /-- A plain explanation with its status. -/
  | refusal (status : Nat) (detail : String)
  /-- A limit was run into. -/
  | broken
  /-- A status without any content. -/
  | bare (status : Nat)
  deriving DecidableEq

def version : String := "0.1.0"

/-- The status of a response. -/
def Response.status : Response → Nat
  | healthy _ | units _ | value .. => 200
  | failure _ | invalid _ => 422
  | refusal status _ | bare status => status
  | broken => 500

end Service

end UnitCalc
