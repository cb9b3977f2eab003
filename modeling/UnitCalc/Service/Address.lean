import UnitCalc.Service.Basic

/-!
# Addresses

A request names an address by a URL reference, of which only the path matters. `Target.lookupPath`
is the path as it is looked up: its dot segments are resolved, its escapes are decoded, and slashes
at its end do not count.
-/

namespace UnitCalc

namespace Service

/-! ## Addresses -/

/-- The addresses of the service. -/
inductive Address where
  | health
  | units
  | evaluate
  deriving DecidableEq

/-- The address at a path. -/
def Address.ofPath? : String → Option Address
  | "/health" => some health
  | "/v1/convert/units" => some units
  | "/v1/convert/evaluate" => some evaluate
  | _ => none

/-- The method of an address. -/
def Address.method : Address → String
  | health => "GET"
  | units => "GET"
  | evaluate => "POST"

/-! ## Targets -/

/-- A URL reference without its query and fragment. -/
structure Target where
  scheme : List Char
  authority : List Char
  path : List Char

namespace Target

/-- Splits a scheme off: a letter, further letters, digits and signs, and a colon. -/
def takeScheme (cs : List Char) : List Char × List Char :=
  let isSchemeChar : Char → Bool := fun c ↦ c.isAlphanum || c == '+' || c == '.' || c == '-'
  match cs.takeWhile isSchemeChar, cs.dropWhile isSchemeChar with
  | c :: name, ':' :: rest => if c.isAlpha then (c :: name, rest) else ([], cs)
  | _, _ => ([], cs)

/-- Splits an authority off: what stands between two slashes and the next one. -/
def takeAuthority : List Char → List Char × List Char
  | '/' :: '/' :: cs => (cs.takeWhile (· != '/'), cs.dropWhile (· != '/'))
  | cs => ([], cs)

/-- The parts of a URL reference. -/
def ofString (s : String) : Target :=
  let (scheme, rest) := takeScheme (s.toList.takeWhile fun c ↦ c != '?' && c != '#')
  let (authority, path) := takeAuthority rest
  ⟨scheme, authority, path⟩

/-- Resolves the dot segments of a path: a double dot takes back the segment before it, unless only
the root is left. -/
def resolveDots (path : List Char) : List Char :=
  let segments := ((String.ofList path).splitOn "/").foldl (fun kept segment ↦
    if segment = "." then kept
    else if segment = ".." then if kept.length ≤ 1 then kept else kept.dropLast
    else kept ++ [segment]) []
  ("/".intercalate segments).toList

/-- The path within the service: that of a complete URL as it stands, any other from the root. -/
def absolutePath (t : Target) : List Char :=
  if t.scheme ≠ [] ∧ t.authority ≠ [] then resolveDots t.path
  else resolveDots ('/' :: t.path.dropWhile (· == '/'))

/-- The value of a hexadecimal digit. -/
def hexValue? (c : Char) : Option Nat :=
  if c.isDigit then some (c.toNat - '0'.toNat)
  else if 'a' ≤ c ∧ c ≤ 'f' then some (c.toNat - 'a'.toNat + 10)
  else if 'A' ≤ c ∧ c ≤ 'F' then some (c.toNat - 'A'.toNat + 10)
  else none

/-- Decodes escapes, each into the character of that code: the addresses are ASCII, where codes and
bytes are the same. A percent sign that starts no escape stays. -/
def decodeEscapes : List Char → List Char
  | '%' :: a :: b :: cs =>
    match hexValue? a, hexValue? b with
    | some high, some low => Char.ofNat (16 * high + low) :: decodeEscapes cs
    | _, _ => '%' :: decodeEscapes (a :: b :: cs)
  | c :: cs => c :: decodeEscapes cs
  | [] => []

/-- A path without the slashes at its end, and without a line feed there. -/
def dropEnd (path : List Char) : List Char :=
  match path.reverse.dropWhile (· == '/') with
  | '\n' :: rest => rest.reverse
  | rest => rest.reverse

/-- The path that is looked up. An escape may itself have been escaped once. -/
def lookupPath (t : Target) : String :=
  String.ofList (dropEnd (decodeEscapes (decodeEscapes t.absolutePath)))

end Target

/-- The address that a request is for. -/
def Request.address? (request : Request) : Option Address :=
  Address.ofPath? (Target.ofString request.target).lookupPath

end Service

end UnitCalc
