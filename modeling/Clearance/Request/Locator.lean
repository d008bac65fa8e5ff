import Clearance.Request.Header
import Clearance.Text.Blank

/-!
# Finding the token of a request

Each candidate name is looked up among the headers first and then among the query parameters;
the first candidate that gives a token wins. Of several headers with one name the first is read,
of several query parameters the last. A header value may start with the scheme `Bearer`, which
does not belong to the token. Surrounding blanks never belong to it, and an empty token is none.
-/

namespace Clearance

/-- The part of a request that can carry a token. -/
structure Request where
  /-- The headers in their order. -/
  headers : List Header
  /-- The query parameters in their order. -/
  query : List (String × String)
  deriving DecidableEq

namespace Request

instance : Inhabited Request := ⟨⟨[], []⟩⟩

/-- The request with the given headers and query parameters. -/
def make? (headers query : List (String × String)) : Except HeaderFault Request :=
  (headers.mapM fun h => Header.make? h.1 h.2).map (⟨·, query⟩)

/-- The authorization scheme that may stand before a token, in lower case. -/
def bearer : List Char := ['b', 'e', 'a', 'r', 'e', 'r']

/-- The text is the scheme, whatever the case of its letters. -/
def isBearer (s : List Char) : Bool := s.map Char.toLower == bearer

/-- A token without the blanks around it, unless nothing is left. -/
def nonempty? (token : List Char) : Option (List Char) :=
  match Text.trim token with
  | [] => none
  | token => some token

/-- The token in a header value. -/
def bearerToken? (value : List Char) : Option (List Char) :=
  let value := Text.trim value
  match Text.cutAtBlank value with
  | some (scheme, rest) =>
    if isBearer scheme then nonempty? rest else nonempty? value
  | none => if isBearer value then none else nonempty? value

/-- The first header of a name. -/
def header? (r : Request) (name : String) : Option Header :=
  (Header.canonicalName? name).bind fun canonical => r.headers.find? (·.name == canonical)

/-- The token in the header of a name. -/
def headerToken? (r : Request) (name : String) : Option String :=
  (r.header? name).bind Header.readable? |>.bind bearerToken? |>.map String.ofList

/-- The last query parameter of a name. -/
def parameter? (r : Request) (name : String) : Option String := r.query.reverse.lookup name

/-- The token in the query parameter of a name. -/
def queryToken? (r : Request) (name : String) : Option String :=
  (r.parameter? name).bind fun value => (nonempty? value.toList).map String.ofList

/-- The token under one name. -/
def tokenUnder? (r : Request) (name : String) : Option String :=
  (r.headerToken? name).or (r.queryToken? name)

/-- The token under the first of the names that gives one. -/
def token? (r : Request) (candidates : List String) : Option String :=
  candidates.findSome? r.tokenUnder?

end Request

end Clearance
