/-!
# Headers

A header has a name, compared without regard to the case of ASCII letters, and a value. A name
has 1 to 65535 of the token characters; a value has no control characters but tabs. A value with
a character outside ASCII may be there, but it cannot be read.
-/

namespace Clearance

/-- Why a header cannot exist. -/
inductive HeaderFault where
  | name
  | value
  deriving DecidableEq

/-- A header, its name in lower case. -/
structure Header where
  /-- The name in lower case. -/
  name : String
  /-- The value. -/
  value : String
  deriving DecidableEq

namespace Header

/-- The characters of a header name besides letters and digits; U+0027 is the apostrophe and
U+0060 the grave accent. -/
def nameMarks : List Char :=
  ['!', '#', '$', '%', '&', '\x27', '*', '+', '-', '.', '^', '_', '\x60', '|', '~']

/-- The character may stand in a header name. -/
def isNameChar (c : Char) : Bool := c.isAlphanum || nameMarks.contains c

/-- The character may stand in a header value. -/
def isValueChar (c : Char) : Bool := c == '\t' || (0x20 ≤ c.toNat && c.toNat ≠ 0x7F)

/-- The lower-case form of a header name, if the text is one. -/
def canonicalName? (s : String) : Option String :=
  let cs := s.toList
  if cs ≠ [] ∧ cs.length ≤ 65535 ∧ cs.all isNameChar then
    some (String.ofList (cs.map Char.toLower))
  else none

/-- The header of a name and a value. -/
def make? (name value : String) : Except HeaderFault Header :=
  match canonicalName? name with
  | none => .error .name
  | some canonical =>
    if value.toList.all isValueChar then .ok ⟨canonical, value⟩ else .error .value

/-- The value, if it can be read. -/
def readable? (h : Header) : Option (List Char) :=
  let cs := h.value.toList
  if cs.all (·.toNat < 0x80) then some cs else none

end Header

end Clearance
