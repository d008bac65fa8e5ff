import Clearance.Json.Literal
import Clearance.Json.Quoted

/-!
# Tokens

`Token.scan` cuts a text into tokens between white space. The first place where no token starts
gives the token `bad`, with which the list ends. `Token.chars` writes a token.
-/

namespace Clearance.Json

/-- A smallest unit of written JSON. -/
inductive Token where
  | null
  | bool (b : Bool)
  | number (l : Literal)
  /-- A quoted text; none if a surrogate in it has no partner. -/
  | text (s : Option String)
  | openArray
  | closeArray
  | openObject
  | closeObject
  | comma
  | colon
  /-- The rest of the text starts with no token. -/
  | bad
  deriving DecidableEq

namespace Token

/-- The characters that may stand between tokens. -/
def isSpace (c : Char) : Bool := c == ' ' || c == '\n' || c == '\t' || c == '\r'

/-- What follows a word at the start of a text. -/
def after? (word s : List Char) : Option (List Char) :=
  if word.isPrefixOf s then some (s.drop word.length) else none

/-- The word token that starts with the given letter. -/
def word? (c : Char) (s : List Char) : Option (Token × List Char) :=
  match c with
  | 'n' => (after? ['u', 'l', 'l'] s).map (null, ·)
  | 't' => (after? ['r', 'u', 'e'] s).map (bool true, ·)
  | 'f' => (after? ['a', 'l', 's', 'e'] s).map (bool false, ·)
  | _ => none

/-- The token that a single character makes. -/
def mark? : Char → Option Token
  | '[' => some openArray
  | ']' => some closeArray
  | '{' => some openObject
  | '}' => some closeObject
  | ',' => some comma
  | ':' => some colon
  | _ => none

/-- The text token after its opening quote. -/
def quoted? (s : List Char) : Option (Token × List Char) :=
  (pieces? s).map fun (ps, rest) => (text ((joined? ps).map String.ofList), rest)

/-- The number token at the start of a text. -/
def number? (s : List Char) : Option (Token × List Char) :=
  (Literal.read s).map fun (l, rest) => (number l, rest)

/-- The token whose first character is given, and what follows it. -/
def next? (c : Char) (s : List Char) : Option (Token × List Char) :=
  match mark? c with
  | some t => some (t, s)
  | none =>
    if c = '"' then quoted? s
    else if c = '-' || c.isDigit then number? (c :: s)
    else word? c s

theorem length_of_after? {word s rest : List Char} (h : after? word s = some rest) :
    rest.length ≤ s.length := by
  simp only [after?, Option.ite_none_right_eq_some, Option.some.injEq] at h
  simp [← h.2]

theorem length_of_word? {c : Char} {s rest : List Char} {t : Token}
    (h : word? c s = some (t, rest)) : rest.length ≤ s.length := by
  simp only [word?] at h
  split at h
  case h_4 => cases h
  all_goals
    obtain ⟨rest', found, same⟩ := Option.map_eq_some_iff.1 h
    obtain ⟨-, rfl⟩ := Prod.mk.inj same
    exact length_of_after? found

/-- The characters after a token are fewer than those it was found in. -/
theorem length_of_next? {c : Char} {s rest : List Char} {t : Token}
    (h : next? c s = some (t, rest)) : rest.length ≤ s.length := by
  simp only [next?] at h
  split at h
  · cases h
    exact Nat.le_refl _
  · split at h
    · obtain ⟨⟨ps, rest'⟩, found, same⟩ := Option.map_eq_some_iff.1 h
      obtain ⟨-, rfl⟩ := Prod.mk.inj same
      exact Nat.le_of_lt (length_of_pieces? found)
    · split at h
      · obtain ⟨⟨l, rest'⟩, found, same⟩ := Option.map_eq_some_iff.1 h
        obtain ⟨-, rfl⟩ := Prod.mk.inj same
        exact Nat.le_of_lt_succ (Literal.length_of_read found)
      · exact length_of_word? h

/-- The tokens of a text, up to the first place where none starts. -/
def scan : List Char → List Token
  | [] => []
  | c :: s =>
    if isSpace c then scan s
    else
      match _found : next? c s with
      | some (t, rest) => t :: scan rest
      | none => [bad]
termination_by s => s.length
decreasing_by
  · exact Nat.lt_succ_self _
  · exact Nat.lt_succ_of_le (length_of_next? _found)

/-- The token as it is written; those that no value has are written as nothing. -/
def chars : Token → List Char
  | null => ['n', 'u', 'l', 'l']
  | bool true => ['t', 'r', 'u', 'e']
  | bool false => ['f', 'a', 'l', 's', 'e']
  | number l => l.chars
  | text (some s) => quote s
  | text none => []
  | openArray => ['[']
  | closeArray => [']']
  | openObject => ['{']
  | closeObject => ['}']
  | comma => [',']
  | colon => [':']
  | bad => []

end Token

end Clearance.Json
