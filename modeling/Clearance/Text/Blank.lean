/-!
# Blanks

`isBlank` is the White_Space property: 25 characters in ten runs. Tokens are trimmed of blanks
on both sides and a scheme is cut off at the first blank.
-/

namespace Clearance.Text

/-- The runs of characters with the White_Space property, first and last code point. -/
def blankRuns : List (Nat × Nat) :=
  [(0x09, 0x0D), (0x20, 0x20), (0x85, 0x85), (0xA0, 0xA0), (0x1680, 0x1680), (0x2000, 0x200A),
    (0x2028, 0x2029), (0x202F, 0x202F), (0x205F, 0x205F), (0x3000, 0x3000)]

/-- The character is white space. -/
def isBlank (c : Char) : Bool :=
  blankRuns.any fun run => run.1 ≤ c.toNat && c.toNat ≤ run.2

/-- What stands after the leading blanks. -/
def trimStart (s : List Char) : List Char := s.dropWhile isBlank

/-- What stands before the trailing blanks. -/
def trimEnd (s : List Char) : List Char := (trimStart s.reverse).reverse

/-- The text without blanks on either side. -/
def trim (s : List Char) : List Char := trimEnd (trimStart s)

/-- The parts before and after the first blank, if there is one. -/
def cutAtBlank (s : List Char) : Option (List Char × List Char) :=
  match s.dropWhile (!isBlank ·) with
  | [] => none
  | _ :: rest => some (s.takeWhile (!isBlank ·), rest)

end Clearance.Text
