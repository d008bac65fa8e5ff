/-!
# Cutting text at a character

`split` cuts a text at every occurrence of a character and `join` puts the pieces back. The two
undo each other: `join_split` for every text, `split_join` for every list of pieces that are
free of the character.
-/

namespace Clearance.Text

/-- The pieces of a text between the occurrences of a character, empty pieces included. -/
def split (d : Char) (s : String) : List String :=
  (s.toList.splitOn d).map String.ofList

/-- The pieces in one text, with the character between each two neighbours. -/
def join (d : Char) (pieces : List String) : String :=
  String.ofList ([d].intercalate (pieces.map String.toList))

theorem toList_join (d : Char) (pieces : List String) :
    (join d pieces).toList = [d].intercalate (pieces.map String.toList) :=
  String.toList_ofList

theorem map_toList_split (d : Char) (s : String) :
    (split d s).map String.toList = s.toList.splitOn d := by
  simp [split, Function.comp_def]

/-- A text has at least one piece. -/
theorem split_ne_nil (d : Char) (s : String) : split d s ≠ [] := by
  simp [split, List.splitOn_ne_nil]

/-- Nothing is lost by cutting. -/
theorem join_split (d : Char) (s : String) : join d (split d s) = s := by
  rw [join, map_toList_split, List.intercalate_splitOn, String.ofList_toList]

/-- Pieces free of the character read back. -/
theorem split_join (d : Char) {pieces : List String} (free : ∀ p ∈ pieces, d ∉ p.toList)
    (nonempty : pieces ≠ []) : split d (join d pieces) = pieces := by
  have h : (pieces.map String.toList) ≠ [] := by simpa using nonempty
  rw [split, toList_join, List.splitOn_intercalate d (by simpa using free) h]
  simp [Function.comp_def]

end Clearance.Text
