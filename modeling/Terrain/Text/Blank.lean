/-!
# Blanks

Characters with the white space property, and texts without them at their ends.
-/

namespace Terrain.Text

/-- First and last characters of the runs of blanks, in ascending order. -/
def blankRuns : List (Nat × Nat) :=
  [(0x09, 0x0d), (0x20, 0x20), (0x85, 0x85), (0xa0, 0xa0), (0x1680, 0x1680), (0x2000, 0x200a),
    (0x2028, 0x2029), (0x202f, 0x202f), (0x205f, 0x205f), (0x3000, 0x3000)]

def isBlank (c : Char) : Bool :=
  blankRuns.any fun (first, last) => first ≤ c.toNat && c.toNat ≤ last

/-- The characters without the blanks at both ends. -/
def trim (chars : List Char) : String :=
  let inner := chars.dropWhile isBlank
  String.ofList (inner.reverse.dropWhile isBlank).reverse

end Terrain.Text
