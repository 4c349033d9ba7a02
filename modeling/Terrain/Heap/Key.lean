import Terrain.Number.Order

/-!
# Keys of script arrays

What an object compares by when it keys an array: value types by their value, everything else by
identity. Keys of different types order by type first, and numbers go by their bits, of which there are
more than there are floats: a float keeps only one pattern of not-a-number.

* `ArrayKey` — the comparable part of an object.
* `KeyPattern` — a key with any bit patterns in the place of its numbers.
* `KeyPattern.compare`, `ArrayKey.compare` — the order, lexicographic inside points and enum values.
-/

namespace Terrain

/-- Handle of an object; handles count up and are never used again. -/
abbrev ObjectId := Nat

inductive ArrayKey where
  | null
  | boolean (value : Bool)
  | number (value : Float)
  | text (value : String)
  | point (x y : Float)
  | enum (typeName : String) (value : Int)
  | identity (id : ObjectId)
  deriving Inhabited

/-- A key as it is compared: a number is its bits. -/
inductive KeyPattern where
  | null
  | boolean (value : Bool)
  | number (bits : UInt64)
  | text (value : String)
  | point (x y : UInt64)
  | enum (typeName : String) (value : Int)
  | identity (id : ObjectId)
  deriving Repr, DecidableEq, Inhabited

namespace KeyPattern

/-- Place of a key's type among the types. -/
def rank : KeyPattern → Nat
  | null => 0
  | boolean _ => 1
  | number _ => 2
  | text _ => 3
  | point _ _ => 4
  | enum _ _ => 5
  | identity _ => 6

/-- Orders keys by type, then by value. Numbers compare in the total order of floats. -/
protected def compare : KeyPattern → KeyPattern → Ordering
  | boolean a, boolean b => Ord.compare a b
  | number a, number b => Number.totalCompare a b
  | text a, text b => Ord.compare a b
  | point x y, point x' y' => (Number.totalCompare x x').then (Number.totalCompare y y')
  | enum typeName value, enum typeName' value' =>
    (Ord.compare typeName typeName').then (Ord.compare value value')
  | identity a, identity b => Ord.compare a b
  | a, b => Ord.compare a.rank b.rank

end KeyPattern

namespace ArrayKey

/-- The key with the bits of its numbers. -/
def pattern : ArrayKey → KeyPattern
  | null => .null
  | boolean value => .boolean value
  | number value => .number value.toBits
  | text value => .text value
  | point x y => .point x.toBits y.toBits
  | enum typeName value => .enum typeName value
  | identity id => .identity id

/-- Keys compare as their patterns do. -/
protected def compare (a b : ArrayKey) : Ordering := a.pattern.compare b.pattern

instance : Ord ArrayKey := ⟨ArrayKey.compare⟩
instance : BEq ArrayKey := ⟨fun a b => ArrayKey.compare a b == .eq⟩

end ArrayKey

end Terrain
