import Std.Data.TreeMap
import Terrain.Decimal.Layout
import Terrain.Plan.Bounds
import Terrain.Random.Xxh3

/-!
# Galleries

The maps a sequence has yielded, by name and in the order of their names. A digest of placement and
samples tells renders apart.
-/

namespace Terrain

namespace HeightMap

/-- Seed of digests. -/
def fingerprintSeed : UInt64 := 0x5eed1e1a7e55a11e

/-- Appends the lowest bytes of a number, the least significant one first. -/
def pushBytes (bytes : ByteArray) : Nat → Int → ByteArray
  | 0, _ => bytes
  | count + 1, value => pushBytes (bytes.push (value.emod 256).toNat.toUInt8) count (value / 256)

/-- Digest of the logical rectangle and of all samples. -/
def fingerprint (map : HeightMap) : UInt64 :=
  let ⟨position, size⟩ := map.logical
  let heading := [position.x, position.y, (size.width : Int), (size.height : Int)]
  let bytes := heading.foldl (pushBytes · 4 ·) ByteArray.empty
  Xxh3.digest (map.samples.foldl (pushBytes · 2 ·) bytes) fingerprintSeed

/-- Sixteen hexadecimal digits. -/
def hexadecimal (word : UInt64) : String :=
  let digits := Nat.toDigits 16 word.toNat
  String.ofList (List.replicate (16 - digits.length) '0' ++ digits)

end HeightMap

structure Gallery where
  maps : Std.TreeMap String HeightMap

namespace Gallery

def empty : Gallery := ⟨∅⟩

def size (gallery : Gallery) : Nat := gallery.maps.size

def isEmpty (gallery : Gallery) : Bool := gallery.maps.isEmpty

/-- Hangs a map; one of the same name is replaced. -/
def insert (gallery : Gallery) (name : String) (map : HeightMap) : Gallery :=
  ⟨gallery.maps.insert name map⟩

def get? (gallery : Gallery) (name : String) : Option HeightMap := gallery.maps[name]?

/-- Names and maps in the order of the names. -/
def toList (gallery : Gallery) : List (String × HeightMap) := gallery.maps.toList

/-- Listing of the maps. -/
def dump (gallery : Gallery) : String :=
  String.join (gallery.toList.map fun (name, map) =>
    let bounds := (Bounds.rectangle map.logical).describe
    let digest := HeightMap.hexadecimal map.fingerprint
    s!"{name}: {bounds} scale {Decimal.plain map.scale} digest {digest}\n")

end Gallery

end Terrain
