/-!
# Squared distance transform of a line

For a line of costs `f`, finds `min over q of (p - q) ^ 2 + f q` at every position `p`. Each `q`
contributes a parabola; the lower envelope of all parabolas is built from left to right as a stack
and then read off from left to right. The arithmetic is a parameter, so that the same definition
runs on floats and can be reasoned about over exact numbers.

* `Piece` — a parabola of the envelope and where its part begins.
* `envelope` — the pieces, rightmost first.
* `transform` — the minima.
-/

namespace Terrain.Line

variable {α : Type} [Add α] [Sub α] [Mul α] [Div α] [LE α] [LT α] [DecidableLE α] [DecidableLT α]
  [Inhabited α]

/-- The parabola over `vertex` is lowest from `start` on; the first piece has no start. -/
structure Piece (α : Type) where
  vertex : Nat
  start : Option α

/-- Where the parabola over `q` crosses the one over `p < q` from above. -/
def crossing (ofNat : Nat → α) (costs : Array α) (q p : Nat) : α :=
  let qx := ofNat q
  let px := ofNat p
  ((costs.getD q default + qx * qx) - (costs.getD p default + px * px)) /
    (ofNat 2 * qx - ofNat 2 * px)

/-- Adds the parabola over `q`, first removing those it hides completely. -/
def pushPiece (ofNat : Nat → α) (costs : Array α) (q : Nat) : List (Piece α) → List (Piece α)
  | [] => [⟨q, none⟩]
  | piece :: rest =>
    let start := crossing ofNat costs q piece.vertex
    match piece.start with
    | none => ⟨q, some start⟩ :: piece :: rest
    | some before =>
      if start ≤ before then pushPiece ofNat costs q rest
      else ⟨q, some start⟩ :: piece :: rest

/-- The lower envelope, rightmost piece first. -/
def envelope (ofNat : Nat → α) (costs : Array α) : List (Piece α) :=
  (List.range costs.size).foldl (fun pieces q => pushPiece ofNat costs q pieces) []

/-- Drops the pieces that end before a position. -/
def advanceTo (position : α) : List (Piece α) → List (Piece α)
  | piece :: next :: rest =>
    match next.start with
    | some start => if start < position then advanceTo position (next :: rest) else piece :: next :: rest
    | none => piece :: next :: rest
  | pieces => pieces

/-- Reads the envelope at `count` positions from `position` on. -/
def readEnvelope (ofNat : Nat → α) (costs : Array α) (count position : Nat)
    (pieces : List (Piece α)) (done : Array α) : Array α :=
  match count with
  | 0 => done
  | count + 1 =>
    let pieces := advanceTo (ofNat position) pieces
    match pieces with
    | [] => done
    | piece :: _ =>
      let delta := ofNat position - ofNat piece.vertex
      readEnvelope ofNat costs count (position + 1) pieces
        (done.push (delta * delta + costs.getD piece.vertex default))

/-- Least squared distance plus cost at every position. -/
def distanceTransform (ofNat : Nat → α) (costs : Array α) : Array α :=
  readEnvelope ofNat costs costs.size 0 (envelope ofNat costs).reverse (Array.mkEmpty costs.size)

end Terrain.Line
