/-!
# Row-major grids

A grid of `width` by `height` cells is an array of rows laid end to end. Kernels work on lines;
`mapRows` and `mapColumns` run a kernel along either axis.
-/

namespace Terrain.Grid

variable {α : Type}

/-- Row `y` of a grid. -/
def row (width : Nat) (cells : Array α) (y : Nat) : Array α :=
  cells.extract (y * width) ((y + 1) * width)

/-- Column `x` of a grid. -/
def column [Inhabited α] (width height : Nat) (cells : Array α) (x : Nat) : Array α :=
  (Array.range height).map fun y => cells.getD (x + y * width) default

/-- Replaces every row by its image. -/
def mapRows (width height : Nat) (kernel : Array α → Array α) (cells : Array α) : Array α :=
  (Array.range height).flatMap fun y => kernel (row width cells y)

/-- Replaces every column by its image. -/
def mapColumns [Inhabited α] (width height : Nat) (kernel : Array α → Array α) (cells : Array α) :
    Array α :=
  let columns := (Array.range width).map fun x => kernel (column width height cells x)
  (Array.range (width * height)).map fun i =>
    (columns.getD (i % width) #[]).getD (i / width) default

end Terrain.Grid
