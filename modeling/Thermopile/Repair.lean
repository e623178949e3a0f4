import Thermopile.Calibration.Basic

namespace Thermopile

variable {α : Type} [Scalar α]

def mean (a b : α) : α := (a + b) / Scalar.ofInt 2

/-- The middle of the sorted values, or the mean of the two in the middle. -/
def median? (values : List α) : Option α :=
  let sorted := values.mergeSort Scalar.sortsBefore
  let middle := sorted.length / 2
  if sorted.length % 2 = 0 then
    match sorted[middle - 1]?, sorted[middle]? with
    | some a, some b => some (mean a b)
    | _, _ => none
  else sorted[middle]?

namespace Pixel

def diagonals (i : Pixel) : List Pixel :=
  [(-1, -1), (-1, 1), (1, -1), (1, 1)].filterMap fun (down, right) =>
    at? (i.row + down) (i.column + right)

/-- The pixel `n` places to the right, which stays inside the image. -/
def right (i : Pixel) (n : Nat) : Pixel :=
  ⟨min (i.val + n) (pixelCount - 1), Nat.lt_of_le_of_lt (Nat.min_le_right _ _) (by decide)⟩

def left (i : Pixel) (n : Nat) : Pixel := ⟨i.val - n, by omega⟩

end Pixel

def chessReplacement (values : Image α) (i : Pixel) : α :=
  (median? (i.diagonals.map values.get)).getD (values.get i)

/-- The neighbour on one side at the edge of the image, else the mean of both, unless the pixels one
further on are there and good: then the value continues from the side that is flatter. -/
def interleaveReplacement (c : Calibration) (values : Image α) (i : Pixel) : α :=
  let near := values.get (i.left 1)
  let far := values.get (i.right 1)
  if i.column = 0 then far
  else if i.column = 31 then near
  else if i.column = 1 ∨ i.column = 30 ∨ c.bad (i.left 2) ∨ c.bad (i.right 2) then mean near far
  else
    let rightGradient := far - values.get (i.right 2)
    let leftGradient := near - values.get (i.left 2)
    if Scalar.lt (Scalar.abs leftGradient) (Scalar.abs rightGradient) then near + leftGradient
    else far + rightGradient

def replacement (c : Calibration) (pattern : AccessPattern) (values : Image α) (i : Pixel) : α :=
  match pattern with
  | .chess => chessReplacement values i
  | .interleave => interleaveReplacement c values i

def badPixels (c : Calibration) (pattern : AccessPattern) (subpage : Subpage) : List Pixel :=
  (pattern.pixels subpage).filter fun i => c.bad i

/-- Replaces the bad pixels of a subpage one after the other, so that a replacement can rest on an
earlier one. -/
def repair (c : Calibration) (pattern : AccessPattern) (subpage : Subpage) (values : Image α) :
    Image α :=
  (badPixels c pattern subpage).foldl
    (fun values i => values.set i.val (replacement c pattern values i) i.isLt) values

end Thermopile
