import Thermopile.Fault

namespace Thermopile

abbrev rowCount : Nat := 24

abbrev columnCount : Nat := 32

abbrev pixelCount : Nat := 768

/-- A pixel, numbered along the rows. -/
abbrev Pixel := Fin pixelCount

abbrev Image (α : Type) := Vector α pixelCount

inductive Subpage
  | zero
  | one
deriving DecidableEq, Ord, Inhabited

namespace Subpage

def toNat : Subpage → Nat
  | zero => 0
  | one => 1

/-- The subpage of an even or odd number. -/
def ofParity (n : Nat) : Subpage := if n % 2 = 0 then zero else one

def ofNat? (n : Nat) : Except UnknownCode Subpage :=
  match n with
  | 0 => .ok zero
  | 1 => .ok one
  | n => .error ⟨"Subpage", n⟩

def other : Subpage → Subpage
  | zero => one
  | one => zero

def name : Subpage → String
  | zero => "Zero"
  | one => "One"

def select {α : Type} (p : Subpage) (pair : α × α) : α :=
  match p with
  | zero => pair.1
  | one => pair.2

def replace {α : Type} (p : Subpage) (pair : α × α) (a : α) : α × α :=
  match p with
  | zero => (a, pair.2)
  | one => (pair.1, a)

end Subpage

/-- How the subpages share the pixels: in turn along rows and columns, or row by row. -/
inductive AccessPattern
  | interleave
  | chess
deriving DecidableEq, Ord, Inhabited

namespace AccessPattern

def toNat : AccessPattern → Nat
  | interleave => 0
  | chess => 1

def ofNat? (n : Nat) : Except UnknownCode AccessPattern :=
  match n with
  | 0 => .ok interleave
  | 1 => .ok chess
  | n => .error ⟨"AccessPattern", n⟩

def name : AccessPattern → String
  | interleave => "Interleave"
  | chess => "Chess"

/-- The subpage that measures the pixel numbered `index`. -/
def subpageOf (pattern : AccessPattern) (index : Nat) : Subpage :=
  match pattern with
  | chess => .ofParity (index / columnCount + index)
  | interleave => .ofParity (index / columnCount)

def pixels (pattern : AccessPattern) (subpage : Subpage) : List Pixel :=
  (List.finRange pixelCount).filter fun i => pattern.subpageOf i = subpage

end AccessPattern

namespace Pixel

def row (i : Pixel) : Nat := i.val / columnCount

def column (i : Pixel) : Nat := i.val % columnCount

/-- The pixel at a row and column, if they are inside the image. -/
def at? (row column : Int) : Option Pixel :=
  if h : 0 ≤ row ∧ row < rowCount ∧ 0 ≤ column ∧ column < columnCount then
    some ⟨row.toNat * columnCount + column.toNat, by
      simp only [rowCount, columnCount, pixelCount] at *; omega⟩
  else none

/-- Which of the four combinations of row and column parity the pixel has: even rows come first,
and in each the even columns. -/
def quadrant (i : Pixel) : Fin 4 := ⟨2 * (row i % 2) + column i % 2, by omega⟩

end Pixel
end Thermopile
