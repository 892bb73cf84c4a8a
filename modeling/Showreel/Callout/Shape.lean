import Showreel.Callout.Style

/-!
Contract: labels, arrows and polygons.

Owns: their geometry, each with the style it was made with, and their drawing order.

Does not own: what a callout looks like at a generation.
-/

namespace Showreel.Callout

/-- What a callout draws. A polygon has at least one corner. -/
inductive Shape (α : Type) where
  | label (place : Point α) (text : String)
  | arrow (tail : Point α) (tip : Point α)
  | polygon (filled : Bool) (corner : Point α) (others : List (Point α))
deriving Repr

namespace Shape

variable {α : Type}

/-- The points of a shape, its anchor first. -/
def points : Shape α → Point α × List (Point α)
  | label place _ => (place, [])
  | arrow tail tip => (tail, [tip])
  | polygon _ corner others => (corner, others)

/-- The word for the kind of a shape. -/
def kind : Shape α → String
  | label .. => "label"
  | arrow .. => "arrow"
  | polygon filled .. => if filled then "polyfill" else "polyline"

end Shape

/-- A shape with the zoom it was made for and its style. A fixed callout does not
drift. -/
structure Item (α : Type) where
  shape : Shape α
  zoom : α
  style : Style α
  fixed : Bool
deriving Repr

/-- The callouts of a timeline. -/
structure Registry (α : Type) where
  labels : List (Item α)
  arrows : List (Item α)
  polygons : List (Item α)
deriving Repr

namespace Registry

variable {α : Type}

def empty : Registry α := ⟨[], [], []⟩

/-- All callouts in drawing order, labels on top. -/
def items (registry : Registry α) : List (Item α) :=
  registry.polygons ++ registry.arrows ++ registry.labels

def size (registry : Registry α) : Nat :=
  registry.items.length

end Registry

end Showreel.Callout
