import Flowchart.Text.Quoted

/-!
# Attributes

What can be said of a node of a chart: its label, its shape, its color, and the width
of the pen that draws its border.
-/

namespace Flowchart

open Text

/-! ## §1 Shapes -/

/-- The shape of a node. -/
inductive Shape where
  | rectangle
  | diamond
deriving DecidableEq, Repr

/-- The name of a shape. -/
def Shape.name : Shape → String
  | rectangle => "rectangle"
  | diamond => "diamond"

/-- A name that no shape has. -/
structure UnknownShape where
  name : String
deriving DecidableEq, Repr

/-- The message for a name that no shape has. -/
def UnknownShape.message (e : UnknownShape) : String :=
  quoted e.name ++ " is not a valid ShapeKind"

/-- The shape of the given name. -/
def Shape.ofName (name : String) : Except UnknownShape Shape :=
  if name = rectangle.name then .ok rectangle
  else if name = diamond.name then .ok diamond
  else .error ⟨name⟩

/-! ## §2 Attributes -/

/-- What an attribute speaks of. -/
inductive AttributeKind where
  | label
  | shape
  | color
  | penWidth
deriving DecidableEq, Repr

/-- The name of a kind of attribute. -/
def AttributeKind.name : AttributeKind → String
  | label => "label"
  | shape => "shape"
  | color => "color"
  | penWidth => "penwidth"

/-- The kind of attribute of the given name. -/
def AttributeKind.ofName? (name : String) : Option AttributeKind :=
  [label, shape, color, penWidth].find? fun kind => kind.name = name

/-- Something said of a node. -/
inductive Attribute where
  | label (text : String)
  | shape (shape : Shape)
  | color (name : String)
  | penWidth (width : Int)
deriving DecidableEq, Repr

namespace Attribute

/-- What the attribute speaks of. -/
def kind : Attribute → AttributeKind
  | label _ => .label
  | shape _ => .shape
  | color _ => .color
  | penWidth _ => .penWidth

/-- The attribute spelled out, with its kind, the name of its content and the content. -/
def describe : Attribute → String
  | label text => "Label(text=" ++ quoted text ++ ")"
  | shape .rectangle => "Shape(shape=<ShapeKind.RECTANGLE: 'rectangle'>)"
  | shape .diamond => "Shape(shape=<ShapeKind.DIAMOND: 'diamond'>)"
  | color name => "Color(name=" ++ quoted name ++ ")"
  | penWidth width => "PenWidth(width=" ++ toString width ++ ")"

end Attribute

end Flowchart
