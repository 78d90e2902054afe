import DiagramDoc.Diagram.Id
import DiagramDoc.Number.Arithmetic

/-!
# Pie charts

A title and slices; a slice is a number with a label and a colour.
-/

namespace DiagramDoc

structure Slice where
  id : Nat
  label : Text
  value : Number
  color : Text := "#60a5fa".toList
deriving DecidableEq

namespace Slice

def defaultLabel : Text := "Slice".toList

def defaultColor : Text := "#60a5fa".toList

instance : Entity Slice := ⟨Slice.id, fun slice id => { slice with id }⟩

def palette : List Text :=
  ["#60a5fa", "#34d399", "#fbbf24", "#f87171", "#a78bfa", "#fb7185", "#38bdf8", "#22c55e"].map
    String.toList

def paletteColor (index : Nat) : Text := (palette[index % 8]?).getD defaultColor

end Slice

structure Pie where
  title : Text := []
  slices : List Slice := []
deriving DecidableEq

namespace Pie

def total (p : Pie) : Number := Number.sum (p.slices.map Slice.value)

end Pie
end DiagramDoc
