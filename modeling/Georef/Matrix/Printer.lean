import Georef.Matrix.Basic
import Georef.Tensor.Printer

/-!
# Matrices as text

`Matrix.text` writes a matrix as a table of its rows.
-/

namespace Georef

/-- Matrices are written with at most six decimals. -/
def ArrayText.matrixStyle : ArrayText.Style := ⟨6, [',', ' '], 0, 75⟩

/-- The text of a matrix under a heading, such as the kind of the matrix. -/
def Matrix.text (m : Matrix Double) (heading : String) : String :=
  let columns := ArrayText.numberColumns ArrayText.matrixStyle.maxDecimals m.toTensor
  heading ++ "(\n" ++ String.ofList (ArrayText.bodyChars ArrayText.matrixStyle columns) ++ "\n)"

end Georef
