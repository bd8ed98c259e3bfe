import Georef.Session.Run
import Georef.Proofs.Matrix.Algebra
import Georef.Proofs.Transform.NormalForm
import Georef.Proofs.Transform.Points
import Georef.Proofs.Transform.Homogeneous
import Georef.Proofs.Transform.Chain
import Georef.Proofs.Transform.Composition
import Georef.Proofs.Transform.ProductMatrix
import Georef.Proofs.Matrix.Conditioning
import Georef.Proofs.Matrix.Elimination
import Georef.Proofs.Matrix.System
import Georef.Proofs.Matrix.ExactSolver
import Georef.Proofs.Transform.Inverse
import Georef.Proofs.Double.Order
import Georef.Proofs.Session.Concatenation
import Georef.Proofs.Session.ParsingHistory
import Georef.Proofs.Meridian.Order
import Georef.Proofs.CoordinateSystem.Swap
import Georef.Proofs.Direction.Naming
import Georef.Proofs.Transform.Invertibility
import Georef.Proofs.Transform.Destinations
import Georef.Proofs.Session.MatrixRuns
import Georef.Proofs.Session.RegistryRuns
import Georef.Proofs.Transform.Differences
import Georef.Proofs.Double.Agreement
import Georef.Proofs.Matrix.HashKeys
import Georef.Proofs.Transform.HashKeys
import Georef.Proofs.Session.MeridianRuns
import Georef.Proofs.Memory.Isolation
import Georef.Proofs.Meridian.Range
import Georef.Proofs.Transform.Jacobian
import Georef.Proofs.Matrix.Bordered
import Georef.Proofs.Matrix.Translation
import Georef.Proofs.Transform.Translation
import Georef.Proofs.Matrix.LeastSquares
import Georef.Proofs.Matrix.Solutions
import Georef.Proofs.Meridian.Acceptance
import Georef.Proofs.Direction.Shadowing
import Georef.Proofs.CoordinateSystem.Exchange
import Georef.Proofs.Matrix.UnitColumns
import Georef.Proofs.Ellipsoid.Flattening
import Georef.Proofs.Transform.Identity
import Georef.Proofs.Transform.AffineClosure
import Georef.Proofs.Matrix.Tolerance
import Georef.Proofs.Matrix.Transposition
import Georef.Proofs.Memory.Transposition
import Georef.Proofs.Direction.Acronyms
import Georef.Proofs.Direction.Leniency
