import CurvePlot.Expr.Operator
import CurvePlot.FileSystem.Folder
import CurvePlot.Main
import CurvePlot.Parameter.Bank
import CurvePlot.Scene.Pins
import CurvePlot.Proofs.Equation.PointLiteral
import CurvePlot.Proofs.Equation.Promotion
import CurvePlot.Proofs.Expr.Parse
import CurvePlot.Proofs.Expr.Spelling
import CurvePlot.Proofs.JobBoard.Delivery
import CurvePlot.Proofs.Scene.Caches
import CurvePlot.Proofs.Scene.Handed
import CurvePlot.Proofs.Scene.Served
import CurvePlot.Proofs.Sliding
import CurvePlot.Proofs.Expr.FirstError
import CurvePlot.Proofs.Contour.Watertight
import CurvePlot.Proofs.Double.Decoding
import CurvePlot.Proofs.Scene.Derived
import CurvePlot.Proofs.Equation.Sliders
import CurvePlot.Proofs.Scene.Refusal
import CurvePlot.Proofs.Text.Flatten
import CurvePlot.Proofs.Equation.Normal
import CurvePlot.Proofs.Scene.Compiled
import CurvePlot.Proofs.Scene.RoundTrip
import CurvePlot.Proofs.Double.Nearest
import CurvePlot.Proofs.Double.Arithmetic
import CurvePlot.Proofs.Double.Bounds
import CurvePlot.Proofs.Double.Distance
import CurvePlot.Proofs.Double.Fused
import CurvePlot.Proofs.Roots
import CurvePlot.Proofs.Double.Undefined
import CurvePlot.Proofs.Scene.Landmarks
import CurvePlot.Proofs.Scene.Unseen
import CurvePlot.Proofs.Scene.Isolation
import CurvePlot.Proofs.Scene.Waiting
import CurvePlot.Proofs.Scene.Loading
import CurvePlot.Proofs.Scene.Aimed
import CurvePlot.Proofs.Scene.Resting
import CurvePlot.Proofs.Command.Sliders
import CurvePlot.Proofs.Command.Plan
import CurvePlot.Proofs.Command.Course
import CurvePlot.Proofs.Command.Final
import CurvePlot.Proofs.Scene.Orderly
import CurvePlot.Proofs.Scene.Quiet
import CurvePlot.Proofs.Scene.Lasting
import CurvePlot.Proofs.Equation.Explicit
import CurvePlot.Proofs.Equation.Lettering
import CurvePlot.Proofs.Scene.Typing
import CurvePlot.Proofs.Scene.UpToDate
import CurvePlot.Proofs.Contour.Margin
import CurvePlot.Proofs.Snapshot
import CurvePlot.Proofs.Token.Place
import CurvePlot.Proofs.Equation.Position
import CurvePlot.Proofs.Decimal.Literal
import CurvePlot.Proofs.Token.Lexeme
import CurvePlot.Proofs.Debouncer.Course
import CurvePlot.Proofs.Double.Scientific
import CurvePlot.Proofs.Decimal.Plain
import CurvePlot.Proofs.Expr.Shown
import CurvePlot.Proofs.Roots.Spacing
import CurvePlot.Proofs.Interpolation
import CurvePlot.Proofs.Scene.Pointer
import CurvePlot.Proofs.Token.Seam
import CurvePlot.Proofs.Expr.Clauses
import CurvePlot.Proofs.Equation.Restriction
import CurvePlot.Proofs.Parameter.Table
import CurvePlot.Proofs.Parameter.Cells
import CurvePlot.Proofs.Viewport
import CurvePlot.Proofs.Scene.Pins
import CurvePlot.Proofs.Equation.Mentions
import CurvePlot.Proofs.Contour.Room
import CurvePlot.Proofs.Command.Run
