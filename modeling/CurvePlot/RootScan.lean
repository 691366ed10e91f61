import CurvePlot.Scalar
/-!
# Roots by sign changes

A function is sampled at equal steps, and a root is reported for each pair of
neighbouring samples between which it changes its sign, where the line through
the two crosses zero. Undefined and infinite samples take part in no pair.

A sample that is exactly zero belongs to two pairs; the second root is dropped
because it lies too near to the first.
-/

namespace CurvePlot.RootScan

variable {α : Type} [Scalar α]

/-- The function at the first `count + 1` sample places. -/
@[specialize]
def samples (min step : α) (count : Nat) (f : α → α) : List (α × α) :=
  (min, f min) :: (List.range count).map fun i =>
    let x := Scalar.fma (Scalar.ofNat (i + 1)) step min
    (x, f x)

/-- Whether a function with these two neighbouring values changes its sign. One
of them may be zero, not both. -/
@[specialize]
def changesSign (a b : α) : Bool :=
  Scalar.isFinite b && Scalar.isFinite a && decide (a * b ≤ 0.0)
    && !(a == (0.0 : α) && b == (0.0 : α))

/-- Where the line through two samples crosses zero. -/
@[specialize]
def interpolated (a b : α × α) : α :=
  let t := Scalar.abs a.2 / (Scalar.abs a.2 + Scalar.abs b.2)
  Scalar.fma t (b.1 - a.1) a.1

/-- The crossings between neighbouring samples. -/
@[specialize]
def crossings : List (α × α) → List α
  | [] => []
  | [_] => []
  | a :: b :: rest =>
    if changesSign a.2 b.2 then interpolated a b :: crossings (b :: rest)
    else crossings (b :: rest)

/-- Drops every root that is not more than `gap` away from the last one kept. -/
@[specialize]
def spaced (gap : α) (last : Option α) : List α → List α
  | [] => []
  | root :: rest =>
    match last with
    | some kept =>
      if gap < Scalar.abs (root - kept) then root :: spaced gap (some root) rest
      else spaced gap last rest
    | none => root :: spaced gap (some root) rest

/-- **The roots of a function** between `min` and `max`, seen at steps of `step`. -/
@[specialize]
def signChanges (min max step : α) (f : α → α) : List α :=
  if Scalar.isFinite step && decide ((0.0 : α) < step) && Scalar.isFinite min
      && decide (min ≤ max) then
    let count := Scalar.toNat (Scalar.floor ((max - min) / step))
    spaced (step * 1e-6) none (crossings (samples min step count f))
  else []

end CurvePlot.RootScan
