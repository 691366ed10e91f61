import CurvePlot.Double.Fused
import CurvePlot.Proofs.Double.Order
/-!
# The undefined double

A computation that meets the undefined double gives it again, so that a curve without a
value has none between its samples either. No comparison holds of it, and so nothing is
found near a curve without a value.
-/

namespace CurvePlot.Double

open Float.Model (Format UnpackedFloat)

theorem unpack_undefined : undefined.toModel.unpack = .notANumber := rfl

/-- There is only one double that is no number. -/
theorem pack_notANumber : Float.ofModel (Float.Model.pack .notANumber) = undefined := by
  decide +kernel

theorem isNaN_undefined : undefined.isNaN = true := rfl

theorem isFinite_undefined : undefined.isFinite = false := rfl

theorem isNaN_eq_false_of_isFinite {v : Float} (h : v.isFinite = true) : v.isNaN = false := by
  have hmodel : v.toModel.unpack.isFinite = true := h
  show v.toModel.unpack.isNaN = false
  cases hu : v.toModel.unpack with
  | notANumber | infinity => rw [hu] at hmodel; cases hmodel
  | zero | finite => rfl

theorem isInf_eq_false_of_isFinite {v : Float} (h : v.isFinite = true) : v.isInf = false := by
  have hmodel : v.toModel.unpack.isFinite = true := h
  show v.toModel.unpack.isInf = false
  cases hu : v.toModel.unpack with
  | notANumber | infinity => rw [hu] at hmodel; cases hmodel
  | zero | finite => rfl

theorem sub_undefined (v : Float) : v - undefined = undefined := by
  have hsub : UnpackedFloat.sub Format.binary64 v.toModel.unpack .notANumber = .notANumber := by
    cases v.toModel.unpack <;> rfl
  show Float.ofModel (.pack (UnpackedFloat.sub Format.binary64 v.toModel.unpack .notANumber)) = _
  rw [hsub, pack_notANumber]

theorem undefined_sub (v : Float) : undefined - v = undefined := pack_notANumber

theorem add_undefined (v : Float) : v + undefined = undefined := by
  have hadd : UnpackedFloat.add Format.binary64 v.toModel.unpack .notANumber = .notANumber := by
    cases v.toModel.unpack <;> rfl
  show Float.ofModel (.pack (UnpackedFloat.add Format.binary64 v.toModel.unpack .notANumber)) = _
  rw [hadd, pack_notANumber]

theorem abs_undefined : undefined.abs = undefined := pack_notANumber

/-- On the way from an undefined value nothing is defined. -/
theorem fma_undefined (t : Float) : fma t undefined undefined = undefined := by
  unfold fma
  rw [isFinite_undefined, Bool.and_false, Bool.not_false, if_pos rfl, add_undefined]

theorem not_undefined_lt (v : Float) : ¬undefined < v := by
  rw [lt_iff, unpack_undefined]
  exact nofun

end CurvePlot.Double
