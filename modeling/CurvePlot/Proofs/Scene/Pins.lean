import CurvePlot.Proofs.Double.Distance
import CurvePlot.Proofs.Scene.Pointer
import CurvePlot.Proofs.Scene.Run
/-!
# Pins keep apart

Pinning a point takes away the pins that are next to it, or else keeps them all, and then the point
is pinned as well. Whether there were any is told from how many are left. For finite points the
distance is a number (`isNumber_apart`), the same from either end (`apart_comm`), and nothing from a
point to itself (`apart_self`). So what is not kept is nearer than the tolerance, a new pin is as
far from the others as they are from it, and a point that has just been pinned is the only one that
goes when it is pinned again.

`Spread` is the invariant that both operations preserve (`Spread.togglePin`).
-/

namespace CurvePlot

namespace Scene

/-- How far a pin is from another. -/
def apart (p q : Float × Float) : Float := Double.hypot (p.1 - q.1) (p.2 - q.2)

/-- A point that has a place. -/
def Placed (p : Float × Float) : Prop := p.1.isFinite = true ∧ p.2.isFinite = true

section Apart

variable {p q : Float × Float} (hp : Placed p) (hq : Placed q)
include hp hq

theorem isNumber_apart : (apart p q).toModel.unpack ≠ .notANumber :=
  Double.isNumber_hypot (Double.isNaN_sub hp.1 hq.1) (Double.isNaN_sub hp.2 hq.2)

theorem apart_comm : apart p q = apart q p := Double.hypot_sub_comm hp.1 hp.2 hq.1 hq.2

/-- Pins that are not nearer than the tolerance are as far apart as it says. -/
theorem not_apart_lt_iff : ¬apart p q < pinTolerance ↔ pinTolerance ≤ apart p q :=
  Double.not_lt_iff_le (isNumber_apart hp hq) (Double.isNumber_of_isFinite rfl)

end Apart

theorem apart_self {p : Float × Float} (hp : Placed p) : apart p p = 0.0 :=
  Double.hypot_sub_self hp.1 hp.2

theorem apart_self_lt {p : Float × Float} (hp : Placed p) : apart p p < pinTolerance := by
  rw [apart_self hp]
  decide +kernel

/-- The pins that are not next to a point are those that are not nearer than the tolerance. -/
theorem mem_pinsAwayFrom {pins : List (Float × Float)} {x y : Float} {p : Float × Float} :
    p ∈ pinsAwayFrom pins x y ↔ p ∈ pins ∧ pinTolerance ≤ apart p (x, y) := by
  rw [pinsAwayFrom, List.mem_filter, decide_eq_true_iff]
  rfl

/-- **The pins have places, and no two of them are nearer than the tolerance.** -/
structure Spread (pins : List (Float × Float)) : Prop where
  placed : ∀ p ∈ pins, Placed p
  apart : pins.Pairwise fun p q => pinTolerance ≤ apart p q

namespace Spread

variable {pins : List (Float × Float)} {x y : Float}

theorem nil : Spread [] := ⟨nofun, .nil⟩

theorem pinsAwayFrom (h : Spread pins) : Spread (pinsAwayFrom pins x y) :=
  ⟨fun p hp => h.placed p (mem_pinsAwayFrom.mp hp).1, h.apart.filter _⟩

/-- A pin is put behind those that are far enough from it. -/
theorem concat (h : Spread pins) (hp : Placed (x, y))
    (haway : ∀ pin ∈ pins, pinTolerance ≤ Scene.apart pin (x, y)) : Spread (pins ++ [(x, y)]) := by
  refine ⟨fun p hmem => ?_, List.pairwise_append.mpr ⟨h.apart, List.pairwise_singleton _ _, ?_⟩⟩
  · rcases List.mem_append.mp hmem with hmem | hmem
    · exact h.placed p hmem
    · rw [List.mem_singleton.mp hmem]
      exact hp
  · intro p hmem q hq
    rw [List.mem_singleton.mp hq]
    exact haway p hmem

theorem togglePin {s : Scene} (h : Spread s.pins) (hp : Placed (x, y)) :
    Spread (s.togglePin x y).1.pins := by
  rw [togglePin_eq]
  split
  · next haway => exact h.concat hp haway
  · exact h.pinsAwayFrom

end Spread

/-! ### Rows of pins -/

/-- A point that has a place is pinned, or the pins next to it are taken away; or all pins go. -/
inductive Marking where
  | toggle (x y : Float) (hx : x.isFinite = true) (hy : y.isFinite = true)
  | clear

def Marking.action : Marking → Action
  | .toggle x y _ _ => .togglePin x y
  | .clear => .clearPins

theorem Spread.run {s : Scene} (h : Spread s.pins) (ms : List Marking) :
    Spread (s.run (ms.map Marking.action)).pins := by
  induction ms generalizing s with
  | nil => exact h
  | cons m ms ih =>
    rw [List.map_cons, run_cons]
    refine ih ?_
    cases m with
    | toggle x y hx hy => exact h.togglePin ⟨hx, hy⟩
    | clear => exact .nil

/-! ### One more point -/

section Toggle

variable {s : Scene} {x y : Float} (h : Spread s.pins) (hp : Placed (x, y))
include h hp

/-- The pins that stay are those that are not nearer than the tolerance. -/
theorem pinsAwayFrom_eq :
    pinsAwayFrom s.pins x y = s.pins.filter fun pin => ¬apart pin (x, y) < pinTolerance := by
  refine List.filter_congr fun pin hmem => ?_
  rw [decide_eq_decide]
  exact (not_apart_lt_iff (h.placed pin hmem) hp).symm

theorem togglePin_of_away (haway : ∀ pin ∈ s.pins, ¬apart pin (x, y) < pinTolerance) :
    s.togglePin x y = ({ s with pins := s.pins ++ [(x, y)] }, true) := by
  rw [togglePin_eq, if_pos]
  exact fun pin hmem => (not_apart_lt_iff (h.placed pin hmem) hp).mp (haway pin hmem)

theorem togglePin_of_near (hnear : ∃ pin ∈ s.pins, apart pin (x, y) < pinTolerance) :
    s.togglePin x y =
      ({ s with pins := s.pins.filter fun pin => ¬apart pin (x, y) < pinTolerance }, false) := by
  obtain ⟨pin, hmem, hlt⟩ := hnear
  rw [togglePin_eq, if_neg, pinsAwayFrom_eq h hp]
  intro haway
  exact (not_apart_lt_iff (h.placed pin hmem) hp).mpr (haway pin hmem) hlt

/-- A point that has just been pinned is the only one that goes when it is pinned again. -/
theorem togglePin_of_pinned (haway : ∀ pin ∈ s.pins, ¬apart pin (x, y) < pinTolerance) :
    ({ s with pins := s.pins ++ [(x, y)] } : Scene).togglePin x y = (s, false) := by
  have hspread : Spread (s.pins ++ [(x, y)]) :=
    h.concat hp fun pin hmem => (not_apart_lt_iff (h.placed pin hmem) hp).mp (haway pin hmem)
  have hlast : (x, y) ∈ s.pins ++ [(x, y)] :=
    List.mem_append_right _ (List.mem_singleton_self _)
  have hkept : (s.pins ++ [(x, y)]).filter (fun pin => ¬apart pin (x, y) < pinTolerance) =
      s.pins := by
    rw [List.filter_append, List.filter_eq_self.mpr, List.filter_cons_of_neg, List.filter_nil,
      List.append_nil]
    · simpa only [decide_eq_true_eq, not_not] using apart_self_lt hp
    · exact fun pin hmem => decide_eq_true (haway pin hmem)
  rw [togglePin_of_near (s := { s with pins := s.pins ++ [(x, y)] }) hspread hp
    ⟨(x, y), hlast, apart_self_lt hp⟩]
  exact congrArg (fun pins => (({ s with pins := pins } : Scene), false)) hkept

end Toggle

/-- **Pins keep apart, and pinning a point twice takes it back.** -/
theorem run_spread (settings : Settings Float) (width height : Float) (ms : List Marking) :
    let s := (Scene.new settings width height).run (ms.map Marking.action)
    (s.pins.Pairwise fun p q => ¬apart p q < pinTolerance ∧ ¬apart q p < pinTolerance) ∧
      ∀ x y, x.isFinite = true → y.isFinite = true →
        ((s.togglePin x y).2 = true ↔ ∀ pin ∈ s.pins, ¬apart pin (x, y) < pinTolerance) ∧
        ((s.togglePin x y).2 = true →
          (s.togglePin x y).1 = { s with pins := s.pins ++ [(x, y)] } ∧
            (s.togglePin x y).1.togglePin x y = (s, false)) ∧
        ((s.togglePin x y).2 = false ↔ ∃ pin ∈ s.pins, apart pin (x, y) < pinTolerance) ∧
        ((s.togglePin x y).2 = false → (s.togglePin x y).1 =
          { s with pins := s.pins.filter fun pin => ¬apart pin (x, y) < pinTolerance }) := by
  intro s
  have hspread : Spread s.pins := Spread.run (s := Scene.new settings width height) .nil ms
  refine ⟨hspread.apart.imp_of_mem fun {p q} hp hq hapart => ?_, fun x y hx hy => ?_⟩
  · -- the test was made in one direction, when the later pin was set
    have hfar := (not_apart_lt_iff (hspread.placed p hp) (hspread.placed q hq)).mpr hapart
    exact ⟨hfar, apart_comm (hspread.placed p hp) (hspread.placed q hq) ▸ hfar⟩
  · by_cases haway : ∀ pin ∈ s.pins, ¬apart pin (x, y) < pinTolerance
    · rw [togglePin_of_away hspread ⟨hx, hy⟩ haway]
      refine ⟨iff_of_true rfl haway, fun _ => ⟨rfl, togglePin_of_pinned hspread ⟨hx, hy⟩ haway⟩,
        iff_of_false nofun ?_, nofun⟩
      rintro ⟨pin, hmem, hlt⟩
      exact haway pin hmem hlt
    · have hnear : ∃ pin ∈ s.pins, apart pin (x, y) < pinTolerance := by
        by_contra hnone
        exact haway fun pin hmem hlt => hnone ⟨pin, hmem, hlt⟩
      rw [togglePin_of_near hspread ⟨hx, hy⟩ hnear]
      exact ⟨iff_of_false nofun haway, nofun, iff_of_true rfl hnear, fun _ => rfl⟩

end Scene

end CurvePlot
