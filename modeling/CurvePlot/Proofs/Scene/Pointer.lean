import CurvePlot.Proofs.Double.Nearest
import CurvePlot.Scene.Pins
import Mathlib.Data.List.Induction
/-!
# Under the pointer

What lies under a pixel is told in three tiers (`Beneath`): the first intersection that is near
enough; without one, the first intercept; without either, the graph that passes nearest above or
below, the one with the lowest number among those equally near. `beneath_pointer` says that what
is found is exactly that, and that a click changes the pins in the first two tiers only.

The graphs are compared by a fold that keeps the first of the least gaps
(`splits_of_nearest`). A graph that is undefined at the place of the pointer has no gap that
is a number. It would spoil the comparisons, but it is not near enough in the first place, so that
only numbers are compared.
-/

namespace CurvePlot

namespace Scene

/-! ### The first of the least -/

section Nearest

variable {α β : Type} {f : β → Option (Float × α)} {a : Float × α}

theorem nearest_eq_none_iff {l : List (Float × α)} : nearest l = none ↔ l = [] := by
  cases l with
  | nil => exact iff_of_true rfl rfl
  | cons b rest => exact iff_of_false nofun nofun

/-- One more candidate is kept if it is nearer than all before. -/
theorem nearest_concat {l : List (Float × α)} (h : nearest l = some a) (b : Float × α) :
    nearest (l ++ [b]) = some (if b.1 < a.1 then b else a) := by
  cases l with
  | nil => cases h
  | cons c rest =>
    have hfold : rest.foldl (fun best b => if b.1 < best.1 then b else best) c = a :=
      Option.some.inj h
    rw [List.cons_append, nearest, List.foldl_append, hfold]
    rfl

/-- `a` comes from a member of the list; what comes from the members before has a greater gap, and
what comes from those behind no smaller one. -/
def Splits (f : β → Option (Float × α)) (es : List β) (a : Float × α) : Prop :=
  ∃ before e after, es = before ++ e :: after ∧ f e = some a ∧
    (∀ d ∈ before, ∀ b, f d = some b → a.1 < b.1) ∧ ∀ d ∈ after, ∀ b, f d = some b → a.1 ≤ b.1

/-- Nothing that comes from the list has a smaller gap. -/
theorem Splits.le {es : List β} (h : Splits f es a)
    (hnumber : ∀ e ∈ es, ∀ b, f e = some b → b.1.toModel.unpack ≠ .notANumber) {d : β}
    (hd : d ∈ es) {b : Float × α} (hb : f d = some b) : a.1 ≤ b.1 := by
  obtain ⟨before, e, after, rfl, he, hbefore, hafter⟩ := h
  rcases List.mem_append.mp hd with hmem | hmem
  · exact Double.le_of_lt (hbefore d hmem b hb)
  · rcases List.mem_cons.mp hmem with rfl | hmem
    · obtain rfl : b = a := Option.some.inj (hb.symm.trans he)
      have hself := hnumber d hd b hb
      exact (Double.le_iff_place hself hself).mpr le_rfl
    · exact hafter d hmem b hb

/-- One more member changes nothing if no smaller gap comes from it. -/
theorem Splits.concat {es : List β} (h : Splits f es a) {d : β}
    (hd : ∀ b, f d = some b → a.1 ≤ b.1) : Splits f (es ++ [d]) a := by
  obtain ⟨before, e, after, rfl, he, hbefore, hafter⟩ := h
  refine ⟨before, e, after ++ [d], by rw [List.append_assoc, List.cons_append], he, hbefore, ?_⟩
  intro c hc b hb
  rcases List.mem_append.mp hc with hc | hc
  · exact hafter c hc b hb
  · rw [List.mem_singleton] at hc
    exact hd b (hc ▸ hb)

/-- **The fold keeps the first of the least,** if all the gaps are numbers. -/
theorem splits_of_nearest {es : List β}
    (hnumber : ∀ e ∈ es, ∀ b, f e = some b → b.1.toModel.unpack ≠ .notANumber)
    (h : nearest (es.filterMap f) = some a) : Splits f es a := by
  induction es using List.reverseRecOn generalizing a with
  | nil => cases h
  | append_singleton es d ih =>
    have hfront : ∀ e ∈ es, ∀ b, f e = some b → b.1.toModel.unpack ≠ .notANumber :=
      fun e he => hnumber e (List.mem_append_left [d] he)
    rw [List.filterMap_append] at h
    cases hd : f d with
    | none =>
      rw [List.filterMap_cons_none hd, List.filterMap_nil, List.append_nil] at h
      refine (ih hfront h).concat fun b hb => ?_
      rw [hd] at hb
      cases hb
    | some b =>
      have hlast : d ∈ es ++ [d] := List.mem_append_right es (List.mem_singleton_self d)
      have hb : b.1.toModel.unpack ≠ .notANumber := hnumber d hlast b hd
      rw [List.filterMap_cons_some hd, List.filterMap_nil] at h
      cases hnear : nearest (es.filterMap f) with
      | none =>
        -- it is the first from which anything comes
        rw [nearest_eq_none_iff] at hnear
        rw [hnear, List.nil_append] at h
        obtain rfl : b = a := Option.some.inj h
        refine ⟨es, d, [], rfl, hd, fun c hc b' hb' => ?_, nofun⟩
        rw [List.filterMap_eq_nil_iff.mp hnear c hc] at hb'
        cases hb'
      | some best =>
        have hsplits : Splits f es best := ih hfront hnear
        rw [nearest_concat hnear] at h
        split at h
        · next hless =>
          obtain rfl : b = a := Option.some.inj h
          exact ⟨es, d, [], rfl, hd, fun c hc b' hb' =>
            Double.lt_of_lt_of_le hless (hsplits.le hfront hc hb'), nofun⟩
        · next hkept =>
          obtain rfl : best = a := Option.some.inj h
          refine hsplits.concat fun b' hb' => ?_
          obtain rfl : b = b' := Option.some.inj (hd.symm.trans hb')
          have hbest : best.1.toModel.unpack ≠ .notANumber := by
            obtain ⟨before, e, after, rfl, he, -⟩ := hsplits
            exact hfront e (List.mem_append_right before List.mem_cons_self) best he
          exact (Double.not_lt_iff_le hb hbest).mp hkept

end Nearest

/-! ### What lies beneath -/

section Beneath

/-- How far above or below a point the graph passes. -/
def gap (r : Row) (x y : Float) : Float := (r.valueAt x - y).abs

variable (s : Scene) (x y reach : Float)

/-- **The graph passes near enough, and none passes nearer;** of those that pass as near it has
the lowest number. -/
structure Nearest (id : Nat) (r : Row) : Prop where
  get?_eq : s.rows.get? id = some r
  isExplicit : r.equation.isExplicit = true
  near : gap r x y < reach
  least : ∀ id' r', s.rows.get? id' = some r' → r'.equation.isExplicit = true →
    ¬gap r' x y < gap r x y
  first : ∀ id' r', s.rows.get? id' = some r' → r'.equation.isExplicit = true →
    gap r' x y ≤ gap r x y → id ≤ id'

/-- No landmark of a list is near enough. -/
def NoneNear (ps : List Landmark) : Prop := ∀ p ∈ ps, ¬p.distance x y < reach

/-- **What lies beneath a point of the plane,** as far as the reach goes. -/
inductive Beneath : Option Hover → Prop where
  /-- The first intersection that is near enough. -/
  | intersection {before after : List Landmark} {p : Landmark} :
      s.intersections = before ++ p :: after → p.distance x y < reach →
        NoneNear x y reach before → Beneath (some ⟨p, true⟩)
  /-- The first intercept that is near enough, if no intersection is. -/
  | intercept {before after : List Landmark} {p : Landmark} :
      NoneNear x y reach s.intersections → s.intercepts = before ++ p :: after →
        p.distance x y < reach → NoneNear x y reach before → Beneath (some ⟨p, true⟩)
  /-- The point of the nearest graph, if no landmark is near enough. -/
  | graph {id : Nat} {r : Row} :
      NoneNear x y reach s.intersections → NoneNear x y reach s.intercepts →
        Nearest s x y reach id r → Beneath (some ⟨⟨x, r.valueAt x, r.color⟩, false⟩)
  /-- Nothing is near enough. -/
  | nothing :
      NoneNear x y reach s.intersections → NoneNear x y reach s.intercepts →
        (∀ id r, s.rows.get? id = some r → r.equation.isExplicit = true → ¬gap r x y < reach) →
          Beneath none

end Beneath

section Hover

variable {s : Scene} {x y reach : Float}

/-- What the graph of a row has to offer: its gap and its point, if it is near enough. -/
def offer (x y reach : Float) (r : Row) : Option (Float × Landmark) :=
  if r.equation.isExplicit = true ∧ gap r x y < reach then
    some (gap r x y, ⟨x, r.valueAt x, r.color⟩)
  else none

theorem offer_eq_some_iff {r : Row} {a : Float × Landmark} : offer x y reach r = some a ↔
    r.equation.isExplicit = true ∧ gap r x y < reach ∧
      a = (gap r x y, ⟨x, r.valueAt x, r.color⟩) := by
  rw [offer, Option.ite_none_right_eq_some, Option.some_inj, and_assoc, @eq_comm _ a]

/-- **What is found,** landmarks first. -/
theorem hover_eq (s : Scene) (px py : Float) {x y reach : Float}
    (hplace : s.viewport.toPlane px py = (x, y))
    (hreach : s.settings.snapThreshold / s.viewport.scale = reach) : s.hover px py =
      match (s.intersections.find? fun p => decide (p.distance x y < reach)).or
        (s.intercepts.find? fun p => decide (p.distance x y < reach)) with
      | some p => some ⟨p, true⟩
      | none => (nearest (s.rows.entries.filterMap fun e => offer x y reach e.2)).map
          fun a => ⟨a.2, false⟩ := by
  have hoffers : ((s.rows.values.filter fun r => r.equation.isExplicit).filterMap fun r =>
      if (r.valueAt x - y).abs < reach then
        some ((r.valueAt x - y).abs, (⟨x, r.valueAt x, r.color⟩ : Landmark))
      else none) = s.rows.entries.filterMap fun e => offer x y reach e.2 := by
    rw [List.filterMap_filter, Keyed.values, List.filterMap_map]
    refine List.filterMap_congr fun e _ => ?_
    rw [Function.comp_apply, offer, gap]
    cases e.2.equation.isExplicit <;> simp
  unfold hover
  dsimp only
  rw [hplace, hreach]
  exact hoffers ▸ rfl

theorem find?_near_eq_none_iff {ps : List Landmark} :
    (ps.find? fun p => decide (p.distance x y < reach)) = none ↔ NoneNear x y reach ps := by
  rw [List.find?_eq_none]
  simp only [decide_eq_true_eq, NoneNear]

theorem find?_near_eq_some_iff {ps : List Landmark} {p : Landmark} :
    (ps.find? fun p => decide (p.distance x y < reach)) = some p ↔
      ∃ before after, ps = before ++ p :: after ∧ p.distance x y < reach ∧
        NoneNear x y reach before := by
  rw [List.find?_eq_some_iff_append]
  simp only [decide_eq_true_eq, Bool.not_eq_true', decide_eq_false_iff_not, NoneNear]
  constructor
  · rintro ⟨hnear, before, after, hps, hbefore⟩
    exact ⟨before, after, hps, hnear, hbefore⟩
  · rintro ⟨before, after, hps, hnear, hbefore⟩
    exact ⟨hnear, before, after, hps, hbefore⟩

/-- **The nearest graph is the one whose offer is the best.** -/
theorem nearest_of_offers {a : Float × Landmark}
    (h : nearest (s.rows.entries.filterMap fun e => offer x y reach e.2) = some a) :
    ∃ id r, Nearest s x y reach id r ∧ a.2 = ⟨x, r.valueAt x, r.color⟩ := by
  have hnumber : ∀ e ∈ s.rows.entries, ∀ b, offer x y reach e.2 = some b →
      b.1.toModel.unpack ≠ .notANumber := by
    intro e _ b hb
    obtain ⟨-, hnear, rfl⟩ := offer_eq_some_iff.mp hb
    exact (Double.isNumber_of_lt hnear).1
  have hsplits : Splits (fun e => offer x y reach e.2) s.rows.entries a :=
    splits_of_nearest hnumber h
  have hoffered {r : Row} (hexplicit : r.equation.isExplicit = true) (hnear : gap r x y < reach) :
      offer x y reach r = some (gap r x y, ⟨x, r.valueAt x, r.color⟩) :=
    offer_eq_some_iff.mpr ⟨hexplicit, hnear, rfl⟩
  have ⟨before, ⟨id, r⟩, after, hentries, hoffer, hbefore, hafter⟩ := hsplits
  obtain ⟨hexplicit, hnear, rfl⟩ := offer_eq_some_iff.mp hoffer
  refine ⟨id, r, ⟨?_, hexplicit, hnear, ?_, ?_⟩, rfl⟩
  · rw [Keyed.get?_eq_some_iff, hentries]
    exact List.mem_append_right before List.mem_cons_self
  · -- a graph that passes nearer is near enough, so it is among the offers
    intro id' r' hr' hexplicit' hless
    have hnear' : gap r' x y < reach := Double.lt_of_lt_of_le hless (Double.le_of_lt hnear)
    have hle := hsplits.le hnumber (Keyed.get?_eq_some_iff.mp hr') (hoffered hexplicit' hnear')
    exact Double.not_lt_of_le hle hless
  · intro id' r' hr' hexplicit' hle
    have hnear' : gap r' x y < reach := Double.lt_of_le_of_lt hle hnear
    have hascending := s.rows.ascending
    rw [hentries, List.pairwise_append, List.pairwise_cons] at hascending
    rw [Keyed.get?_eq_some_iff, hentries] at hr'
    rcases List.mem_append.mp hr' with hmem | hmem
    · -- the graphs with lower numbers pass farther away
      have hless := hbefore _ hmem _ (hoffered hexplicit' hnear')
      exact absurd hless (Double.not_lt_of_le hle)
    · rcases List.mem_cons.mp hmem with heq | hmem
      · rw [(Prod.mk.inj heq).1]
      · exact Nat.le_of_lt (hascending.2.1.1 _ hmem)

/-- A scene has one nearest graph at most. -/
theorem Nearest.unique {id id' : Nat} {r r' : Row} (h : Nearest s x y reach id r)
    (h' : Nearest s x y reach id' r') : r = r' := by
  have hnumber : (gap r x y).toModel.unpack ≠ .notANumber := (Double.isNumber_of_lt h.near).1
  have hnumber' : (gap r' x y).toModel.unpack ≠ .notANumber := (Double.isNumber_of_lt h'.near).1
  have hle : gap r x y ≤ gap r' x y :=
    (Double.not_lt_iff_le hnumber' hnumber).mp (h.least id' r' h'.get?_eq h'.isExplicit)
  have hge : gap r' x y ≤ gap r x y :=
    (Double.not_lt_iff_le hnumber hnumber').mp (h'.least id r h.get?_eq h.isExplicit)
  have hid : id = id' := Nat.le_antisymm (h.first id' r' h'.get?_eq h'.isExplicit hge)
    (h'.first id r h.get?_eq h.isExplicit hle)
  rw [hid] at h
  exact Option.some.inj (h.get?_eq.symm.trans h'.get?_eq)

/-- Without an offer no graph is near enough. -/
theorem offers_eq_nil_iff : (s.rows.entries.filterMap fun e => offer x y reach e.2) = [] ↔
    ∀ id r, s.rows.get? id = some r → r.equation.isExplicit = true → ¬gap r x y < reach := by
  rw [List.filterMap_eq_nil_iff]
  constructor
  · intro h id r hr hexplicit hnear
    have hnone := h _ (Keyed.get?_eq_some_iff.mp hr)
    rw [offer_eq_some_iff.mpr ⟨hexplicit, hnear, rfl⟩] at hnone
    cases hnone
  · intro h e he
    refine if_neg ?_
    rintro ⟨hexplicit, hnear⟩
    exact h e.1 e.2 (Keyed.get?_eq_some_iff.mpr he) hexplicit hnear

/-- Something or nothing lies beneath every point. -/
theorem exists_beneath (s : Scene) (x y reach : Float) : ∃ o, Beneath s x y reach o := by
  -- the tiers one behind the other, as they are looked through
  cases hcrossing : s.intersections.find? fun p => decide (p.distance x y < reach) with
  | some p =>
    obtain ⟨before, after, hps, hnear, hbefore⟩ := find?_near_eq_some_iff.mp hcrossing
    exact ⟨_, .intersection hps hnear hbefore⟩
  | none =>
    rw [find?_near_eq_none_iff] at hcrossing
    cases haxis : s.intercepts.find? fun p => decide (p.distance x y < reach) with
    | some p =>
      obtain ⟨before, after, hps, hnear, hbefore⟩ := find?_near_eq_some_iff.mp haxis
      exact ⟨_, .intercept hcrossing hps hnear hbefore⟩
    | none =>
      rw [find?_near_eq_none_iff] at haxis
      cases hoffers : nearest (s.rows.entries.filterMap fun e => offer x y reach e.2) with
      | some a =>
        obtain ⟨id, r, hnearest, -⟩ := nearest_of_offers hoffers
        exact ⟨_, .graph hcrossing haxis hnearest⟩
      | none => exact ⟨_, .nothing hcrossing haxis
          (offers_eq_nil_iff.mp (nearest_eq_none_iff.mp hoffers))⟩

/-- What lies beneath the point of a pixel is what is found under the pixel. -/
theorem Beneath.hover_eq {px py : Float} {o : Option Hover}
    (hplace : s.viewport.toPlane px py = (x, y))
    (hreach : s.settings.snapThreshold / s.viewport.scale = reach) (h : Beneath s x y reach o) :
    s.hover px py = o := by
  rw [Scene.hover_eq s px py hplace hreach]
  cases h with
  | intersection hps hnear hbefore =>
    rw [find?_near_eq_some_iff.mpr ⟨_, _, hps, hnear, hbefore⟩, Option.some_or]
  | intercept hcrossing hps hnear hbefore =>
    rw [find?_near_eq_none_iff.mpr hcrossing, Option.none_or,
      find?_near_eq_some_iff.mpr ⟨_, _, hps, hnear, hbefore⟩]
  | nothing hcrossing haxis hnone =>
    rw [find?_near_eq_none_iff.mpr hcrossing, find?_near_eq_none_iff.mpr haxis, Option.none_or,
      offers_eq_nil_iff.mpr hnone]
    rfl
  | @graph id r hcrossing haxis hnearest =>
    rw [find?_near_eq_none_iff.mpr hcrossing, find?_near_eq_none_iff.mpr haxis, Option.none_or]
    cases hoffers : nearest (s.rows.entries.filterMap fun e => offer x y reach e.2) with
    | none =>
      have hfar := offers_eq_nil_iff.mp (nearest_eq_none_iff.mp hoffers)
      exact absurd hnearest.near (hfar id r hnearest.get?_eq hnearest.isExplicit)
    | some a =>
      obtain ⟨id', r', hnearest', hpoint⟩ := nearest_of_offers hoffers
      dsimp only
      rw [Option.map_some, hpoint, hnearest'.unique hnearest]

end Hover

/-! ### Clicks -/

/-- A point is pinned if no pin is next to it; else the pins next to it go. -/
theorem togglePin_eq (s : Scene) (x y : Float) : s.togglePin x y =
    if ∀ pin ∈ s.pins, pinTolerance ≤ Double.hypot (pin.1 - x) (pin.2 - y) then
      ({ s with pins := s.pins ++ [(x, y)] }, true)
    else ({ s with pins := pinsAwayFrom s.pins x y }, false) := by
  have hall : (pinsAwayFrom s.pins x y).length = s.pins.length ↔
      ∀ pin ∈ s.pins, pinTolerance ≤ Double.hypot (pin.1 - x) (pin.2 - y) := by
    rw [pinsAwayFrom, List.length_filter_eq_length_iff]
    simp only [decide_eq_true_eq]
  unfold togglePin
  dsimp only
  split
  · next hlength =>
    rw [if_pos (hall.mp hlength), pinsAwayFrom, List.filter_eq_self.mpr]
    simpa only [decide_eq_true_eq] using hall.mp hlength
  · next hlength => rw [if_neg (hall.not.mp hlength)]

/-- **The pointer finds landmarks before graphs, and only landmarks are pinned.** Under a pixel
lies the first intersection that is near enough; without one, the first intercept; without either,
the point of the nearest graph. A click on a landmark pins that very point, or takes away the pins
next to it, and changes nothing else; any other click changes nothing. -/
theorem beneath_pointer (s : Scene) (px py : Float) :
    (∀ o, s.hover px py = o ↔ Beneath s (s.viewport.toPlane px py).1 (s.viewport.toPlane px py).2
      (s.settings.snapThreshold / s.viewport.scale) o) ∧
    (∀ h, s.hover px py = some h → h.snappable = true → s.click px py =
      if ∀ pin ∈ s.pins, pinTolerance ≤ Double.hypot (pin.1 - h.point.x) (pin.2 - h.point.y) then
        ({ s with pins := s.pins ++ [(h.point.x, h.point.y)] }, some true)
      else ({ s with pins := pinsAwayFrom s.pins h.point.x h.point.y }, some false)) ∧
    ((∀ h, s.hover px py = some h → h.snappable = false) → s.click px py = (s, none)) := by
  refine ⟨fun o => ⟨?_, fun h => h.hover_eq rfl rfl⟩, ?_, ?_⟩
  · rintro rfl
    obtain ⟨o, ho⟩ := exists_beneath s (s.viewport.toPlane px py).1 (s.viewport.toPlane px py).2
      (s.settings.snapThreshold / s.viewport.scale)
    exact ho.hover_eq rfl rfl ▸ ho
  · intro h hh hsnappable
    rw [click, hh, Option.filter_some, if_pos hsnappable]
    dsimp only
    rw [togglePin_eq]
    split <;> rfl
  · intro hnone
    have hfilter : (s.hover px py).filter (·.snappable) = none := by
      cases hh : s.hover px py with
      | none => rfl
      | some h => rw [Option.filter_some, hnone h hh, if_neg Bool.false_ne_true]
    rw [click, hfilter]

end Scene

end CurvePlot
