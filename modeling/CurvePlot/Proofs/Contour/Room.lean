import CurvePlot.Command.Run
import CurvePlot.Proofs.Double.Whole
/-!
# When there is room for the lattices of a pass

How many cells a pass lays over a length is computed in doubles: a quotient is rounded up and made a
count of 64 bits. The quotient may be as great as a double, and a count may not, so a greater one
is cut off at `2 ^ 64 - 1` (`cellCount_eq_min`). Only quotients that are infinite or undefined are put
aside. The vertices of so many cells are more than 64 bits can count and more than an array can
hold, and the pass fails (`coarse_overflow`).

The cutting off does no other harm: a lattice is too great as it is counted exactly if it is too
great as it is needed (`vertexCount_min_lt_iff`). So the passes succeed exactly if the needed
lattices are small enough, and then they are the passes without a limit (`passes_succeed`). A
surface that is no more than `2 ^ 29` cells wide and high is small enough (`coarse?_eq_some_of_le`).

A run asks beforehand. Where it goes on, every pass that it makes succeeds (`coarse?_of_run`,
`fine?_of_run`), so that what it shows is what the passes leave.
-/

namespace CurvePlot

open Double

namespace Lattice

/-- A wider and higher lattice has more vertices. -/
theorem vertexCount_mono {a a' b b' : ℕ} (ha : a ≤ a') (hb : b ≤ b') :
    vertexCount a b ≤ vertexCount a' b' :=
  Nat.mul_le_mul (Nat.succ_le_succ ha) (Nat.succ_le_succ hb)

/-- Counts that are cut off at the greatest word make a great lattice if they are cut off at all. -/
theorem vertexCount_min_lt_iff {a b limit : ℕ} (h : limit ≤ 2 ^ 64) :
    vertexCount (min a (2 ^ 64 - 1)) (min b (2 ^ 64 - 1)) < limit ↔ vertexCount a b < limit := by
  refine ⟨fun hlt => ?_,
    (vertexCount_mono (Nat.min_le_left _ _) (Nat.min_le_left _ _)).trans_lt⟩
  -- neither count can have been cut off, since the lattice has at least as many vertices
  have hcolumns : min a (2 ^ 64 - 1) + 1 < limit :=
    (Nat.le_mul_of_pos_right _ (Nat.succ_pos _)).trans_lt hlt
  have hrows : min b (2 ^ 64 - 1) + 1 < limit :=
    (Nat.le_mul_of_pos_left _ (Nat.succ_pos _)).trans_lt hlt
  rwa [Nat.min_eq_left (by omega), Nat.min_eq_left (by omega)] at hlt

/-- There is room for less than `2 ^ 60` vertices. -/
theorem hasRoom_iff {columns rows : ℕ} :
    hasRoom columns rows = true ↔ vertexCount columns rows < 2 ^ 60 := decide_eq_true_iff

/-- A square lattice is small exactly if its side is. -/
theorem vertexCount_self_lt_iff (n k : ℕ) : vertexCount n n < 2 ^ (2 * k) ↔ n + 1 < 2 ^ k := by
  rw [vertexCount, Nat.mul_comm 2 k, Nat.pow_mul, Nat.pow_two]
  exact Nat.mul_self_lt_mul_self_iff

end Lattice

namespace Contour

/-! ### The passes with a limit -/

section Limit

variable {α : Type} [Scalar α] (field : α → α → α) (view : Viewport α) (s : Settings α)

/-- A lattice is made where there is room for it. -/
theorem Grid.lattice?_eq (g : Grid α) : g.lattice? field =
    if Lattice.hasRoom g.columns g.rows then some (g.lattice field) else none := rfl

/-- A coarse pass that does not fail is a coarse pass. -/
theorem coarse?_eq :
    coarse? field view s = if coarseFails view s then none else some (coarse field view s) := by
  unfold coarse? coarseFails coarse Grid.overflows
  simp only [Grid.lattice?_eq]
  cases (coarseGrid view s).isDegenerate with
  | true => rfl
  | false => cases Lattice.hasRoom (coarseGrid view s).columns (coarseGrid view s).rows <;> rfl

/-- A cell is refined where there is room for its parts. -/
theorem refineCell?_eq (outer : Lattice α) (cell : α) (parts : Nat) (i j : Nat) :
    refineCell? field outer cell parts i j =
      if Lattice.hasRoom parts parts then some (refineCell field outer cell parts i j)
      else none := by
  unfold refineCell? Lattice.evaluate?
  cases Lattice.hasRoom parts parts <;> rfl

/-- Where there is no room, no cell can be refined; and where there is, all can. -/
theorem refine?_eq (outer : Lattice α) (cell : α) (parts : Nat) :
    refine? field outer cell parts =
      if !Lattice.hasRoom parts parts && outer.cells.any fun (i, j) => outer.straddles i j then none
      else some ((outer.cells.filter fun (i, j) => outer.straddles i j).flatMap fun (i, j) =>
        refineCell field outer cell parts i j) := by
  unfold refine?
  simp only [refineCell?_eq]
  cases Lattice.hasRoom parts parts with
  | true =>
    -- where there is room, no cell fails
    exact congrArg (Option.map List.flatten) List.mapM_pure
  | false =>
    -- where there is none, the first crossed cell fails, if there is one
    cases hcrossed : outer.cells.filter fun c => outer.straddles c.1 c.2 with
    | nil =>
      have hnone : (outer.cells.any fun c => outer.straddles c.1 c.2) = false := by
        rw [List.any_eq_false]
        exact List.filter_eq_nil_iff.mp hcrossed
      rw [hnone]
      rfl
    | cons c rest =>
      have hc : c ∈ outer.cells.filter fun c => outer.straddles c.1 c.2 :=
        hcrossed ▸ List.mem_cons_self
      have hsome : (outer.cells.any fun c => outer.straddles c.1 c.2) = true :=
        List.any_eq_true.mpr ⟨c, List.mem_filter.mp hc⟩
      rw [hsome]
      rfl

/-- A fine pass that does not fail is a fine pass. -/
theorem fine?_eq (cancelled : Bool) :
    fine? field view s cancelled =
      if fineFails field view s cancelled then none else some (fine field view s cancelled) := by
  unfold fine? fineFails fine Grid.overflows
  simp only [Grid.lattice?_eq]
  cases (outerGrid view s).isDegenerate with
  | true => rfl
  | false =>
    cases Lattice.hasRoom (outerGrid view s).columns (outerGrid view s).rows with
    | false => rfl
    | true =>
      cases cancelled with
      | true => rfl
      | false =>
        let outer := (outerGrid view s).lattice field
        let cell := (outerGrid view s).cell / Scalar.ofNat (parts s)
        show (refine? field outer cell (parts s)).map some =
          if !Lattice.hasRoom (parts s) (parts s) &&
              outer.cells.any fun (i, j) => outer.straddles i j then none
          else some (some (refine field (outerGrid view s) s.fineSubdivisions))
        rw [refine?_eq]
        split <;> rfl

end Limit

/-! ### Cells -/

/-- **How many cells cover a length,** however many these are. An infinite or undefined quotient
asks for none. -/
def need (length cell : Float) : ℕ :=
  if (length / cell).isFinite then ⌈toRat (length / cell)⌉₊ else 0

/-- **The number of cells is cut off** at the greatest count of 64 bits. -/
theorem cellCount_eq_min (length cell : Float) :
    cellCount length cell = min (need length cell) (2 ^ 64 - 1) := by
  unfold cellCount need
  generalize length / cell = v
  -- the quotient is all that counts, so forget where it comes from
  show (if (ceil v).isFinite && decide (0.0 < ceil v) then toNat (ceil v) else 0) = _
  cases hv : v.isFinite with
  | false =>
    -- no cells are asked for, and the bound is no matter
    rw [ceil_of_not_finite hv]
    rfl
  | true =>
    -- the quotient is rounded up exactly
    obtain ⟨hfinite, hvalue⟩ := toRat_ceil hv
    have hpos : (0.0 : Float) < ceil v ↔ 0 < ⌈toRat v⌉ := by
      rw [lt_iff_toRat isFinite_zero hfinite, toRat_zero, hvalue, Int.cast_pos]
    have hcount : ⌊toRat (ceil v)⌋₊ = ⌈toRat v⌉₊ := by
      rw [hvalue, ← Int.floor_toNat, Int.floor_intCast, Int.ceil_toNat]
    rw [hfinite, Bool.true_and, if_pos rfl]
    by_cases h : 0 < ⌈toRat v⌉
    · -- the count is that of the real quotient, until it is cut off
      rw [if_pos (decide_eq_true (hpos.mpr h)), toNat_eq_min hfinite, hcount]
    · -- nothing or less is to be covered
      have hzero : ⌈toRat v⌉₊ = 0 := by
        rw [← Int.ceil_toNat]
        omega
      rw [if_neg (by rw [decide_eq_true_eq, hpos]; exact h), hzero, Nat.zero_min]

/-- A length that is no more than some cells long needs no more cells. -/
theorem need_le {length cell : Float} {n : ℕ} (hn : n < 2 ^ 53) (hlength : length.isFinite = true)
    (hcell : cell.isFinite = true) (hpos : 0 < toRat cell) (h : toRat length ≤ n * toRat cell) :
    need length cell ≤ n := by
  unfold need
  split
  · -- a quotient of at most so many cells is not rounded above that number, which is a double
    next hfinite =>
    have hrounds := rounds_float_div hlength hcell hpos.ne'
    obtain ⟨u, hu, hufinite, hvalue⟩ : Representable (n : ℚ) := by
      have hscaled := representable_mul_two_pow hn (e := 0) (by decide) (by decide)
      rwa [zpow_zero, mul_one] at hscaled
    have hquotient : toRat length / toRat cell ≤ value u := by
      rw [hvalue]
      exact (div_le_iff₀ hpos).mpr h
    rw [Nat.ceil_le, ← hvalue]
    exact (value_le_iff (packed _) hu hfinite hufinite).mpr
      (hrounds.mono (.self hu hufinite) hquotient)
  · exact Nat.zero_le n

section Doubles

variable (view : Viewport Float) (s : Settings Float)

/-- The columns and rows that cover the visible region. -/
def coarseNeed : ℕ × ℕ := (need view.width s.coarseCell, need view.height s.coarseCell)

/-- The columns and rows that cover the region of the fine pass. -/
def outerNeed : ℕ × ℕ :=
  let halfWidth := view.width / view.scale / 2.0 * s.fineRegion
  let halfHeight := view.height / view.scale / 2.0 * s.fineRegion
  let cell := s.fineCell / view.scale
  (need (2.0 * halfWidth) cell, need (2.0 * halfHeight) cell)

/-- Whether a lattice is too great is told by the columns and rows that are needed, -/
theorem coarseGrid_lt_iff {limit : ℕ} (h : limit ≤ 2 ^ 64) :
    Lattice.vertexCount (coarseGrid view s).columns (coarseGrid view s).rows < limit ↔
      Lattice.vertexCount (coarseNeed view s).1 (coarseNeed view s).2 < limit := by
  rw [coarseGrid, cellCount_eq_min, cellCount_eq_min]
  exact Lattice.vertexCount_min_lt_iff h

/-- and so it is for the fine pass. -/
theorem outerGrid_lt_iff {limit : ℕ} (h : limit ≤ 2 ^ 64) :
    Lattice.vertexCount (outerGrid view s).columns (outerGrid view s).rows < limit ↔
      Lattice.vertexCount (outerNeed view s).1 (outerNeed view s).2 < limit := by
  rw [outerGrid, cellCount_eq_min, cellCount_eq_min]
  exact Lattice.vertexCount_min_lt_iff h

/-- The edge of an outer cell is cut into at least one part. -/
theorem parts_lt_iff {k : ℕ} (hk : 2 ≤ k) :
    Lattice.vertexCount (parts s) (parts s) < 2 ^ (2 * k) ↔ s.fineSubdivisions < 2 ^ k - 1 := by
  have hpow : 2 ^ 2 ≤ 2 ^ k := Nat.pow_le_pow_right (by decide) hk
  rw [Lattice.vertexCount_self_lt_iff, parts]
  omega

/-- When the coarse pass fails: there is something to trace, and the lattice is too great. -/
theorem coarseFails_iff : coarseFails view s = true ↔ ¬ ((coarseGrid view s).isDegenerate = true ∨
    Lattice.vertexCount (coarseNeed view s).1 (coarseNeed view s).2 < 2 ^ 60) := by
  rw [← coarseGrid_lt_iff view s (by decide), ← Lattice.hasRoom_iff, coarseFails, Grid.overflows,
    Bool.and_eq_true, Bool.not_eq_true', Bool.not_eq_true', not_or, Bool.not_eq_true,
    Bool.not_eq_true]

/-- When the fine pass fails: there is something to trace, and the outer lattice is too great or
else a refined cell is. -/
theorem fineFails_iff (field : Float → Float → Float) (cancelled : Bool) :
    fineFails field view s cancelled = true ↔ ¬ ((outerGrid view s).isDegenerate = true ∨
      Lattice.vertexCount (outerNeed view s).1 (outerNeed view s).2 < 2 ^ 60 ∧
        (cancelled = true ∨ s.fineSubdivisions < 2 ^ 30 - 1 ∨
          ∀ c ∈ ((outerGrid view s).lattice field).cells,
            ((outerGrid view s).lattice field).straddles c.1 c.2 = false)) := by
  have hparts : s.fineSubdivisions < 2 ^ 30 - 1 ↔ Lattice.hasRoom (parts s) (parts s) = true :=
    (parts_lt_iff s (k := 30) (by decide)).symm.trans Lattice.hasRoom_iff.symm
  have hcells : (∀ c ∈ ((outerGrid view s).lattice field).cells,
      ((outerGrid view s).lattice field).straddles c.1 c.2 = false) ↔
        (((outerGrid view s).lattice field).cells.any fun (i, j) =>
          ((outerGrid view s).lattice field).straddles i j) = false := by
    rw [List.any_eq_false]
    simp only [Bool.not_eq_true]
  rw [← outerGrid_lt_iff view s (by decide), ← Lattice.hasRoom_iff, hparts, hcells, fineFails,
    Grid.overflows]
  dsimp only
  -- what is left is about five truth values
  generalize (((outerGrid view s).lattice field).cells.any fun (i, j) =>
    ((outerGrid view s).lattice field).straddles i j) = crossed
  generalize (outerGrid view s).isDegenerate = degenerate
  generalize Lattice.hasRoom (outerGrid view s).columns (outerGrid view s).rows = fits
  generalize Lattice.hasRoom (parts s) (parts s) = partsFit
  revert degenerate fits cancelled partsFit crossed
  decide

/-- **When the passes succeed.** The vertices of a lattice are as many as 64 bits can count exactly
if those that are needed are, and those of a refined cell if its edge is cut into less than
`2 ^ 32 - 1` parts. Each pass succeeds if it has nothing to trace, or room for what it needs, and
then it leaves what it leaves without a limit. Otherwise it fails. -/
theorem passes_succeed (field : Float → Float → Float) (cancelled : Bool) :
    let coarse := coarseGrid view s
    let outer := outerGrid view s
    let coarseCount := Lattice.vertexCount (coarseNeed view s).1 (coarseNeed view s).2
    let outerCount := Lattice.vertexCount (outerNeed view s).1 (outerNeed view s).2
    (Lattice.vertexCount coarse.columns coarse.rows < 2 ^ 64 ↔ coarseCount < 2 ^ 64) ∧
    (Lattice.vertexCount outer.columns outer.rows < 2 ^ 64 ↔ outerCount < 2 ^ 64) ∧
    (Lattice.vertexCount (parts s) (parts s) < 2 ^ 64 ↔ s.fineSubdivisions < 2 ^ 32 - 1) ∧
    coarse? field view s =
      (if coarse.isDegenerate ∨ coarseCount < 2 ^ 60 then some (Contour.coarse field view s)
      else none) ∧
    fine? field view s cancelled =
      if outer.isDegenerate ∨ outerCount < 2 ^ 60 ∧ (cancelled ∨ s.fineSubdivisions < 2 ^ 30 - 1 ∨
          ∀ c ∈ (outer.lattice field).cells, (outer.lattice field).straddles c.1 c.2 = false)
      then some (fine field view s cancelled) else none := by
  refine ⟨coarseGrid_lt_iff view s le_rfl, outerGrid_lt_iff view s le_rfl,
    parts_lt_iff s (k := 32) (by decide), ?_, ?_⟩
  · rw [coarse?_eq, if_congr (coarseFails_iff view s) rfl rfl, ite_not]
  · rw [fine?_eq, if_congr (fineFails_iff view s field cancelled) rfl rfl, ite_not]

/-- **A tiny cell makes the coarse pass fail.** All that the count is computed from is finite, and
there is a lattice to be traced. But it has more vertices than 64 bits can count. -/
theorem coarse_overflow :
    let view : Viewport Float := .centered 4.0 4.0 50.0
    let s : Settings Float := { Settings.standard with coarseCell := 1e-300 }
    (view.width.isFinite && view.height.isFinite && s.coarseCell.isFinite && s.fineCell.isFinite &&
      s.fineRegion.isFinite) = true ∧
      (coarseGrid view s).isDegenerate = false ∧
      ¬ Lattice.vertexCount (coarseGrid view s).columns (coarseGrid view s).rows < 2 ^ 64 ∧
      coarse? (fun _ _ => 1.0) view s = none := by
  intro view s
  have hfails : coarseFails view s = true := by decide +kernel
  refine ⟨by decide +kernel, by decide +kernel, by decide +kernel, ?_⟩
  rw [coarse?_eq, if_pos hfails]

/-- A surface that is no more than `2 ^ 29` cells wide and high is not too great. -/
theorem coarse?_eq_some_of_le (field : Float → Float → Float) (hcell : s.coarseCell.isFinite = true)
    (hpos : 0 < toRat s.coarseCell) (hwidth : view.width.isFinite = true)
    (hheight : view.height.isFinite = true) (hw : toRat view.width ≤ 2 ^ 29 * toRat s.coarseCell)
    (hh : toRat view.height ≤ 2 ^ 29 * toRat s.coarseCell) :
    coarse? field view s = some (coarse field view s) := by
  have hcolumns : (coarseNeed view s).1 ≤ 2 ^ 29 :=
    need_le (by decide) hwidth hcell hpos (by exact_mod_cast hw)
  have hrows : (coarseNeed view s).2 ≤ 2 ^ 29 :=
    need_le (by decide) hheight hcell hpos (by exact_mod_cast hh)
  have hcount := (Lattice.vertexCount_mono hcolumns hrows).trans_lt
    (by decide : Lattice.vertexCount (2 ^ 29) (2 ^ 29) < 2 ^ 60)
  have hnot : ¬ coarseFails view s = true := by
    rw [coarseFails_iff, not_not]
    exact .inr hcount
  rw [coarse?_eq, if_neg hnot]

end Doubles

end Contour

/-! ### Runs -/

namespace Command

open Contour

/-- A run that goes on has room for its coarse passes. -/
theorem coarse?_of_run (a : Arguments) (settings : Settings Float) (sheet : String)
    (h : a.coarseFails settings sheet = false) :
    let first := (Scene.new settings a.width.value a.height.value).viewport
    ∀ view ∈ [first, first.look (a.camera settings)], ∀ text ∈ Sheet.read sheet,
      let eq := Equation.compile text settings.linearProbe
      eq.isImplicit = true →
        coarse? eq.field view settings = some (coarse eq.field view settings) := by
  intro first view hview text htext eq himplicit
  have hnot : ¬ coarseFails view settings = true := fun hfails => by
    have hviews : [first, first.look (a.camera settings)].any (coarseFails · settings) = true :=
      List.any_eq_true.mpr ⟨view, hview, hfails⟩
    have htexts : ((Sheet.read sheet).any fun text =>
        (Equation.compile text settings.linearProbe).isImplicit) = true :=
      List.any_eq_true.mpr ⟨text, htext, himplicit⟩
    have hfail : a.coarseFails settings sheet = true := Bool.and_eq_true_iff.mpr ⟨hviews, htexts⟩
    rw [hfail] at h
    cases h
  rw [coarse?_eq, if_neg hnot]

/-- And for its fine passes, which leave what they are taken to leave. -/
theorem fine?_of_run (s : Scene) (h : fineFails s = false) : ∀ job ∈ s.jobs.running,
    fine? job.equation.field job.viewport job.settings job.cancelled =
      some (JobBoard.outcome job).segments := by
  intro job hjob
  have hnot := List.any_eq_false.mp h job hjob
  rw [fine?_eq, if_neg hnot]
  rfl

end Command

end CurvePlot
