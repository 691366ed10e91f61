import CurvePlot.Contour.Lattice
import Mathlib.Data.List.Nodup
import Mathlib.Data.List.Pairwise
import Mathlib.Data.Set.Finite.Basic
import Mathlib.Logic.Relation
/-!
# The segments of a lattice leave no gaps

In a cell whose corners have values, an edge is the end of one segment if its two ends
differ in sign, and of none otherwise (`count_touched`). That is a fact about the sixteen
cases of `Edge.joins`, and the only place where they are looked at one by one.

Whether an edge is crossed, and where, depends on its two ends alone, and the two cells
beside an edge have the same ends for it (`ends_across`). So where both have values, a
segment that comes to the edge in one cell goes on in the other from the very same point. To
follow a segment is to run through it in one of its two directions, as a `Dart`.

The darts of a lattice are finitely many, and in a lattice without gaps in its values each
has one that follows it, unless it ends on the border, and follows one at most. A walk that
never comes to the border therefore comes back to where it began
(`exists_last_or_returns`).
-/

namespace CurvePlot

namespace Edge

/-- The edges at which the segments of a cell end, both of each. -/
def touched (pairs : List (Edge × Edge)) : List Edge := pairs.flatMap fun p => [p.1, p.2]

/-- Whether the corners at the ends of an edge differ in sign. -/
def differs (tl tr br bl : Bool) : Edge → Bool
  | top => tl != tr
  | right => tr != br
  | bottom => bl != br
  | left => tl != bl

/-- **Every edge whose ends differ is the end of one segment,** and no other edge is. -/
theorem count_touched_joins (tl tr br bl : Bool) (e : Edge) :
    (touched (joins tl tr br bl)).count e = if differs tl tr br bl e then 1 else 0 := by
  cases tl <;> cases tr <;> cases br <;> cases bl <;> cases e <;> rfl

/-- An edge is touched if it is joined to some edge, whichever of them stands first. -/
theorem mem_touched {pairs : List (Edge × Edge)} {e : Edge} :
    e ∈ touched pairs ↔ ∃ e', (e, e') ∈ pairs ∨ (e', e) ∈ pairs := by
  simp only [touched, List.mem_flatMap, Prod.exists]
  constructor
  · rintro ⟨a, b, hab, he⟩
    rcases List.mem_pair.mp he with rfl | rfl
    · exact ⟨b, .inl hab⟩
    · exact ⟨a, .inr hab⟩
  · rintro ⟨e', h | h⟩
    · exact ⟨e, e', h, by simp⟩
    · exact ⟨e', e, h, by simp⟩

/-- Where no edge is touched twice, a segment has its ends on two edges. -/
theorem ne_of_nodup_touched {pairs : List (Edge × Edge)} (h : (touched pairs).Nodup) {a b : Edge}
    (hab : (a, b) ∈ pairs) : a ≠ b := by
  have hpair : [a, b].Nodup := (List.nodup_flatMap.mp h).1 (a, b) hab
  simpa using hpair

/-- Where no edge is touched twice, only one segment ends at an edge. -/
theorem eq_of_nodup_touched {pairs : List (Edge × Edge)} (h : (touched pairs).Nodup)
    {e a b : Edge} (ha : (e, a) ∈ pairs ∨ (a, e) ∈ pairs) (hb : (e, b) ∈ pairs ∨ (b, e) ∈ pairs) :
    a = b := by
  -- two segments with an end on the edge are one pair
  have hapart : ∀ p ∈ pairs, ∀ q ∈ pairs, e ∈ [p.1, p.2] → e ∈ [q.1, q.2] → p = q := by
    intro p hp q hq hep heq
    by_contra hne
    -- two segments would touch the edge, and no edge is touched twice
    have : Std.Symm (Function.onFun List.Disjoint fun p : Edge × Edge => [p.1, p.2]) :=
      ⟨fun _ _ => List.Disjoint.symm⟩
    have hdisjoint : List.Disjoint [p.1, p.2] [q.1, q.2] :=
      (List.nodup_flatMap.mp h).2.forall hp hq hne
    exact hdisjoint hep heq
  -- the edge stands first or second in either pair
  rcases ha with ha | ha <;> rcases hb with hb | hb
  · exact (Prod.mk.inj (hapart _ ha _ hb (by simp) (by simp))).2
  · obtain ⟨hab, hae⟩ := Prod.mk.inj (hapart _ ha _ hb (by simp) (by simp))
    exact hae.trans hab
  · obtain ⟨hab, hae⟩ := Prod.mk.inj (hapart _ ha _ hb (by simp) (by simp))
    exact hab.trans hae
  · exact (Prod.mk.inj (hapart _ ha _ hb (by simp) (by simp))).1

/-- The edge across from an edge. -/
def opposite : Edge → Edge
  | top => bottom
  | right => left
  | bottom => top
  | left => right

/-- An edge that two cells share lies on opposite sides of them. -/
theorem eq_opposite_of_ends_eq {i j i' j' : Nat} {e e' : Edge}
    (h : e'.ends i' j' = e.ends i j) (hne : (i', j') ≠ (i, j)) : e' = e.opposite := by
  cases e <;> cases e' <;> simp [ends, opposite] at h hne ⊢ <;> omega

/-- A cell is known by one of its edges. -/
theorem cell_eq_of_ends_eq {i j i' j' : Nat} {e : Edge} (h : e.ends i' j' = e.ends i j) :
    (i', j') = (i, j) := by
  cases e <;> simp [ends] at h ⊢ <;> omega

end Edge

open Edge

namespace Lattice

section

variable {α : Type} [Scalar α] (l : Lattice α)

/-- All corners of the cell have values. -/
def Defined (i j : Nat) : Prop := ∀ v ∈ l.corners i j, Scalar.isUndefined v = false

/-- **Exactly one of the two ends is positive.** -/
def Crossed (ends : (Nat × Nat) × (Nat × Nat)) : Prop :=
  isPositive (l.value ends.1.1 ends.1.2) ≠ isPositive (l.value ends.2.1 ends.2.2)

instance (ends : (Nat × Nat) × (Nat × Nat)) : Decidable (l.Crossed ends) :=
  inferInstanceAs (Decidable (_ ≠ _))

variable {l} {i j : Nat}

/-- The segments of a cell are read off the signs of its corners, where these have values. -/
theorem joinsAt_of_defined (h : l.Defined i j) : l.joinsAt i j =
    joins (isPositive (l.value i j)) (isPositive (l.value (i + 1) j))
      (isPositive (l.value (i + 1) (j + 1))) (isPositive (l.value i (j + 1))) := by
  simp only [Defined, corners, List.forall_mem_cons] at h
  simp [joinsAt, corners, h]

/-- Else there are none. -/
theorem joinsAt_of_not_defined (h : ¬l.Defined i j) : l.joinsAt i j = [] := by
  simp only [joinsAt, corners]
  refine if_pos ?_
  by_contra hnot
  refine h fun v hv => ?_
  simp only [corners] at hv
  grind

/-- **In a cell with values, every crossed edge is the end of one segment,** and no other
edge is. -/
theorem count_touched (h : l.Defined i j) (e : Edge) :
    (touched (l.joinsAt i j)).count e = if l.Crossed (e.ends i j) then 1 else 0 := by
  rw [joinsAt_of_defined h, count_touched_joins]
  refine if_congr ?_ rfl rfl
  cases e <;> simp [differs, Crossed, ends]

/-- No edge of a cell is the end of two segments in it. -/
theorem nodup_touched (l : Lattice α) (i j : Nat) : (touched (l.joinsAt i j)).Nodup := by
  by_cases h : l.Defined i j
  · refine List.nodup_iff_count_le_one.mpr fun e => ?_
    rw [count_touched h]
    split <;> omega
  · rw [joinsAt_of_not_defined h]
    exact List.nodup_nil

/-- A cell with a corner without value has no segments. -/
theorem march_of_not_defined (h : ¬l.Defined i j) : l.march i j = [] := by
  rw [march, joinsAt_of_not_defined h]
  rfl

/-- Where the segments of a cell end, both ends of each. -/
theorem march_ends (l : Lattice α) (i j : Nat) :
    ((l.march i j).flatMap fun s => [(s.x1, s.y1), (s.x2, s.y2)]) =
      (touched (l.joinsAt i j)).map (l.crossingOn i j) := by
  simp only [march, touched, List.flatMap_map, List.map_flatMap, List.map_cons, List.map_nil]

/-- So a cell with a segment has values at its corners. -/
theorem defined_of_mem_joinsAt {a b : Edge} (h : (a, b) ∈ l.joinsAt i j) : l.Defined i j := by
  by_contra hnot
  rw [joinsAt_of_not_defined hnot] at h
  cases h

/-- A segment joins two different edges, both crossed. -/
theorem crossed_of_mem_joinsAt {a b : Edge} (h : (a, b) ∈ l.joinsAt i j) :
    a ≠ b ∧ l.Crossed (a.ends i j) ∧ l.Crossed (b.ends i j) := by
  have hdefined := defined_of_mem_joinsAt h
  have hcrossed : ∀ e, e ∈ touched (l.joinsAt i j) → l.Crossed (e.ends i j) := by
    intro e he
    by_contra hnot
    -- an edge that is not crossed would not be touched at all
    have hcount := count_touched hdefined e
    rw [if_neg hnot] at hcount
    exact List.count_eq_zero.mp hcount he
  exact ⟨ne_of_nodup_touched (l.nodup_touched i j) h, hcrossed a (mem_touched.mpr ⟨b, .inl h⟩),
    hcrossed b (mem_touched.mpr ⟨a, .inr h⟩)⟩

end

end Lattice

/-! ### Following a segment -/

/-- **A segment of a cell, run through** from the edge `source` to the edge `target`. -/
structure Dart where
  /-- The column of its cell. -/
  i : Nat
  /-- The row of its cell. -/
  j : Nat
  /-- The edge that it leaves. -/
  source : Edge
  /-- The edge that it comes to. -/
  target : Edge
deriving DecidableEq

namespace Dart

/-- The ends of the edge where the dart begins. -/
def begin (d : Dart) : (Nat × Nat) × (Nat × Nat) := d.source.ends d.i d.j

/-- The ends of the edge where the dart comes to. -/
def finish (d : Dart) : (Nat × Nat) × (Nat × Nat) := d.target.ends d.i d.j

/-- The same segment, run through the other way. -/
def reverse (d : Dart) : Dart := { d with source := d.target, target := d.source }

end Dart

namespace Lattice

section

variable {α : Type} (l : Lattice α)

/-- The ends of an edge are on the border of the lattice, on one side of it both. -/
def OnBorder (ends : (Nat × Nat) × (Nat × Nat)) : Prop :=
  (ends.1.1 = 0 ∧ ends.2.1 = 0) ∨ (ends.1.1 = l.columns ∧ ends.2.1 = l.columns) ∨
    (ends.1.2 = 0 ∧ ends.2.2 = 0) ∨ (ends.1.2 = l.rows ∧ ends.2.2 = l.rows)

instance (ends : (Nat × Nat) × (Nat × Nat)) : Decidable (l.OnBorder ends) :=
  inferInstanceAs (Decidable (_ ∨ _))

variable {l} {i j : Nat}

/-- **An edge of a cell that is not on the border belongs to another cell too.** -/
theorem exists_across {e : Edge} (hcell : (i, j) ∈ l.cells) (h : ¬l.OnBorder (e.ends i j)) :
    ∃ i' j' e', (i', j') ∈ l.cells ∧ Edge.ends i' j' e' = e.ends i j ∧ (i', j') ≠ (i, j) := by
  simp only [mem_cells] at hcell ⊢
  cases e with
  | top =>
    simp only [OnBorder, ends] at h
    exact ⟨i, j - 1, .bottom, by omega, by simp [ends]; omega, by simp; omega⟩
  | right =>
    simp only [OnBorder, ends] at h
    exact ⟨i + 1, j, .left, by omega, rfl, by simp⟩
  | bottom =>
    simp only [OnBorder, ends] at h
    exact ⟨i, j + 1, .top, by omega, rfl, by simp⟩
  | left =>
    simp only [OnBorder, ends] at h
    exact ⟨i - 1, j, .right, by omega, by simp [ends]; omega, by simp; omega⟩

end

section

variable {α : Type} [Scalar α] (l : Lattice α)

/-- **The segments of all cells, in both directions.** -/
def darts : List Dart :=
  l.cells.flatMap fun (i, j) =>
    (l.joinsAt i j).flatMap fun (a, b) => [⟨i, j, a, b⟩, ⟨i, j, b, a⟩]

/-- **A dart goes on where another one has come to,** in another cell. -/
def Follows (d d' : Dart) : Prop :=
  d ∈ l.darts ∧ d' ∈ l.darts ∧ d'.begin = d.finish ∧ (d'.i, d'.j) ≠ (d.i, d.j)

/-- **All vertices have values.** -/
def Complete : Prop := ∀ i ≤ l.columns, ∀ j ≤ l.rows, Scalar.isUndefined (l.value i j) = false

instance : Decidable l.Complete :=
  inferInstanceAs (Decidable (∀ i ≤ l.columns, ∀ j ≤ l.rows,
    Scalar.isUndefined (l.value i j) = false))

variable {l} {i j : Nat} {d d' d'' : Dart}

/-- A dart is a segment of a cell, run through in either direction. -/
theorem mem_darts : d ∈ l.darts ↔ (d.i, d.j) ∈ l.cells ∧
    ((d.source, d.target) ∈ l.joinsAt d.i d.j ∨ (d.target, d.source) ∈ l.joinsAt d.i d.j) := by
  obtain ⟨i, j, a, b⟩ := d
  simp only [darts, List.mem_flatMap, Prod.exists, List.mem_pair, Dart.mk.injEq]
  constructor
  · rintro ⟨i', j', hcell, a', b', hab, ⟨rfl, rfl, rfl, rfl⟩ | ⟨rfl, rfl, rfl, rfl⟩⟩
    · exact ⟨hcell, .inl hab⟩
    · exact ⟨hcell, .inr hab⟩
  · rintro ⟨hcell, hab | hab⟩
    · exact ⟨i, j, hcell, a, b, hab, .inl ⟨rfl, rfl, rfl, rfl⟩⟩
    · exact ⟨i, j, hcell, b, a, hab, .inr ⟨rfl, rfl, rfl, rfl⟩⟩

/-- Darts can be run through the other way, -/
theorem reverse_mem_darts : d.reverse ∈ l.darts ↔ d ∈ l.darts := by
  rw [mem_darts, mem_darts, or_comm]
  rfl

/-- and then what followed goes before. -/
theorem follows_reverse : l.Follows d'.reverse d.reverse ↔ l.Follows d d' := by
  unfold Follows
  rw [reverse_mem_darts, reverse_mem_darts]
  constructor
  · rintro ⟨hd', hd, hmeet, hne⟩
    exact ⟨hd, hd', hmeet.symm, hne.symm⟩
  · rintro ⟨hd, hd', hmeet, hne⟩
    exact ⟨hd', hd, hmeet.symm, hne.symm⟩

/-- Where all vertices have values, so do the corners of every cell. -/
theorem Complete.defined (h : l.Complete) (hcell : (i, j) ∈ l.cells) : l.Defined i j := by
  obtain ⟨hi, hj⟩ := mem_cells.mp hcell
  simp only [Defined, corners, List.forall_mem_cons]
  exact ⟨h i (by omega) j (by omega), h (i + 1) hi j (by omega), h (i + 1) hi (j + 1) hj,
    h i (by omega) (j + 1) hj, nofun⟩

/-- A dart comes to an edge that is crossed. -/
theorem crossed_finish (h : d ∈ l.darts) : l.Crossed d.finish := by
  obtain ⟨-, hab | hab⟩ := mem_darts.mp h
  · exact (crossed_of_mem_joinsAt hab).2.2
  · exact (crossed_of_mem_joinsAt hab).2.1

/-- **A dart goes on unless it has come to the border.** -/
theorem Complete.exists_follows (h : l.Complete) (hd : d ∈ l.darts) (hborder : ¬l.OnBorder d.finish) :
    ∃ d', l.Follows d d' := by
  obtain ⟨hcell, -⟩ := mem_darts.mp hd
  obtain ⟨i', j', e', hcell', hends, hne⟩ := exists_across hcell hborder
  -- whether an edge is crossed is a matter of its ends, which the two cells share
  have hcrossed : l.Crossed (e'.ends i' j') := hends ▸ crossed_finish hd
  have hcount := count_touched (h.defined hcell') e'
  rw [if_pos hcrossed] at hcount
  have hmem : e' ∈ touched (l.joinsAt i' j') := List.count_pos_iff.mp (by omega)
  obtain ⟨b, hb⟩ := mem_touched.mp hmem
  exact ⟨⟨i', j', e', b⟩, hd, mem_darts.mpr ⟨hcell', hb⟩, hends, hne⟩

/-- **Only one dart goes on** where another one has come to. -/
theorem follows_rightUnique : Relator.RightUnique l.Follows := by
  rintro d d' d'' ⟨-, h', hmeet', hne'⟩ ⟨-, h'', hmeet'', hne''⟩
  -- both begin across the edge, which only one other cell has
  have hsource : d'.source = d''.source :=
    (eq_opposite_of_ends_eq hmeet' hne').trans (eq_opposite_of_ends_eq hmeet'' hne'').symm
  obtain ⟨i', j', a', b'⟩ := d'
  obtain ⟨i'', j'', a'', b''⟩ := d''
  obtain rfl : a' = a'' := hsource
  obtain ⟨rfl, rfl⟩ := Prod.mk.inj (cell_eq_of_ends_eq (hmeet'.trans hmeet''.symm))
  obtain rfl : b' = b'' :=
    eq_of_nodup_touched (l.nodup_touched i' j') (mem_darts.mp h').2 (mem_darts.mp h'').2
  rfl

/-- **Two darts do not go on as one.** -/
theorem follows_leftUnique : Relator.LeftUnique l.Follows := by
  intro d d'' d' h h'
  -- run through the other way, what goes on as one comes from one
  have hreverse : d.reverse = d''.reverse :=
    follows_rightUnique (follows_reverse.mpr h) (follows_reverse.mpr h')
  exact congrArg Dart.reverse hreverse

end

end Lattice

/-- **In a finite place, a walk that never merges ends or comes back.** -/
theorem exists_last_or_returns {α : Type} {r : α → α → Prop} {s : Set α} (hs : s.Finite)
    (hstep : ∀ a b, r a b → b ∈ s) (hr : Relator.LeftUnique r) {a : α} (ha : a ∈ s) :
    ∃ b, Relation.ReflTransGen r a b ∧ ((∀ c, ¬r b c) ∨ r b a) := by
  by_contra hnot
  -- then the walk always goes on, and never to where it began
  have hgoes : ∀ b, Relation.ReflTransGen r a b → (∃ c, r b c) ∧ ¬r b a := by
    intro b hab
    by_contra hb
    exact hnot ⟨b, hab, by simpa [or_iff_not_imp_left] using hb⟩
  -- the places that the walk comes to are finitely many, and the next one tells the last
  have hfinite : Finite {b // Relation.ReflTransGen r a b} := by
    refine (hs.subset fun b hab => ?_).to_subtype
    rcases Relation.ReflTransGen.cases_tail hab with rfl | ⟨c, -, hcb⟩
    · exact ha
    · exact hstep c b hcb
  have hnext : ∀ b : {b // Relation.ReflTransGen r a b}, ∃ c, r b c := fun b => (hgoes b.1 b.2).1
  choose next hnext using hnext
  have hinjective : Function.Injective fun b : {b // Relation.ReflTransGen r a b} =>
      (⟨next b, b.2.tail (hnext b)⟩ : {b // Relation.ReflTransGen r a b}) := by
    intro b c hbc
    have hsame : next b = next c := congrArg Subtype.val hbc
    exact Subtype.ext (hr (hnext b) (hsame ▸ hnext c))
  -- so something comes before the beginning
  obtain ⟨b, hb⟩ := Finite.surjective_of_injective hinjective ⟨a, .refl⟩
  have hba : next b = a := congrArg Subtype.val hb
  have hreturns : r b (next b) := hnext b
  rw [hba] at hreturns
  exact (hgoes b.1 b.2).2 hreturns

namespace Lattice

variable {α : Type} [Scalar α] {l : Lattice α} {d : Dart}

/-- A walk along darts comes to darts only. -/
theorem mem_darts_of_reflTransGen {e : Dart} (hd : d ∈ l.darts)
    (h : Relation.ReflTransGen l.Follows d e) : e ∈ l.darts := by
  rcases Relation.ReflTransGen.cases_tail h with rfl | ⟨c, -, hce⟩
  · exact hd
  · exact hce.2.1

/-- **Following a segment leads to the border, or back to where one began.** -/
theorem Complete.arrives (h : l.Complete) (hd : d ∈ l.darts) :
    ∃ e, Relation.ReflTransGen l.Follows d e ∧ (l.OnBorder e.finish ∨ l.Follows e d) := by
  obtain ⟨e, hde, hlast⟩ := exists_last_or_returns (r := l.Follows) l.darts.finite_toSet
    (fun _ _ hab => hab.2.1) follows_leftUnique hd
  refine ⟨e, hde, hlast.imp_left fun hnone => ?_⟩
  have he : e ∈ l.darts := mem_darts_of_reflTransGen hd hde
  by_contra hborder
  obtain ⟨e', he'⟩ := h.exists_follows he hborder
  exact hnone e' he'

/-- A walk can be walked the other way. -/
theorem reflTransGen_reverse {e : Dart} (h : Relation.ReflTransGen l.Follows d e) :
    Relation.ReflTransGen l.Follows e.reverse d.reverse := by
  induction h with
  | refl => exact .refl
  | tail _ hbc ih => exact .head (follows_reverse.mpr hbc) ih

/-- **A polyline is closed, or both its ends are on the border.** -/
theorem Complete.polyline (h : l.Complete) (hd : d ∈ l.darts) :
    ∃ first last, Relation.ReflTransGen l.Follows first d ∧ Relation.ReflTransGen l.Follows d last ∧
      (l.Follows last first ∨ l.OnBorder first.begin ∧ l.OnBorder last.finish) := by
  obtain ⟨last, hlast, hborder | hclosed⟩ := h.arrives hd
  · -- the other end is found by going the other way
    obtain ⟨first, hfirst, hends⟩ := h.arrives (reverse_mem_darts.mpr hd)
    have hfirst' : Relation.ReflTransGen l.Follows first.reverse d := reflTransGen_reverse hfirst
    rcases hends with hborder' | hclosed
    · -- both walks have come to the border
      exact ⟨first.reverse, last, hfirst', hlast, .inr ⟨hborder', hborder⟩⟩
    · -- the walk back has closed, so the walk there would have closed too
      exact ⟨first.reverse, d, hfirst', .refl, .inl (follows_reverse.mp hclosed)⟩
  · -- the walk comes back to the dart
    exact ⟨d, last, .refl, hlast, .inl hclosed⟩

/-- Every segment of the march joins two crossed edges of a cell. -/
theorem exists_dart_of_mem_segments {s : Segment α} (h : s ∈ l.segments) :
    ∃ d ∈ l.darts, l.Defined d.i d.j ∧ d.source ≠ d.target ∧
      l.Crossed d.begin ∧ (s.x1, s.y1) = l.crossingOn d.i d.j d.source ∧
      l.Crossed d.finish ∧ (s.x2, s.y2) = l.crossingOn d.i d.j d.target := by
  obtain ⟨⟨i, j⟩, hcell, hs⟩ := List.mem_flatMap.mp h
  obtain ⟨⟨a, b⟩, hab, rfl⟩ := List.mem_map.mp hs
  obtain ⟨hne, ha, hb⟩ := crossed_of_mem_joinsAt hab
  exact ⟨⟨i, j, a, b⟩, mem_darts.mpr ⟨hcell, .inl hab⟩, defined_of_mem_joinsAt hab, hne, ha, rfl, hb,
    rfl⟩

/-- **The segments of a lattice leave no gaps.** In a cell whose corners have values, the
segments end at the crossed edges, at each of them once, and in any other cell there are
none. Every segment ends at two crossed edges of its cell. An edge that is not on the border
has another cell beside it, and the two agree where it is crossed. So if all vertices have
values, the segments form polylines, which do not fork and are closed or end on the
border. -/
theorem watertight (l : Lattice Float) :
    (∀ i j, l.Defined i j → ∃ edges : List Edge,
      ((l.march i j).flatMap fun s => [(s.x1, s.y1), (s.x2, s.y2)]) =
          edges.map (l.crossingOn i j) ∧
        ∀ e : Edge, edges.count e = if l.Crossed (e.ends i j) then 1 else 0) ∧
    (∀ i j, ¬l.Defined i j → l.march i j = []) ∧
    (∀ s ∈ l.segments, ∃ d ∈ l.darts, l.Defined d.i d.j ∧ d.source ≠ d.target ∧
      l.Crossed d.begin ∧ (s.x1, s.y1) = l.crossingOn d.i d.j d.source ∧
      l.Crossed d.finish ∧ (s.x2, s.y2) = l.crossingOn d.i d.j d.target) ∧
    (∀ i j (e : Edge), (i, j) ∈ l.cells → ¬l.OnBorder (e.ends i j) →
      ∃ i' j' e', (i', j') ∈ l.cells ∧ Edge.ends i' j' e' = e.ends i j ∧ (i', j') ≠ (i, j)) ∧
    (∀ i j i' j' (e e' : Edge), e.ends i j = e'.ends i' j' →
      l.crossingOn i j e = l.crossingOn i' j' e') ∧
    Relator.BiUnique l.Follows ∧
    (l.Complete → ∀ d ∈ l.darts, ∃ first last,
      Relation.ReflTransGen l.Follows first d ∧ Relation.ReflTransGen l.Follows d last ∧
        (l.Follows last first ∨ l.OnBorder first.begin ∧ l.OnBorder last.finish)) := by
  refine ⟨fun i j h => ?_, fun i j => march_of_not_defined, fun s => exists_dart_of_mem_segments,
    fun i j e => exists_across, fun i j i' j' e e' h => ?_,
    ⟨follows_leftUnique, follows_rightUnique⟩, fun h d => h.polyline⟩
  · -- the edges that the segments touch
    exact ⟨touched (l.joinsAt i j), l.march_ends i j, count_touched h⟩
  · -- what the two cells know of the edge is its ends
    unfold crossingOn
    rw [h]

/-- A hill in the middle of four cells is encircled: the segment in the upper left cell goes on in
the cell beside it from the same point, and following it leads back to where one began. -/
theorem watertight_hill :
    let l : Lattice Float :=
      ⟨0.0, 2.0, 1.0, 1.0, 2, 2, #[-1.0, -1.0, -1.0, -1.0, 1.0, -1.0, -1.0, -1.0, -1.0]⟩
    let d : Dart := ⟨0, 0, .bottom, .right⟩
    l.Complete ∧ d ∈ l.darts ∧
      (∃ i j e, (i, j) ∈ l.cells ∧ (i, j) ≠ (0, 0) ∧ e.ends i j = d.finish ∧
        l.crossingOn i j e = l.crossingOn 0 0 .right) ∧
      ∃ first last, Relation.ReflTransGen l.Follows first d ∧
        Relation.ReflTransGen l.Follows d last ∧ l.Follows last first := by
  intro l d
  have hcomplete : l.Complete := by decide +kernel
  have hdart : d ∈ l.darts := by decide +kernel
  have hinside : ∀ d ∈ l.darts, ¬l.OnBorder d.finish := by decide +kernel
  obtain ⟨-, -, -, hacross, hagree, -, hpolyline⟩ := watertight l
  obtain ⟨i, j, e, hcell, hends, hne⟩ := hacross 0 0 .right (by decide +kernel) (hinside d hdart)
  refine ⟨hcomplete, hdart, ⟨i, j, e, hcell, hne, hends, hagree _ _ _ _ _ _ hends⟩, ?_⟩
  obtain ⟨first, last, hfirst, hlast, hclosed | ⟨-, hborder⟩⟩ := hpolyline hcomplete d hdart
  · exact ⟨first, last, hfirst, hlast, hclosed⟩
  · -- no segment comes to the border, so the walk has not ended there
    exact absurd hborder (hinside last (mem_darts_of_reflTransGen hdart hlast))

end Lattice

end CurvePlot
