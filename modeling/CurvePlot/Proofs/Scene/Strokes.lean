import CurvePlot.Proofs.Double.Undefined
import CurvePlot.Proofs.Equation.Explicit
import CurvePlot.Proofs.Scene.Tended
import CurvePlot.Scene.Geometry
import Mathlib.Data.List.Chain
import Mathlib.Data.List.Induction
/-!
# The strokes of a graph

A graph is drawn from its values in the pixel columns, with breaks where it is to be
interrupted. `Drawn` says what comes of it: all values that are finite and nothing else,
and between two of them that follow each other a break if the graph is undefined in
between, or if it leaps from one column to the next. No break stands in front, and none
next to another.

The crux is `strokes_append`: what is drawn of some columns depends on those before only
by where the pen is (`penAfter`), which is a matter of the last one. So the columns may
be cut at any place, and the parts are looked at one by one.
-/

namespace CurvePlot.Scene

variable {view : Viewport Float} {before : Option Float} {columns rest : List (Float × Float)}
  {p q : Float × Float}

/-- Whether a point of a polyline is a break. -/
def isBreak (p : Float × Float) : Bool := p.2.isNaN

/-- Whether the graph has a value in a column. -/
def hasValue (p : Float × Float) : Bool := p.2.isFinite

/-- The break at a column. -/
def breakAt (p : Float × Float) : Float × Float := (p.1, Double.undefined)

/-- How far down on the screen a point is. -/
def heightOf (view : Viewport Float) (p : Float × Float) : Float := (view.toPixel p.1 p.2).2

/-- Whether the graph leaps over more than the view from one point to another. -/
def Leaps (view : Viewport Float) (p q : Float × Float) : Prop :=
  view.height < (heightOf view q - heightOf view p).abs

instance : Decidable (Leaps view p q) := inferInstanceAs (Decidable (_ < _))

theorem isBreak_breakAt (p : Float × Float) : isBreak (breakAt p) = true := Double.isNaN_undefined

theorem isBreak_of_hasValue (h : hasValue p = true) : isBreak p = false :=
  Double.isNaN_eq_false_of_isFinite h

/-! ### Where the pen is -/

/-- The height at which the pen stands after some columns, if it is down. -/
def penAfter (view : Viewport Float) (before : Option Float) (columns : List (Float × Float)) :
    Option Float :=
  columns.foldl (fun _ p => if hasValue p then some (heightOf view p) else none) before

/-- The break that is put in front of a column with a value, if any. -/
def leap (view : Viewport Float) (before : Option Float) (p : Float × Float) :
    List (Float × Float) :=
  if before.any fun h => view.height < (heightOf view p - h).abs then [breakAt p] else []

theorem leap_none : leap view none p = [] := rfl

theorem leap_some : leap view (some (heightOf view p)) q = if Leaps view p q then [breakAt q] else [] := by
  rw [leap, Option.any_some]
  exact if_congr decide_eq_true_iff rfl rfl

theorem isBreak_of_mem_leap {b : Float × Float} (h : b ∈ leap view before p) : isBreak b = true := by
  unfold leap at h
  split at h
  · rw [List.mem_singleton.mp h]
    exact isBreak_breakAt p
  · cases h

theorem strokes_cons_of_hasValue (hp : hasValue p = true) :
    strokes view before (p :: rest) =
      leap view before p ++ p :: strokes view (some (heightOf view p)) rest := by
  rw [strokes]
  exact if_pos hp

theorem strokes_cons_of_not_hasValue (hp : hasValue p = false) :
    strokes view before (p :: rest) =
      (if before.isSome then [breakAt p] else []) ++ strokes view none rest := by
  rw [strokes]
  exact if_neg (Bool.eq_false_iff.mp hp)

/-- **What is drawn after some columns** depends on them by where the pen is. -/
theorem strokes_append (view : Viewport Float) (before : Option Float)
    (columns rest : List (Float × Float)) :
    strokes view before (columns ++ rest) =
      strokes view before columns ++ strokes view (penAfter view before columns) rest := by
  induction columns generalizing before with
  | nil => rfl
  | cons p columns ih =>
    rw [List.cons_append, penAfter, List.foldl_cons]
    cases hp : hasValue p with
    | true =>
      rw [strokes_cons_of_hasValue hp, strokes_cons_of_hasValue hp, ih, List.append_assoc]
      rfl
    | false =>
      rw [strokes_cons_of_not_hasValue hp, strokes_cons_of_not_hasValue hp, ih, List.append_assoc]
      rfl

/-- Nothing is drawn where the graph has no values, if the pen is up. -/
theorem strokes_of_not_hasValue (h : ∀ p ∈ columns, hasValue p = false) :
    strokes view none columns = [] := by
  induction columns with
  | nil => rfl
  | cons p columns ih =>
    rw [strokes_cons_of_not_hasValue (h p List.mem_cons_self),
      ih fun q hq => h q (List.mem_cons_of_mem p hq)]
    rfl

theorem penAfter_concat :
    penAfter view before (columns ++ [p]) = if hasValue p then some (heightOf view p) else none := by
  rw [penAfter, List.foldl_append]
  rfl

theorem penAfter_of_not_hasValue (h : ∀ p ∈ columns, hasValue p = false) :
    penAfter view none columns = none := by
  rcases List.eq_nil_or_concat' columns with rfl | ⟨front, p, rfl⟩
  · rfl
  · rw [penAfter_concat, h p (by simp)]
    rfl

/-! ### Column by column -/

/-- Puts a break behind what was drawn, unless there is nothing or a break already. -/
def pushBreak (points : List (Float × Float)) (p : Float × Float) : List (Float × Float) :=
  if points.getLast?.any fun last => !isBreak last then points ++ [breakAt p] else points

/-- What is drawn and where the pen is after one more column. -/
def drawColumn (view : Viewport Float) (drawn : List (Float × Float) × Option Float)
    (p : Float × Float) : List (Float × Float) × Option Float :=
  let (points, pen) := drawn
  if hasValue p then
    let height := heightOf view p
    let leaps := pen.any fun h => view.height < (height - h).abs
    ((if leaps then pushBreak points p else points) ++ [p], some height)
  else (pushBreak points p, none)

/-- Where the pen is down the last point is no break, and where it is up there is none but a
break. -/
def PenFollows (points : List (Float × Float)) (pen : Option Float) : Prop :=
  (points.getLast?.any fun last => !isBreak last) = pen.isSome

theorem pushBreak_eq {points : List (Float × Float)} (h : PenFollows points before) :
    pushBreak points p = points ++ if before.isSome then [breakAt p] else [] := by
  rw [pushBreak, h]
  cases before with
  | none => exact (List.append_nil points).symm
  | some => rfl

/-- The two things that a loop over the columns carries along, what was drawn last and where the
pen is, agree at every column. -/
theorem foldl_drawColumn {points : List (Float × Float)} (h : PenFollows points before) :
    (columns.foldl (drawColumn view) (points, before)).1 = points ++ strokes view before columns := by
  induction columns generalizing points before with
  | nil => exact (List.append_nil points).symm
  | cons p columns ih =>
    rw [List.foldl_cons]
    cases hp : hasValue p with
    | true =>
      have hstep : drawColumn view (points, before) p =
          (points ++ leap view before p ++ [p], some (heightOf view p)) := by
        unfold drawColumn leap
        dsimp only
        rw [if_pos hp, pushBreak_eq h]
        cases before with
        | none => simp
        | some height =>
          rw [Option.isSome_some, if_pos rfl]
          split <;> simp
      have hfollows : PenFollows (points ++ leap view before p ++ [p]) (some (heightOf view p)) := by
        rw [PenFollows, List.getLast?_concat]
        simp [isBreak_of_hasValue hp]
      rw [hstep, ih hfollows, strokes_cons_of_hasValue hp]
      simp
    | false =>
      have hstep : drawColumn view (points, before) p =
          (points ++ if before.isSome then [breakAt p] else [], none) := by
        rw [drawColumn, ← pushBreak_eq h]
        exact if_neg (Bool.eq_false_iff.mp hp)
      have hfollows : PenFollows (points ++ if before.isSome then [breakAt p] else []) none := by
        cases before with
        | none =>
          rw [Option.isSome_none, if_neg Bool.false_ne_true, List.append_nil]
          exact h
        | some =>
          rw [PenFollows, Option.isSome_some, if_pos rfl, List.getLast?_concat]
          simp [isBreak_breakAt]
      rw [hstep, ih hfollows, strokes_cons_of_not_hasValue hp, List.append_assoc]

/-- **The strokes may be drawn by a loop** that carries along what was drawn and where the
pen is. -/
theorem strokes_eq_foldl (view : Viewport Float) (columns : List (Float × Float)) :
    strokes view none columns = (columns.foldl (drawColumn view) ([], none)).1 := by
  have hstart : PenFollows [] none := rfl
  exact (foldl_drawColumn hstart).symm

/-! ### Values and breaks -/

/-- **The values are drawn, and nothing else but breaks.** -/
theorem filter_strokes (view : Viewport Float) (before : Option Float)
    (columns : List (Float × Float)) :
    (strokes view before columns).filter (fun p => !isBreak p) = columns.filter hasValue := by
  have hbreaks (bs : List (Float × Float)) (h : ∀ b ∈ bs, isBreak b = true) :
      bs.filter (fun p => !isBreak p) = [] :=
    List.filter_eq_nil_iff.mpr fun b hb => by simp [h b hb]
  induction columns generalizing before with
  | nil => rfl
  | cons p columns ih =>
    cases hp : hasValue p with
    | true =>
      rw [strokes_cons_of_hasValue hp, List.filter_append, hbreaks _ fun b => isBreak_of_mem_leap,
        List.nil_append, List.filter_cons_of_pos (by simp [isBreak_of_hasValue hp]),
        List.filter_cons_of_pos hp, ih]
    | false =>
      rw [strokes_cons_of_not_hasValue hp, List.filter_append, hbreaks,
        List.filter_cons_of_neg (by simp [hp]), ih, List.nil_append]
      intro b hb
      split at hb
      · rw [List.mem_singleton.mp hb]
        exact isBreak_breakAt p
      · cases hb

/-- The breaks between a column with a value and the next one that has one. -/
def breaksBetween (view : Viewport Float) (p : Float × Float) (gap : List (Float × Float))
    (q : Float × Float) : List (Float × Float) :=
  match gap with
  | [] => if Leaps view p q then [breakAt q] else []
  | g :: _ => [breakAt g]

theorem strokes_gap {gap : List (Float × Float)} (hgap : ∀ g ∈ gap, hasValue g = false)
    (hq : hasValue q = true) :
    strokes view (some (heightOf view p)) (gap ++ q :: rest) =
      breaksBetween view p gap q ++ q :: strokes view (some (heightOf view q)) rest := by
  cases gap with
  | nil => rw [List.nil_append, strokes_cons_of_hasValue hq, leap_some, breaksBetween]
  | cons g gap =>
    -- the first column without a value lifts the pen, and the others leave it up
    have hrest : ∀ g ∈ gap, hasValue g = false := fun b hb => hgap b (List.mem_cons_of_mem g hb)
    rw [List.cons_append, strokes_cons_of_not_hasValue (hgap g List.mem_cons_self), strokes_append,
      strokes_of_not_hasValue hrest, penAfter_of_not_hasValue hrest, strokes_cons_of_hasValue hq]
    rfl

/-- **Between two values that follow each other** stand the breaks of the gap. -/
theorem exists_strokes_between {front gap back : List (Float × Float)} (hp : hasValue p = true)
    (hgap : ∀ g ∈ gap, hasValue g = false) (hq : hasValue q = true) :
    ∃ left right, strokes view before (front ++ p :: (gap ++ q :: back)) =
        left ++ p :: (breaksBetween view p gap q ++ q :: right) ∧
      left.filter (fun p => !isBreak p) = front.filter hasValue ∧
      right.filter (fun p => !isBreak p) = back.filter hasValue := by
  refine ⟨strokes view before front ++ leap view (penAfter view before front) p,
    strokes view (some (heightOf view q)) back, ?_, ?_, filter_strokes _ _ _⟩
  · rw [strokes_append, strokes_cons_of_hasValue hp, strokes_gap hgap hq, List.append_assoc]
  · have hleap : (leap view (penAfter view before front) p).filter (fun p => !isBreak p) = [] :=
      List.filter_eq_nil_iff.mpr fun b hb => by simp [isBreak_of_mem_leap hb]
    rw [List.filter_append, filter_strokes, hleap, List.append_nil]

/-! ### The ends -/

theorem head?_strokes (view : Viewport Float) (columns : List (Float × Float)) :
    ∀ b ∈ (strokes view none columns).head?, isBreak b = false := by
  induction columns with
  | nil => exact nofun
  | cons p columns ih =>
    cases hp : hasValue p with
    | true =>
      rw [strokes_cons_of_hasValue hp, leap_none]
      intro b hb
      rw [← Option.some.inj hb]
      exact isBreak_of_hasValue hp
    | false =>
      rw [strokes_cons_of_not_hasValue hp]
      exact ih

/-- **No break stands next to another.** -/
theorem isChain_strokes (view : Viewport Float) (before : Option Float)
    (columns : List (Float × Float)) :
    (strokes view before columns).IsChain fun a b => ¬(isBreak a = true ∧ isBreak b = true) := by
  induction columns generalizing before with
  | nil => exact .nil
  | cons p columns ih =>
    cases hp : hasValue p with
    | true =>
      -- a value stands between all breaks in front of it and behind it
      have hvalue : isBreak p = false := isBreak_of_hasValue hp
      have htail : (p :: strokes view (some (heightOf view p)) columns).IsChain
          fun a b => ¬(isBreak a = true ∧ isBreak b = true) :=
        (ih _).cons fun b _ => by simp [hvalue]
      rw [strokes_cons_of_hasValue hp, leap]
      split
      · exact htail.cons fun b hb => by
          rw [← Option.some.inj hb, hvalue]
          simp
      · exact htail
    | false =>
      rw [strokes_cons_of_not_hasValue hp]
      split
      · exact (ih none).cons fun b hb => by simp [head?_strokes view columns b hb]
      · exact ih none

/-- **A break stands at the end** if the last column has no value but some column has. -/
theorem exists_last_break_iff (view : Viewport Float) (columns : List (Float × Float)) :
    (∃ b ∈ (strokes view none columns).getLast?, isBreak b = true) ↔
      (∃ p ∈ columns, hasValue p = true) ∧ ∃ p ∈ columns.getLast?, hasValue p = false := by
  -- by induction from the right, since what is last depends on where the pen is before it
  induction columns using List.reverseRecOn with
  | nil => simp [strokes]
  | append_singleton columns p ih =>
    rw [strokes_append, List.getLast?_concat]
    cases hp : hasValue p with
    | true =>
      rw [strokes_cons_of_hasValue hp, strokes]
      simp [hp, isBreak_of_hasValue hp]
    | false =>
      rw [strokes_cons_of_not_hasValue hp, strokes, List.append_nil]
      rcases List.eq_nil_or_concat' columns with rfl | ⟨front, r, rfl⟩
      · simp [strokes, penAfter, hp]
      · -- the break stands here if the column before has a value, or stood there before
        rw [penAfter_concat]
        cases hr : hasValue r with
        | true =>
          exact iff_of_true ⟨breakAt p, by simp, isBreak_breakAt p⟩ ⟨⟨r, by simp, hr⟩, p, rfl, hp⟩
        | false =>
          rw [List.getLast?_concat] at ih
          simpa [-Prod.exists, or_and_right, exists_or, hp, hr] using ih

/-! ### Polylines -/

/-- The number of pixel columns. -/
def columnCount (view : Viewport Float) : Nat := Double.toNat (Double.ceil view.width)

/-- The point of a graph in a pixel column. -/
def columnPoint (view : Viewport Float) (f : Float → Float) (column : Nat) : Float × Float :=
  let x := (view.toPlane (Float.ofNat column) 0.0).1
  (x, f x)

theorem columnPoints_eq (view : Viewport Float) (f : Float → Float) :
    columnPoints view f = (List.range (columnCount view)).map (columnPoint view f) := rfl

/-- What is drawn of a graph over the columns of a view. -/
structure Drawn (view : Viewport Float) (f : Float → Float) (points : List (Float × Float)) :
    Prop where
  /-- But for the breaks, it is the columns with a value, from left to right. -/
  values : points.filter (fun p => !p.2.isNaN) =
    ((List.range (columnCount view)).map (columnPoint view f)).filter fun p => p.2.isFinite
  /-- Between two columns that follow each other stands one break if there is a column
  without a value in between, or if the graph leaps, and else nothing. -/
  between : ∀ c d, c < d → d < columnCount view →
    (columnPoint view f c).2.isFinite = true → (columnPoint view f d).2.isFinite = true →
    (∀ k, c < k → k < d → (columnPoint view f k).2.isFinite = false) →
    ∃ left right, points = left ++ columnPoint view f c ::
        ((if c + 1 < d ∨ Leaps view (columnPoint view f c) (columnPoint view f d) then
            [((columnPoint view f (c + 1)).1, Double.undefined)] else []) ++
          columnPoint view f d :: right) ∧
      left.filter (fun p => !p.2.isNaN) =
        ((List.range c).map (columnPoint view f)).filter (fun p => p.2.isFinite) ∧
      right.filter (fun p => !p.2.isNaN) =
        ((List.range' (d + 1) (columnCount view - (d + 1))).map (columnPoint view f)).filter
          fun p => p.2.isFinite
  /-- It does not begin with a break. -/
  starts : ∀ b ∈ points.head?, b.2.isNaN = false
  /-- No break follows a break. -/
  single : points.IsChain fun a b => ¬(a.2.isNaN = true ∧ b.2.isNaN = true)
  /-- It ends with a break if some column has a value and the last one has none. -/
  ends : (∃ b ∈ points.getLast?, b.2.isNaN = true) ↔
    (∃ c < columnCount view, (columnPoint view f c).2.isFinite = true) ∧
      (columnPoint view f (columnCount view - 1)).2.isFinite = false

/-- A row of numbers, cut at two of them. -/
theorem range_eq_append {c d n : Nat} (hcd : c < d) (hdn : d < n) :
    List.range n = List.range c ++
      c :: (List.range' (c + 1) (d - (c + 1)) ++ d :: List.range' (d + 1) (n - (d + 1))) := by
  have hcut {i j : Nat} (s : Nat) (hsi : s ≤ i) (hij : i < j) :
      List.range' s (j - s) = List.range' s (i - s) ++ i :: List.range' (i + 1) (j - (i + 1)) := by
    have hi : s + (i - s) = i := by omega
    have hj : j - s = (i - s) + (j - (i + 1) + 1) := by omega
    rw [hj, ← List.range'_append_1, hi, List.range'_succ]
  rw [List.range_eq_range', List.range_eq_range', ← hcut (c + 1) hcd hdn]
  exact hcut 0 c.zero_le (hcd.trans hdn)

/-- **The strokes of a graph draw it.** -/
theorem drawn_strokes (view : Viewport Float) (f : Float → Float) :
    Drawn view f (strokes view none (columnPoints view f)) where
  values := filter_strokes view none _
  between := by
    intro c d hcd hdn hc hd hgap
    have hcolumns := congrArg (List.map (columnPoint view f)) (range_eq_append hcd hdn)
    rw [List.map_append, List.map_cons, List.map_append, List.map_cons] at hcolumns
    rw [columnPoints_eq, hcolumns]
    have hnone : ∀ g ∈ (List.range' (c + 1) (d - (c + 1))).map (columnPoint view f),
        hasValue g = false := by
      intro g hg
      obtain ⟨k, hk, rfl⟩ := List.mem_map.mp hg
      have hk := List.mem_range'_1.mp hk
      exact hgap k (by omega) (by omega)
    obtain ⟨left, right, hpoints, hleft, hright⟩ := exists_strokes_between hc hnone hd
    refine ⟨left, right, ?_, hleft, hright⟩
    rw [hpoints]
    -- the break stands over the column behind the first of the two
    by_cases hnext : c + 1 < d
    · obtain ⟨m, hm⟩ : ∃ m, d - (c + 1) = m + 1 := ⟨d - (c + 1) - 1, by omega⟩
      rw [if_pos (.inl hnext), hm, List.range'_succ]
      rfl
    · obtain rfl : d = c + 1 := by omega
      rw [Nat.sub_self]
      simp only [List.range'_zero, List.map_nil, breaksBetween, Nat.lt_irrefl, false_or]
      rfl
  starts := head?_strokes view _
  single := isChain_strokes view none _
  ends := by
    refine (exists_last_break_iff view _).trans ?_
    rw [columnPoints_eq]
    cases columnCount view with
    | zero => simp
    | succ n =>
      have hlast : ((List.range (n + 1)).map (columnPoint view f)).getLast? =
          some (columnPoint view f n) := by
        rw [List.range_succ, List.map_append]
        exact List.getLast?_concat
      rw [hlast]
      simp only [List.mem_map, List.mem_range, exists_exists_and_eq_and, Option.mem_some_iff,
        exists_eq_left', Nat.add_sub_cancel]
      rfl

/-- **The polyline of a graph draws it,** whatever has happened to the scene. -/
theorem drawn_polyline (s : Scene) (id : Nat) (r : Row) (hr : s.rows.get? id = some r)
    (hexplicit : r.equation.isExplicit = true) : Drawn s.viewport r.valueAt (s.polyline id) := by
  have hkept : (s.rows.get? id).filter (fun r => r.equation.isExplicit) = some r := by
    rw [hr, Option.filter_some, if_pos hexplicit]
  rw [polyline, hkept]
  exact drawn_strokes s.viewport r.valueAt

/-- The diagonal is added to an empty scene. -/
theorem drawn_polyline_diagonal :
    let s := (Scene.new .standard 800.0 600.0).add "y=x"
    ∃ r, s.rows.get? 0 = some r ∧ r.equation.isExplicit = true ∧
      Drawn s.viewport r.valueAt (s.polyline 0) := by
  intro s
  let first : Scene := Scene.new .standard 800.0 600.0
  let added : Scene := { first with
    palette := first.palette.advance
    rows := first.rows.insert 0 (Row.fresh (first.compile "y=x") first.palette.upcoming)
    nextId := 1 }
  have hadded : Refreshed added s := (Refreshed.refreshEquation added 0).refreshDerived
  obtain ⟨r, hr, heq⟩ := hadded.exists_row (Keyed.get?_insert_self first.rows 0 _)
  have hexplicit : r.equation.isExplicit = true := by
    have hpoint : PointLiteral.read? "y=x".toList = none := by decide +kernel
    have hsplit : Form.split (Text.lowercase "y=x".toList) = .ok ⟨.explicit, ['x'], none⟩ := by
      decide +kernel
    have hclass := (Equation.compile_of_explicit hpoint hsplit Expr.read_x
      first.settings.linearProbe).1
    rw [heq, Equation.isExplicit]
    exact congrArg Classification.isExplicit hclass
  exact ⟨r, hr, hexplicit, drawn_polyline s 0 r hr hexplicit⟩

end CurvePlot.Scene
