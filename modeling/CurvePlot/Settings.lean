import CurvePlot.Scalar
/-!
# Settings

The numbers that tune a plot. Lengths on the screen are in pixels and become
lengths in the plane through the scale of the view; times are in milliseconds.

Settings are read from files by name: `Settings.assign?` takes one entry of a
file, and `Settings.entries` lists all of them under their names.
-/

namespace CurvePlot

/-- The numbers that tune a plot. -/
structure Settings (α : Type) where
  /-- The edge of a cell of the coarse lattice. -/
  coarseCell : α
  /-- The edge of a cell of the outer lattice of the fine pass. -/
  fineCell : α
  /-- How many parts the fine pass cuts the edge of an outer cell into. -/
  fineSubdivisions : Nat
  /-- How much larger than the visible region the fine pass is. -/
  fineRegion : α
  /-- How far the center may drift, as a part of the visible span, before a
  contour is traced anew. -/
  driftTolerance : α
  /-- The width of a strip of samples, in visible widths. -/
  stripWidths : α
  /-- How many samples a strip has for each pixel. -/
  samplesPerPixel : α
  /-- The step of the scan for roots. -/
  rootStep : α
  /-- How near the cursor has to be to snap to something. -/
  snapThreshold : α
  /-- How long a slider has to rest before its equation is refreshed. -/
  parameterDelay : Nat
  /-- How long typing has to rest before an equation is compiled. -/
  editDelay : Nat
  /-- How long scrolling has to rest before the scene is refreshed. -/
  scrollDelay : Nat
  /-- The factor of one step of zooming. -/
  zoomFactor : α
  /-- The scale of a view that was not told another. -/
  defaultScale : α
  /-- The `x` at which relations are probed. -/
  linearProbe : α
  /-- How many workers there are; zero lets the machine decide. -/
  workers : Nat

namespace Settings

/-- The settings that hold unless a file says otherwise. -/
def standard {α : Type} [Scalar α] : Settings α where
  coarseCell := 20.0
  fineCell := 15.0
  fineSubdivisions := 10
  fineRegion := 1.2
  driftTolerance := 0.1
  stripWidths := 3.0
  samplesPerPixel := 2.0
  rootStep := 2.0
  snapThreshold := 30.0
  parameterDelay := 50
  editDelay := 300
  scrollDelay := 120
  zoomFactor := 1.1
  defaultScale := 50.0
  linearProbe := 1.23
  workers := 0

/-- A value that a file gives for an entry. -/
inductive Value where
  | whole (n : Int)
  | decimal (v : Float)
  /-- Anything that is no number. -/
  | other

/-- A place in the settings that an entry of a file fills. -/
inductive Slot where
  | number (get : Settings Float → Float) (set : Settings Float → Float → Settings Float)
  | count (get : Settings Float → Nat) (set : Settings Float → Nat → Settings Float)

/-- The entries of a file, with the places they fill. -/
def slots : List (String × Slot) :=
  [("coarse_cell_px", .number coarseCell fun s v => { s with coarseCell := v }),
   ("fine_coarse_step_px", .number fineCell fun s v => { s with fineCell := v }),
   ("fine_subdivisions", .count fineSubdivisions fun s n => { s with fineSubdivisions := n }),
   ("fine_region_factor", .number fineRegion fun s v => { s with fineRegion := v }),
   ("cache_drift_tolerance", .number driftTolerance fun s v => { s with driftTolerance := v }),
   ("sample_buffer_factor", .number stripWidths fun s v => { s with stripWidths := v }),
   ("samples_per_pixel", .number samplesPerPixel fun s v => { s with samplesPerPixel := v }),
   ("root_scan_step_px", .number rootStep fun s v => { s with rootStep := v }),
   ("snap_threshold_px", .number snapThreshold fun s v => { s with snapThreshold := v }),
   ("parameter_debounce_ms", .count parameterDelay fun s n => { s with parameterDelay := n }),
   ("edit_debounce_ms", .count editDelay fun s n => { s with editDelay := n }),
   ("scroll_settle_ms", .count scrollDelay fun s n => { s with scrollDelay := n }),
   ("zoom_factor", .number zoomFactor fun s v => { s with zoomFactor := v }),
   ("default_scale", .number defaultScale fun s v => { s with defaultScale := v }),
   ("linear_probe_x", .number linearProbe fun s v => { s with linearProbe := v }),
   ("worker_threads", .count workers fun s n => { s with workers := n })]

/-- The settings with one entry of a file taken over. Entries of other names are
left alone; there are none if the value is of the wrong kind: a count has to be a
whole number of 64 bits, a number may be whole. -/
def assign? (s : Settings Float) (name : String) (value : Value) : Option (Settings Float) :=
  match slots.lookup name with
  | none => some s
  | some (.number _ set) =>
    match value with
    | .whole n => some (set s (Float.ofInt n))
    | .decimal v => some (set s v)
    | .other => none
  | some (.count _ set) =>
    match value with
    | .whole n => if 0 ≤ n ∧ n < 0x10000000000000000 then some (set s n.toNat) else none
    | _ => none

/-- The settings with the entries of a file taken over in turn. -/
def assignAll? (s : Settings Float) (entries : List (String × Value)) : Option (Settings Float) :=
  entries.foldlM (fun s e => s.assign? e.1 e.2) s

/-- Every setting under its name. -/
def entries (s : Settings Float) : List (String × Value) :=
  slots.map fun (name, slot) =>
    match slot with
    | .number get _ => (name, .decimal (get s))
    | .count get _ => (name, .whole (get s))

end Settings

end CurvePlot
