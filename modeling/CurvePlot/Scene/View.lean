import CurvePlot.Scene.Refresh
/-!
# Moving the view of a scene

While the plane is dragged or scrolled the scene is not refreshed; it is when the
drag ends, and when scrolling has rested. Every other change of the view refreshes
it at once.
-/

namespace CurvePlot.Scene

def beginDrag (s : Scene) : Scene := { s with dragging := true }

def endDrag (s : Scene) : Scene := { s with dragging := false }.refreshAll

/-- The plane is moved by a number of pixels. -/
def pan (s : Scene) (dx dy : Float) : Scene :=
  -- a drag moves the plane many times and is followed by one refresh
  let s := { s with viewport := s.viewport.pan dx dy }
  if s.isInteracting then s else s.refreshAll

/-- One step of scrolling with the cursor over a pixel. -/
def zoomAt (s : Scene) (px py : Float) (inward : Bool) (now : Nat) : Scene :=
  { s with
    viewport := s.viewport.zoomAt px py inward s.settings.zoomFactor
    scrollSettlesAt := some (now + s.settings.scrollDelay) }

def zoom (s : Scene) (inward : Bool) : Scene :=
  { s with viewport := s.viewport.zoom inward s.settings.zoomFactor }.refreshAll

/-- The view goes back to the origin and to its first scale. -/
def resetView (s : Scene) : Scene :=
  { s with viewport := s.viewport.reset s.settings.defaultScale }.refreshAll

def setView (s : Scene) (camera : Camera Float) : Scene :=
  { s with viewport := s.viewport.look camera }.refreshAll

def resize (s : Scene) (width height : Float) : Scene :=
  { s with viewport := s.viewport.resize width height }.refreshAll

end CurvePlot.Scene
