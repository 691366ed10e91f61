import CurvePlot.Proofs.Keyed
import CurvePlot.Proofs.Scene.Operations
import CurvePlot.Proofs.Scene.Run
import CurvePlot.Scene.Procedure
/-!
# Operations that are refused

`Request` lists the operations that may be refused, and `Refused` says which of them are,
on which scenes and for what cause: no such equation, no such slider, a range whose lower
end is not below its upper one, a file that cannot be read.

A request is carried out in two ways. `Request.outcome` makes a new scene of the old one.
`Request.perform` writes into the scene in place, one part after the other, with the checks
in between. `perform_run` says that the two agree: a procedure that stops has changed
nothing. Nothing gives a scene back that was written to, so this rests on every check
standing before the first write that counts; the one that does not, where `remove` takes
the row out and looks afterwards whether there was one, has taken nothing out
(`Keyed.erase_eq_self`).
-/

namespace CurvePlot

namespace Scene

variable {s s' t : Scene} {id : Nat} {e : SceneError} {α β : Type}

/-! ### Running a procedure -/

namespace Procedure

/-- An answer that is returned leaves the scene as it is. -/
@[simp]
theorem run_pure (a : α) : (pure a : Procedure α).run s = (.ok a, s) := rfl

/-- So does a refusal. -/
@[simp]
theorem run_throw : (throw e : Procedure α).run s = (.error e, s) := rfl

/-- To read the scene is to be answered with it. -/
@[simp]
theorem run_get : (get : Procedure Scene).run s = (.ok s, s) := rfl

/-- A change is always answered. -/
@[simp]
theorem run_change (f : Scene → Scene) : (change f).run s = (.ok (), f s) := rfl

/-- Whether the next step is taken depends on the answer of the one before. -/
theorem run_bind (p : Procedure α) (f : α → Procedure β) : (p >>= f).run s =
    match p.run s with
    | (x, t) => (ExceptT.bindCont f x : StateM Scene _) t := rfl

/-- What comes next goes on with the scene as it is left. -/
theorem run_bind_ok {p : Procedure α} {a : α} (h : p.run s = (.ok a, t)) (f : α → Procedure β) :
    (p >>= f).run s = (f a).run t := by
  rw [run_bind, h]
  rfl

/-- After a refusal no further step is taken. -/
theorem run_bind_error {p : Procedure α} (h : p.run s = (.error e, t)) (f : α → Procedure β) :
    (p >>= f).run s = (.error e, t) := by
  rw [run_bind, h]
  rfl

/-- A step that changes the scene is never the last word: what follows sees the change. -/
theorem run_change_bind (f : Scene → Scene) (p : Procedure β) :
    (change f >>= fun _ => p).run s = p.run (f s) :=
  run_bind_ok (run_change f) _

/-- A procedure that asks for a row first is refused as the look-up of the row is. -/
theorem run_entry_bind (f : Row → Procedure β) : (entry id >>= f).run s =
    match s.row id with
    | .ok r => (f r).run s
    | .error e => (.error e, s) := by
  rw [entry, row]
  cases h : s.rows.get? id with
  | none =>
    refine run_bind_error ?_ _
    rw [run_bind_ok run_get, h]
    exact run_throw
  | some r =>
    refine run_bind_ok ?_ _
    rw [run_bind_ok run_get, h]
    exact run_pure r

/-- A procedure that asks for a slider that is there goes on with it. -/
theorem run_slider_bind_of_some {r : Row} {name : Char} {p : Parameter}
    (h : r.equation.parameters.get? name = some p) (f : Parameter → Procedure β) :
    (slider id r name >>= f).run s = (f p).run s := by
  rw [slider, h]
  exact run_bind_ok (run_pure p) f

/-- One that asks for a slider that is not there is refused. -/
theorem run_slider_bind_of_none {r : Row} {name : Char}
    (h : r.equation.parameters.get? name = none) (f : Parameter → Procedure β) :
    (slider id r name >>= f).run s = (.error (.unknownParameter id name), s) := by
  rw [slider, h]
  exact run_bind_error run_throw f

/-- What is made of the answer in the end is no further step. -/
theorem run_bind_pure {p : Procedure α} {x : Except SceneError α} (h : p.run s = (x, t))
    (g : α → β) : (p >>= fun a => pure (g a)).run s = (x.map g, t) := by
  cases x with
  | error e => exact run_bind_error h _
  | ok a => exact run_bind_ok h _

/-- A row of changes that cannot stop is one change. -/
theorem run_forM_change {γ : Type} (f : Scene → γ → Scene) (l : List γ) :
    (l.forM fun a => change fun s => f s a).run s = (.ok (), l.foldl f s) := by
  -- the rest of the changes begins with another scene
  induction l generalizing s with
  | nil => exact run_pure ()
  | cons a l ih => exact (run_change_bind _ _).trans ih

end Procedure

/-! ### In place, and as a new scene -/

section InPlace

open Procedure

variable {rows : Keyed Nat Row} {r : Row} {name : Char}

/-- A row is written where a slider moves, and once more where what was kept ready goes. -/
theorem modifySlider_evict (h : rows.get? id = some r) (f : Parameter → Parameter) :
    (rows.modify id (Row.modifySlider name f)).modify id Row.evict = rows.modify id fun r' =>
      Row.evict { r' with equation :=
        { r'.equation with parameters := r.equation.parameters.modify name f } } := by
  rw [Keyed.modify_modify]
  exact Keyed.modify_congr h rfl

/-- The ends that are written one after the other are the range. -/
theorem modifySlider_ends {p : Parameter} {min max : Float} (h : rows.get? id = some r)
    (hp : r.equation.parameters.get? name = some p) :
    (rows.modify id (Row.modifySlider name fun p => { p with min := min })).modify id
      (Row.modifySlider name fun p => { p with max := max }) = rows.modify id fun r' =>
        { r' with equation := { r'.equation with
          parameters := r'.equation.parameters.insert name { p with min := min, max := max } } } := by
  rw [Keyed.modify_modify]
  -- both writes happen in one row, so only what becomes of that row is to be compared
  refine Keyed.modify_congr h ?_
  have hends : (r.equation.parameters.modify name fun p => { p with min := min }).modify name
      (fun p => { p with max := max }) =
        r.equation.parameters.insert name { p with min := min, max := max } := by
    rw [Keyed.modify_modify, Keyed.modify_eq_insert _ hp]
    rfl
  simp only [Function.comp_apply, Row.modifySlider, hends]

/-- **In place, an equation is taken out** as it is in a new scene. -/
theorem run_remove (s : Scene) (id : Nat) : (Procedure.remove id).run s =
    ((s.remove id).map fun _ => (), s.after (s.remove id)) := by
  rw [Procedure.remove, run_bind_ok run_get, run_change_bind, remove, row]
  cases h : s.rows.get? id with
  | none =>
    -- the row was taken out already, but there was none
    have hsame : { s with rows := s.rows.erase id } = s := by rw [Keyed.erase_eq_self h]
    rw [hsame]
    exact run_bind_error run_throw _
  | some r => rfl

/-- **In place, a text is set** as it is in a new scene. -/
theorem run_setText (s : Scene) (id : Nat) (text : String) : (Procedure.setText id text).run s =
    ((s.setText id text).map fun _ => (), s.after (s.setText id text)) := by
  unfold Procedure.setText setText
  split
  · -- a blank text removes the equation
    exact run_remove s id
  · rw [run_bind_ok run_get, run_entry_bind]
    cases h : s.row id with
    | error e => rfl
    | ok r =>
      -- the row is written twice: first its equation, then what was kept ready
      simp only [run_change_bind, updateRow, Keyed.modify_modify]
      rw [Keyed.modify_eq_insert _ (row_eq_ok.mp h)]
      rfl

/-- **In place, a text is typed** as it is in a new scene. -/
theorem run_editText (s : Scene) (id : Nat) (text : String) (now : Nat) :
    (Procedure.editText id text now).run s =
      ((s.editText id text now).map fun _ => (), s.after (s.editText id text now)) := by
  rw [Procedure.editText, run_entry_bind, editText]
  cases s.row id <;> rfl

/-- **In place, a color is set** as it is in a new scene. -/
theorem run_setColor (s : Scene) (id : Nat) (color : Color) :
    (Procedure.setColor id color).run s =
      ((s.setColor id color).map fun _ => (), s.after (s.setColor id color)) := by
  rw [Procedure.setColor, run_entry_bind, setColor]
  cases s.row id <;> rfl

/-- The sliders of an equation are read off, and nothing is written. -/
theorem run_parameters (s : Scene) (id : Nat) :
    (Procedure.parameters id).run s = (s.parameters id, s) := by
  rw [Procedure.parameters, run_entry_bind, parameters]
  cases s.row id <;> rfl

/-- **In place, a slider is moved** as it is in a new scene. -/
theorem run_setParameter (s : Scene) (id : Nat) (name : Char) (value : Float) (now : Nat) :
    (Procedure.setParameter id name value now).run s =
      ((s.setParameter id name value now).map fun _ => (),
        s.after (s.setParameter id name value now)) := by
  rw [Procedure.setParameter, run_entry_bind, setParameter]
  cases h : s.row id with
  | error e => rfl
  | ok r =>
    dsimp only
    rw [Parameter.Table.set?, Keyed.contains]
    -- the slider is looked up before the first write
    cases hp : r.equation.parameters.get? name with
    | none => exact run_slider_bind_of_none hp _
    | some p =>
      rw [run_slider_bind_of_some hp, writeSlider, run_change_bind, run_change_bind, updateRow,
        updateRow, modifySlider_evict (row_eq_ok.mp h)]
      rfl

/-- **In place, a range is set** as it is in a new scene. -/
theorem run_setParameterRange (s : Scene) (id : Nat) (name : Char) (min max : Float) :
    (Procedure.setParameterRange id name min max).run s =
      ((s.setParameterRange id name min max).map fun _ => (),
        s.after (s.setParameterRange id name min max)) := by
  rw [Procedure.setParameterRange, run_entry_bind, setParameterRange]
  cases h : s.row id with
  | error e => rfl
  | ok r =>
    dsimp only
    cases hp : r.equation.parameters.get? name with
    | none => exact run_slider_bind_of_none hp _
    | some p =>
      rw [run_slider_bind_of_some hp]
      dsimp only
      -- the range is checked before the first write as well
      unfold Parameter.setRange?
      split
      · -- the lower end is written and then the upper one
        rw [writeSlider, writeSlider, run_change_bind, run_change, updateRow, updateRow,
          modifySlider_ends (row_eq_ok.mp h) hp]
        rfl
      · rfl

/-- The outcome of a load, given what reading the file gave. -/
def loadRead (s : Scene) : Option String → Except SceneError (Scene × Nat)
  | some sheet => .ok (s.loadSheet sheet)
  | none => .error .file

/-- A load takes from the file system no more than what is read from the file. -/
theorem load_eq {m : Type → Type} [Monad m] (s : Scene) (fs : FileSystem m) (path : String) :
    s.load fs path = do return s.loadRead (← fs.read path) := by
  unfold load
  congr 1
  funext content
  cases content <;> rfl

/-- **In place, a file is loaded** as it is in a new scene. -/
theorem run_load (s : Scene) (content : Option String) : (Procedure.load content).run s =
    ((s.loadRead content).map (·.2), s.after ((s.loadRead content).map (·.1))) := by
  cases content with
  | none => exact run_throw
  | some sheet =>
    -- reading the file is the only step that may stop, and it is over
    rw [Procedure.load, run_change_bind, run_bind_ok (run_forM_change add _)]
    rfl

end InPlace

/-! ### What is refused -/

/-- An operation that may be refused. -/
inductive Request where
  | remove (id : Nat)
  | setText (id : Nat) (text : String)
  | editText (id : Nat) (text : String) (now : Nat)
  | setColor (id : Nat) (color : Color)
  | parameters (id : Nat)
  | setParameter (id : Nat) (name : Char) (value : Float) (now : Nat)
  | setParameterRange (id : Nat) (name : Char) (min max : Float)
  /-- A file is loaded, given what reading it gave. -/
  | load (content : Option String)

/-- What a request is answered with if it is not refused. -/
inductive Answer where
  /-- The request is carried out, and there is nothing to tell. -/
  | done
  /-- The sliders of the equation. -/
  | sliders (table : Parameter.Table)
  /-- The number of equations that were loaded. -/
  | count (n : Nat)

namespace Request

/-- The number of the equation that is asked for. -/
def id? : Request → Option Nat
  | remove id | setText id _ | editText id _ _ | setColor id _ | parameters id
  | setParameter id _ _ _ | setParameterRange id _ _ _ => some id
  | load _ => none

/-- The letter of the slider that is asked for. -/
def name? : Request → Option Char
  | setParameter _ name _ _ | setParameterRange _ name _ _ => some name
  | _ => none

/-- The request as an operation that makes a new scene. -/
def outcome (s : Scene) : Request → Except SceneError (Answer × Scene)
  | remove id => (s.remove id).map (.done, ·)
  | setText id text => (s.setText id text).map (.done, ·)
  | editText id text now => (s.editText id text now).map (.done, ·)
  | setColor id color => (s.setColor id color).map (.done, ·)
  | parameters id => (s.parameters id).map fun table => (.sliders table, s)
  | setParameter id name value now => (s.setParameter id name value now).map (.done, ·)
  | setParameterRange id name min max => (s.setParameterRange id name min max).map (.done, ·)
  | load content => (s.loadRead content).map fun (t, n) => (.count n, t)

/-- The request as a procedure that writes into the scene. -/
def perform : Request → Procedure Answer
  | remove id => do Procedure.remove id; return .done
  | setText id text => do Procedure.setText id text; return .done
  | editText id text now => do Procedure.editText id text now; return .done
  | setColor id color => do Procedure.setColor id color; return .done
  | parameters id => do return .sliders (← Procedure.parameters id)
  | setParameter id name value now => do
    Procedure.setParameter id name value now
    return .done
  | setParameterRange id name min max => do
    Procedure.setParameterRange id name min max
    return .done
  | load content => do return .count (← Procedure.load content)

end Request

/-- **The requests that are refused,** each with its cause. -/
inductive Refused (s : Scene) : Request → SceneError → Prop
  /-- There is no such equation. -/
  | unknownEquation {q : Request} {id : Nat} (hq : q.id? = some id)
      (hr : s.rows.get? id = none) : Refused s q (.unknownEquation id)
  /-- The equation has no such slider. -/
  | unknownParameter {q : Request} {id : Nat} {name : Char} {r : Row} (hq : q.id? = some id)
      (hname : q.name? = some name) (hr : s.rows.get? id = some r)
      (hp : r.equation.parameters.get? name = none) : Refused s q (.unknownParameter id name)
  /-- The lower end of the range is not below the upper one. -/
  | invalidRange {id : Nat} {name : Char} {min max : Float} {r : Row} {p : Parameter}
      (hr : s.rows.get? id = some r) (hp : r.equation.parameters.get? name = some p)
      (h : ¬ min < max) : Refused s (.setParameterRange id name min max) (.invalidRange min max)
  /-- The file cannot be read. -/
  | unreadable : Refused s (.load none) .file

variable {q : Request}

/-- A procedure that tells nothing agrees with its operation, if it does but for what it tells. -/
theorem run_done {p : Procedure Unit} {o : Except SceneError Scene}
    (h : p.run s = (o.map fun _ => (), s.after o)) :
    (p >>= fun _ => pure Answer.done).run s =
      ((o.map fun t => (Answer.done, t)).map (·.1),
        s.after ((o.map fun t => (Answer.done, t)).map (·.2))) := by
  rw [Procedure.run_bind_pure h]
  cases o <;> rfl

/-- **In place and as a new scene is the same:** a procedure that is answered leaves the
scene that the operation makes, and one that is refused leaves the scene as it was. -/
theorem perform_run (s : Scene) (q : Request) : q.perform.run s =
    ((q.outcome s).map (·.1), s.after ((q.outcome s).map (·.2))) := by
  cases q with
  | remove id => exact run_done (run_remove s id)
  | setText id text => exact run_done (run_setText s id text)
  | editText id text now => exact run_done (run_editText s id text now)
  | setColor id color => exact run_done (run_setColor s id color)
  | parameters id =>
    rw [Request.perform, Procedure.run_bind_pure (run_parameters s id), Request.outcome]
    cases s.parameters id <;> rfl
  | setParameter id name value now => exact run_done (run_setParameter s id name value now)
  | setParameterRange id name min max => exact run_done (run_setParameterRange s id name min max)
  | load content =>
    rw [Request.perform, Procedure.run_bind_pure (run_load s content), Request.outcome]
    cases content <;> rfl

/-- **Without the equation every request for one is refused.** -/
theorem outcome_of_row_none (hq : q.id? = some id) (hr : s.rows.get? id = none) :
    q.outcome s = .error (.unknownEquation id) := by
  have hrow : s.row id = .error (.unknownEquation id) := by rw [row, hr]
  cases q with
  | load content => cases hq
  | setText i text =>
    -- a blank text is a removal, which looks for the row too
    cases hq
    rw [Request.outcome, setText, remove, hrow]
    split <;> rfl
  | remove i => cases hq; rw [Request.outcome, remove, hrow]; rfl
  | editText i text now => cases hq; rw [Request.outcome, editText, hrow]; rfl
  | setColor i color => cases hq; rw [Request.outcome, setColor, hrow]; rfl
  | parameters i => cases hq; rw [Request.outcome, parameters, hrow]; rfl
  | setParameter i name value now => cases hq; rw [Request.outcome, setParameter, hrow]; rfl
  | setParameterRange i name min max =>
    cases hq
    rw [Request.outcome, setParameterRange, hrow]
    rfl

/-- Where no slider is asked for, the row is all that is needed. -/
theorem outcome_of_row_some {r : Row} (hq : q.id? = some id) (hname : q.name? = none)
    (hr : s.rows.get? id = some r) : ∃ a t, q.outcome s = .ok (a, t) := by
  have hrow : s.row id = .ok r := row_eq_ok.mpr hr
  cases q with
  | load content => cases hq
  | setText i text =>
    cases hq
    rw [Request.outcome, setText, remove, hrow]
    split
    · exact ⟨_, _, rfl⟩
    · exact ⟨_, _, rfl⟩
  | remove i => cases hq; rw [Request.outcome, remove, hrow]; exact ⟨_, _, rfl⟩
  | editText i text now => cases hq; rw [Request.outcome, editText, hrow]; exact ⟨_, _, rfl⟩
  | setColor i color => cases hq; rw [Request.outcome, setColor, hrow]; exact ⟨_, _, rfl⟩
  | parameters i => cases hq; rw [Request.outcome, parameters, hrow]; exact ⟨_, _, rfl⟩
  | setParameter i name value now => cases hname
  | setParameterRange i name min max => cases hname

/-- A slider moves exactly if it is there. -/
theorem setParameter_cases {r : Row} (hr : s.rows.get? id = some r) (name : Char) (value : Float)
    (now : Nat) :
    (r.equation.parameters.get? name = none ∧
      s.setParameter id name value now = .error (.unknownParameter id name)) ∨
    (∃ p t, r.equation.parameters.get? name = some p ∧
      s.setParameter id name value now = .ok t) := by
  rw [setParameter, row_eq_ok.mpr hr]
  dsimp only
  rw [Parameter.Table.set?, Keyed.contains]
  cases r.equation.parameters.get? name with
  | none => exact .inl ⟨rfl, rfl⟩
  | some p => exact .inr ⟨p, _, rfl, rfl⟩

/-- A range is written exactly if its slider is there and the range is one. -/
theorem setParameterRange_cases {r : Row} (hr : s.rows.get? id = some r) (name : Char)
    (min max : Float) :
    (r.equation.parameters.get? name = none ∧
      s.setParameterRange id name min max = .error (.unknownParameter id name)) ∨
    (∃ p, r.equation.parameters.get? name = some p ∧ ¬ min < max ∧
      s.setParameterRange id name min max = .error (.invalidRange min max)) ∨
    (∃ p t, r.equation.parameters.get? name = some p ∧ min < max ∧
      s.setParameterRange id name min max = .ok t) := by
  rw [setParameterRange, row_eq_ok.mpr hr]
  dsimp only
  cases r.equation.parameters.get? name with
  | none => exact .inl ⟨rfl, rfl⟩
  | some p =>
    dsimp only
    by_cases h : min < max
    · rw [Parameter.setRange?, if_pos h]
      exact .inr (.inr ⟨p, _, rfl, h, rfl⟩)
    · rw [Parameter.setRange?, if_neg h]
      exact .inr (.inl ⟨p, rfl, h, rfl⟩)

/-- What is refused is refused for one of the causes. -/
theorem refused_of_outcome (h : q.outcome s = .error e) : Refused s q e := by
  -- a request either names no equation, and loads a file, or the causes are found one after the
  -- other: the row, the slider, the range
  cases hq : q.id? with
  | none =>
    cases q with
    | load content =>
      cases content with
      | none => cases h; exact .unreadable
      | some sheet => cases h
    | _ => cases hq
  | some id =>
    cases hr : s.rows.get? id with
    | none =>
      rw [outcome_of_row_none hq hr] at h
      cases h
      exact .unknownEquation hq hr
    | some r =>
      cases hname : q.name? with
      | none =>
        -- the row is there, and it is all that was asked for
        obtain ⟨a, t, hok⟩ := outcome_of_row_some hq hname hr
        rw [hok] at h
        cases h
      | some name =>
        cases q with
        | setParameter i n value now =>
          cases hq
          rcases setParameter_cases hr n value now with ⟨hp, ho⟩ | ⟨p, t, hp, ho⟩
          · rw [Request.outcome, ho] at h
            cases h
            exact .unknownParameter rfl rfl hr hp
          · -- the slider is there
            rw [Request.outcome, ho] at h
            cases h
        | setParameterRange i n min max =>
          cases hq
          rcases setParameterRange_cases hr n min max with
            ⟨hp, ho⟩ | ⟨p, hp, hlt, ho⟩ | ⟨p, t, hp, hlt, ho⟩
          · rw [Request.outcome, ho] at h
            cases h
            exact .unknownParameter rfl rfl hr hp
          · rw [Request.outcome, ho] at h
            cases h
            exact .invalidRange hr hp hlt
          · rw [Request.outcome, ho] at h
            cases h
        | _ => cases hname

/-- For each of the causes the request is refused. -/
theorem outcome_of_refused (h : Refused s q e) : q.outcome s = .error e := by
  cases h with
  | unknownEquation hq hr => exact outcome_of_row_none hq hr
  | @unknownParameter _ _ name r hq hname hr hp =>
    cases q with
    | setParameter i n value now =>
      cases hq
      cases hname
      rcases setParameter_cases hr name value now with ⟨-, ho⟩ | ⟨p, t, hp', -⟩
      · rw [Request.outcome, ho]; rfl
      · rw [hp] at hp'; cases hp'
    | setParameterRange i n min max =>
      cases hq
      cases hname
      rcases setParameterRange_cases hr name min max with ⟨-, ho⟩ | ⟨p, hp', -⟩ | ⟨p, t, hp', -⟩
      · rw [Request.outcome, ho]; rfl
      · rw [hp] at hp'; cases hp'
      · rw [hp] at hp'; cases hp'
    | _ => cases hname
  | @invalidRange id n min max r p hr hp hlt =>
    rcases setParameterRange_cases hr n min max with ⟨hp', -⟩ | ⟨p, -, -, ho⟩ | ⟨p, t, -, hlt', -⟩
    · rw [hp] at hp'; cases hp'
    · rw [Request.outcome, ho]; rfl
    · exact absurd hlt' hlt
  | unreadable => rfl

/-- **A request that is refused changes nothing,** and it is refused exactly if there is no
such equation, no such slider, a range whose lower end is not below its upper one, or no
readable file. One that is not refused leaves the scene that the operation makes of the old
one. This holds on every scene, whatever it was made by. -/
theorem perform_refused (s : Scene) (q : Request) :
    (∀ e t, q.perform.run s = (.error e, t) ↔ Refused s q e ∧ t = s) ∧
    (∀ e, q.outcome s = .error e ↔ Refused s q e) ∧
    (∀ a t, q.perform.run s = (.ok a, t) ↔ q.outcome s = .ok (a, t)) ∧
    (∀ (m : Type → Type) [Monad m] (fs : FileSystem m) (path : String),
      s.load fs path = do return s.loadRead (← fs.read path)) := by
  have hrefused (e : SceneError) : q.outcome s = .error e ↔ Refused s q e :=
    ⟨refused_of_outcome, outcome_of_refused⟩
  refine ⟨fun e t => ?_, hrefused, fun a t => ?_, fun m _ fs path => load_eq s fs path⟩
  · rw [perform_run, ← hrefused]
    cases q.outcome s with
    | error e' => simp [Except.map, after, eq_comm]
    | ok answered => simp [Except.map]
  · rw [perform_run]
    cases q.outcome s with
    | error e' => simp [Except.map]
    | ok answered => simp [Except.map, after, Prod.ext_iff]

end Scene

end CurvePlot
