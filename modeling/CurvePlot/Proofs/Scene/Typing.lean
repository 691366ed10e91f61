import CurvePlot.Proofs.Equation.Lettering
import CurvePlot.Proofs.Parameter.Table
import CurvePlot.Proofs.Scene.Compiled
/-!
# Sliders while a text is typed

A new text takes over the sliders of the text before it, so that values outlast an edit. It
takes them over from the text just before it only. If that had no form, as while a brace is
still open, it had no parameters either, and then all sliders start anew: one such text
between two others, and every value is lost (`slider_lost`).

`slider_setText` says what one text does to the slider of a letter that stands alone in it:
the slider stays if the text has a form, starts anew if there was none, and is dropped if
the text has no form. That it stays with its range as well is so because all ranges of a
scene are ranges (`Equation.Ranged`). A session of typing is one such step after the other
(`run_retyped`).
-/

namespace CurvePlot

/-! ### Ranges -/

namespace Equation

/-- **Every slider has a range** that is one. -/
def Ranged (eq : Equation) : Prop :=
  ∀ c p, eq.parameters.get? c = some p → p.min < p.max

/-- **Ranges stay ranges,** as none is set that is not one. -/
theorem ranged_lasting (probe : Float) : Lasting probe Ranged where
  compile text c p hp := by
    rw [get?_compile hp]
    exact Parameter.standard_min_lt_max
  inherit {eq old} heq hold c p hp := by
    dsimp only at hp
    rw [Parameter.Table.inherit, Keyed.get?_mapValues] at hp
    obtain ⟨q, hq, rfl⟩ := Option.map_eq_some_iff.mp hp
    cases ho : old.parameters.get? c with
    | none => exact heq c q hq
    | some o =>
      -- the range is that of the older slider
      have hrange : o.min < o.max := hold c o ho
      rw [Option.map_some, Option.getD_some, Parameter.inherit_of_lt hrange]
      exact hrange
  set {eq name value moved} heq hset c p hp := by
    obtain rfl := Parameter.Table.eq_modify_of_set? hset
    rw [Keyed.get?_modify] at hp
    split at hp
    · -- a slider that moves keeps its range
      obtain ⟨q, hq, rfl⟩ := Option.map_eq_some_iff.mp hp
      exact heq c q hq
    · exact heq c p hp
  setRange {eq name min max p q} heq hp hq c o ho := by
    dsimp only at ho
    rw [Keyed.get?_insert] at ho
    split at ho
    · obtain rfl := Option.some.inj ho
      exact Parameter.min_lt_max_of_setRange? hq
    · exact heq c o ho

end Equation

namespace Scene

variable {settings : Settings Float} {s s' : Scene} {id : Nat} {r : Row} {c : Char}

/-! ### One text -/

/-- A text that is not blank is not refused where there is an equation. -/
theorem exists_row_setText (hr : s.rows.get? id = some r) {text : String} (hblank : ¬ Blank text) :
    ∃ r', (s.act (.setText id text)).rows.get? id = some r' ∧
      r'.equation = (r.retyped (s.compile text)).equation := by
  cases hs : s.setText id text with
  | error e => exact absurd hr (by rw [setText_eq_error hs]; nofun)
  | ok s' =>
    rw [act, hs]
    rcases setText_eq_ok hs with ⟨hremoved, -⟩ | ⟨-, old, hold, rfl⟩
    · exact absurd hremoved hblank
    · obtain rfl : old = r := Option.some.inj (hold.symm.trans hr)
      exact (Refreshed.refreshEquation _ id).refreshDerived.exists_row
        (Keyed.get?_insert_self s.rows id _)

/-- **What one text does to a slider** whose letter stands alone in it: it stays, or it
starts if there was none, and it is lost if the text has no form. -/
theorem slider_setText (hranged : r.equation.Ranged) (hr : s.rows.get? id = some r)
    {text : String} (hblank : ¬ Blank text) (hc : Parameter.isName c = true)
    (halone : Text.StandsAlone c (Text.lowercase text.toList)) :
    ∃ r', (s.act (.setText id text)).rows.get? id = some r' ∧ r'.equation.raw = text ∧
      r'.equation.parameters.get? c =
        if Equation.HasForm text then some ((r.equation.parameters.get? c).getD .standard)
        else none := by
  obtain ⟨r', hr', heq⟩ := exists_row_setText hr hblank
  refine ⟨r', hr', ?_, ?_⟩
  · rw [heq]
    exact Equation.raw_compile text s.settings.linearProbe
  · have hcompiled := Equation.get?_compile_of_standsAlone hc halone s.settings.linearProbe
    have hslider : r'.equation.parameters.get? c =
        ((s.compile text).parameters.inherit r.equation.parameters).get? c := by
      rw [heq]
      rfl
    rw [hslider, Parameter.Table.inherit, Keyed.get?_mapValues, Scene.compile, hcompiled]
    split
    · cases hold : r.equation.parameters.get? c with
      | none => rfl
      | some p =>
        rw [Option.map_some, Option.map_some, Option.getD_some, Option.getD_some,
          Parameter.inherit_of_lt (hranged c p hold)]
    · rfl

/-! ### A session of typing -/

/-- The letter has a slider exactly if the text has a form. -/
def HasSlider (c : Char) (eq : Equation) : Prop :=
  (∃ p, eq.parameters.get? c = some p) ↔ Equation.HasForm eq.raw

theorem HasSlider.eq_none {eq : Equation} (h : HasSlider c eq) (hnot : ¬ Equation.HasForm eq.raw) :
    eq.parameters.get? c = none := by
  rw [Option.eq_none_iff_forall_ne_some]
  intro p hp
  exact hnot (h.mp ⟨p, hp⟩)

/-- **What became of a slider** from the one equation to the other by a row of texts. It is
the same one if all texts had a form, the one before them too. If one had none, it is a new
one, or none at all if the last text has no form. -/
structure Typed (c : Char) (texts : List String) (eq eq' : Equation) : Prop where
  raw : eq'.raw = (eq.raw :: texts).getLast (List.cons_ne_nil _ _)
  kept : (∀ text ∈ eq.raw :: texts, Equation.HasForm text) →
    ∃ p, eq.parameters.get? c = some p ∧ eq'.parameters.get? c = some p
  lost : (∃ text ∈ eq.raw :: texts, ¬ Equation.HasForm text) →
    eq'.parameters.get? c = if Equation.HasForm eq'.raw then some .standard else none

namespace Typed

variable {eq mid eq' : Equation} {text : String} {texts : List String}

theorem nil (h : HasSlider c eq) : Typed c [] eq eq where
  raw := rfl
  kept hforms := by
    obtain ⟨p, hp⟩ := h.mpr (hforms eq.raw List.mem_cons_self)
    exact ⟨p, hp, hp⟩
  lost := by
    rintro ⟨text, htext, hnot⟩
    obtain rfl : text = eq.raw := List.mem_singleton.mp htext
    rw [if_neg hnot, h.eq_none hnot]

/-- One text, and then the others. -/
theorem cons (h : HasSlider c eq) (hraw : mid.raw = text)
    (hstep : mid.parameters.get? c =
      if Equation.HasForm text then some ((eq.parameters.get? c).getD .standard) else none)
    (hrest : Typed c texts mid eq') : Typed c (text :: texts) eq eq' where
  raw := by
    rw [hrest.raw, List.getLast_cons (List.cons_ne_nil text texts)]
    subst hraw
    rfl
  kept hforms := by
    subst hraw
    obtain ⟨p, hp⟩ := h.mpr (hforms eq.raw List.mem_cons_self)
    obtain ⟨q, hmid, hq⟩ := hrest.kept fun text htext => hforms text (List.mem_cons_of_mem _ htext)
    have hform := hforms mid.raw (List.mem_cons_of_mem _ List.mem_cons_self)
    rw [if_pos hform, hp, Option.getD_some, hmid] at hstep
    exact ⟨p, hp, hq.trans hstep⟩
  lost := by
    rintro ⟨bad, hbad, hnot⟩
    subst hraw
    by_cases hlater : ∃ text ∈ mid.raw :: texts, ¬ Equation.HasForm text
    · exact hrest.lost hlater
    · -- only the text before all others had no form, and then the slider is made now
      have hforms : ∀ text ∈ mid.raw :: texts, Equation.HasForm text := by
        intro text htext
        by_contra hno
        exact hlater ⟨text, htext, hno⟩
      obtain rfl : bad = eq.raw := by
        rcases List.mem_cons.mp hbad with heq | hmem
        · exact heq
        · exact absurd (hforms bad hmem) hnot
      obtain ⟨q, hmid, hq⟩ := hrest.kept hforms
      rw [if_pos (hforms mid.raw List.mem_cons_self), h.eq_none hnot, Option.getD_none, hmid]
        at hstep
      have hlast : Equation.HasForm eq'.raw := by
        rw [hrest.raw]
        exact hforms _ (List.getLast_mem _)
      rw [if_pos hlast]
      exact hq.trans hstep

end Typed

/-- One text after the other. -/
theorem typed_run (hranged : s.EveryEquation settings Equation.Ranged)
    (hr : s.rows.get? id = some r) (hslider : HasSlider c r.equation)
    (hc : Parameter.isName c = true) {texts : List String} (hblank : ∀ text ∈ texts, ¬ Blank text)
    (halone : ∀ text ∈ texts, Text.StandsAlone c (Text.lowercase text.toList)) :
    ∃ r', (s.run (texts.map (.setText id))).rows.get? id = some r' ∧
      Typed c texts r.equation r'.equation := by
  -- the scene goes from text to text, and with it what is known of the slider
  induction texts generalizing s r with
  | nil => exact ⟨r, hr, .nil hslider⟩
  | cons text texts ih =>
    obtain ⟨mid, hmid, hraw, hstep⟩ := slider_setText (hranged.row id r hr) hr
      (hblank text List.mem_cons_self) hc (halone text List.mem_cons_self)
    have hslider' : HasSlider c mid.equation := by
      rw [HasSlider, hraw, hstep]
      split
      · next hform => exact iff_of_true ⟨_, rfl⟩ hform
      · next hform => exact iff_of_false nofun hform
    obtain ⟨r', hr', hrest⟩ := ih (hranged.act (Equation.ranged_lasting _) s _) hmid hslider'
      (fun text htext => hblank text (List.mem_cons_of_mem _ htext))
      (fun text htext => halone text (List.mem_cons_of_mem _ htext))
    exact ⟨r', hr', .cons hslider hraw hstep hrest⟩

/-- What a text says of the slider of a letter that stands alone in it, its equation has. -/
theorem hasSlider_of_ofText (h : OfText settings r.equation) (hc : Parameter.isName c = true)
    (halone : Text.StandsAlone c (Text.lowercase r.equation.raw.toList)) :
    HasSlider c r.equation := by
  have hcompiled := Equation.get?_compile_of_standsAlone hc halone settings.linearProbe
  rw [HasSlider, ← Keyed.mem_keys, h.names, Keyed.mem_keys, hcompiled]
  split
  · next hform => exact iff_of_true ⟨_, rfl⟩ hform
  · next hform => exact iff_of_false nofun hform

/-- **Sliders outlast typing as long as every text has a form.** Take an equation of any
scene, a letter that can name a parameter, and a row of texts that are not blank, such that
the letter stands alone in the text of the equation and in all of the row. If all these
texts have a form, readable or not, the slider of the letter stands where it stood and has
the range that it had when the texts have been set one after the other. If one of them has
none, the slider is a new one, or is missing if the last text has no form. -/
theorem run_retyped (settings : Settings Float) (width height : Float) (actions : List Action)
    (id : Nat) (r : Row) (c : Char) (texts : List String)
    (hr : ((Scene.new settings width height).run actions).rows.get? id = some r)
    (hblank : ∀ text ∈ texts, ¬ Blank text) (hc : Parameter.isName c = true)
    (halone : ∀ text ∈ r.equation.raw :: texts,
      Text.StandsAlone c (Text.lowercase text.toList)) :
    ∃ r', (((Scene.new settings width height).run actions).run
        (texts.map (.setText id))).rows.get? id = some r' ∧
      Typed c texts r.equation r'.equation := by
  have hranged := EveryEquation.run (Equation.ranged_lasting settings.linearProbe) width height
    actions
  have htext := (Compiled.run settings width height actions).row id r hr
  have hslider := hasSlider_of_ofText htext hc (halone _ List.mem_cons_self)
  exact typed_run hranged hr hslider hc hblank fun text htext =>
    halone text (List.mem_cons_of_mem _ htext)

section Examples

/-! ### A brace that is still open -/

theorem exists_row_add (s : Scene) (text : String) : ∃ r,
    (s.add text).rows.get? s.nextId = some r ∧ r.equation = s.compile text := by
  let row := Row.fresh (s.compile text) s.palette.upcoming
  let put : Scene := { s with
    palette := s.palette.advance, rows := s.rows.insert s.nextId row, nextId := s.nextId + 1 }
  have hput : put.rows.get? s.nextId = some row := Keyed.get?_insert_self s.rows s.nextId row
  exact (Refreshed.refreshEquation put s.nextId).refreshDerived.exists_row hput

theorem exists_row_setParameter (hr : s.rows.get? id = some r) {p : Parameter}
    (hp : r.equation.parameters.get? c = some p) (value : Float) (now : Nat) :
    ∃ r', (s.act (.setParameter id c value now)).rows.get? id = some r' ∧
      r'.equation.raw = r.equation.raw ∧
        r'.equation.parameters.get? c = some { p with value := value } := by
  have hset : r.equation.parameters.set? c value =
      some (r.equation.parameters.modify c fun p => { p with value := value }) := by
    apply if_pos
    rw [Keyed.contains, hp]
    rfl
  cases hs : s.setParameter id c value now with
  | error e =>
    unfold setParameter at hs
    rw [row_eq_ok.mpr hr] at hs
    dsimp only at hs
    rw [hset] at hs
    cases hs
  | ok s' =>
    obtain ⟨old, moved, hold, hmoved, rfl⟩ := setParameter_eq_ok hs
    obtain rfl : r = old := Option.some.inj (hr.symm.trans hold)
    obtain rfl := Option.some.inj (hset.symm.trans hmoved)
    rw [act, hs]
    refine ⟨_, (Keyed.get?_modify_self s.rows id _).trans (congrArg _ hr), rfl, ?_⟩
    exact (Keyed.get?_modify_self r.equation.parameters c _).trans (congrArg _ hp)

/-- The letter behind `y = ` stands alone, if none is next to it. -/
theorem standsAlone_of_eq {text : String} {rest : List Char}
    (htext : Text.lowercase text.toList = "y = ".toList ++ c :: rest)
    (hrest : Text.BeginsFree rest) : Text.StandsAlone c (Text.lowercase text.toList) := by
  have hfront : Text.EndsFree "y = ".toList := Text.endsFree_concat (d := ' ') rfl ['y', ' ', '=']
  have hlone : Text.Lone c ("y = ".toList ++ c :: rest) := ⟨_, rest, rfl, hfront, hrest⟩
  rw [htext]
  exact hlone.standsAlone rfl (by decide)

/-- A scene with the equation `y = a*x`, in which the slider of `a` was moved to 2.5. -/
def tuned : Scene :=
  (Scene.new .standard 800.0 600.0).run [.add "y = a*x", .setParameter 0 'a' 2.5 0]

theorem standsAlone_product (text : String) (rest : List Char)
    (htext : Text.lowercase text.toList = "y = ".toList ++ 'a' :: '*' :: rest) :
    Text.StandsAlone 'a' (Text.lowercase text.toList) :=
  standsAlone_of_eq htext (Text.beginsFree_cons rfl rest)

theorem exists_row_tuned : ∃ r, tuned.rows.get? 0 = some r ∧ r.equation.raw = "y = a*x" ∧
    r.equation.parameters.get? 'a' = some { Parameter.standard with value := 2.5 } := by
  let s := Scene.new .standard 800.0 600.0
  have halone := standsAlone_product "y = a*x" "x".toList (by decide +kernel)
  have hform : Equation.HasForm "y = a*x" := by decide +kernel
  obtain ⟨r, hr, heq⟩ := exists_row_add s "y = a*x"
  have hraw : r.equation.raw = "y = a*x" := by
    rw [heq]
    exact Equation.raw_compile "y = a*x" s.settings.linearProbe
  have hslider : r.equation.parameters.get? 'a' = some .standard := by
    rw [heq]
    exact (Equation.get?_compile_of_standsAlone rfl halone _).trans (if_pos hform)
  obtain ⟨r', hr', hraw', hmoved⟩ := exists_row_setParameter hr hslider 2.5 0
  exact ⟨r', hr', hraw'.trans hraw, hmoved⟩

/-- While `y = a*` is typed, which cannot be read, and then a restriction, the slider of `a`
stays at 2.5. -/
theorem run_retyped_tuned : ∃ r',
    (tuned.run [.setText 0 "y = a*", .setText 0 "y = a*x \x7bx>0\x7d"]).rows.get? 0 = some r' ∧
      r'.equation.raw = "y = a*x \x7bx>0\x7d" ∧
        r'.equation.parameters.get? 'a' = some { Parameter.standard with value := 2.5 } := by
  obtain ⟨r, hr, hraw, hslider⟩ := exists_row_tuned
  have halone : ∀ text ∈ [r.equation.raw, "y = a*", "y = a*x \x7bx>0\x7d"],
      Text.StandsAlone 'a' (Text.lowercase text.toList) := by
    rw [hraw]
    simp only [List.forall_mem_cons]
    exact ⟨standsAlone_product _ "x".toList (by decide +kernel),
      standsAlone_product _ [] (by decide +kernel),
      standsAlone_product _ "x \x7bx>0\x7d".toList (by decide +kernel), nofun⟩
  have hforms : ∀ text ∈ [r.equation.raw, "y = a*", "y = a*x \x7bx>0\x7d"],
      Equation.HasForm text := by
    rw [hraw]
    decide +kernel
  obtain ⟨r', hr', htyped⟩ := run_retyped .standard 800.0 600.0
    [.add "y = a*x", .setParameter 0 'a' 2.5 0] 0 r 'a' ["y = a*", "y = a*x \x7bx>0\x7d"] hr
    (by decide) rfl halone
  obtain ⟨p, hp, hkept⟩ := htyped.kept hforms
  exact ⟨r', hr', htyped.raw, hkept.trans (hp.symm.trans hslider)⟩

/-- **A brace that is still open loses the sliders.** The letter `a` stands alone in all
texts, but between the first and the last its restriction is not closed, and its slider
starts anew at 1. -/
theorem slider_lost : ¬ ∀ texts : List String, (∀ text ∈ texts, ¬ Blank text) →
    (∀ text ∈ "y = a*x" :: texts, Text.StandsAlone 'a' (Text.lowercase text.toList)) →
    ∀ r r', tuned.rows.get? 0 = some r → r.equation.raw = "y = a*x" →
      (tuned.run (texts.map (.setText 0))).rows.get? 0 = some r' →
        r'.equation.parameters.get? 'a' = r.equation.parameters.get? 'a' := by
  intro hall
  let opened := "y = a*x \x7bx>0"
  let closed := "y = a*x \x7bx>0\x7d"
  have hopened := standsAlone_product opened "x \x7bx>0".toList (by decide +kernel)
  have hclosed := standsAlone_product closed "x \x7bx>0\x7d".toList (by decide +kernel)
  have hranged : tuned.EveryEquation .standard Equation.Ranged :=
    .run (Equation.ranged_lasting _) 800.0 600.0 _
  obtain ⟨r, hr, hraw, hslider⟩ := exists_row_tuned
  -- the open text has no sliders, and so the closed one finds none
  obtain ⟨mid, hmid, -, hnone⟩ := slider_setText (hranged.row 0 r hr) hr
    (show ¬ Blank opened by decide) rfl hopened
  have hranged' := hranged.act (Equation.ranged_lasting _) tuned (.setText 0 opened)
  obtain ⟨r', hr', -, hlast⟩ := slider_setText (hranged'.row 0 mid hmid) hmid
    (show ¬ Blank closed by decide) rfl hclosed
  have hno : ¬ Equation.HasForm opened := by decide +kernel
  have hform : Equation.HasForm closed := by decide +kernel
  rw [if_neg hno] at hnone
  rw [if_pos hform, hnone, Option.getD_none] at hlast
  have hsame := hall [opened, closed] (by decide) ?_ r r' hr hraw hr'
  · rw [hlast, hslider] at hsame
    have hvalue : (1.0 : Float) = 2.5 := congrArg Parameter.value (Option.some.inj hsame)
    exact absurd hvalue (by decide +kernel)
  · simp only [List.forall_mem_cons]
    exact ⟨standsAlone_product _ "x".toList (by decide +kernel), hopened, hclosed, nofun⟩

end Examples

end Scene

end CurvePlot
