import CurvePlot.FileSystem.Folder
import CurvePlot.Proofs.Contour.Room
/-!
# What a run delivers

A run that is neither refused nor fails delivers the snapshot of its arguments and of the two texts
that it read, settings and sheet, and nothing else. In what order it does so can be read off in
every file system (`run_eq`). In a folder that is held as a value it can also be said what is there
before and afterwards:

* a run comes to deliver exactly if all is read and no pass fails (`run_of_prepared`,
  `prepared_or_of_run`);
* what it prints, and what the file holds that it wrote, is the text of the snapshot, and it leaves
  all other files as they were when it came to deliver (`run_delivers`).

To write a file makes no folder disappear, so the path leads to the file as it did before
(`Folder.content?_write`).
-/

namespace CurvePlot

/-! ### Folders -/

namespace Folder

variable {f g : Folder} {path content : String} {place : List String}

/-- The content of the file that a path leads to. -/
def content? (f : Folder) (path : String) : Option String := (f.locate? path).bind f.read?

/-- A file that is written takes no folder away. -/
theorem hasFolder_write {other : List String} (h : f.hasFolder other = true) :
    (f.write place content).hasFolder other = true := by
  unfold hasFolder at h ⊢
  rw [Bool.or_eq_true] at h ⊢
  refine h.imp_right fun hany => ?_
  obtain ⟨above, hmem, hprefix⟩ := List.any_eq_true.mp hany
  refine List.any_eq_true.mpr ⟨above, ?_, hprefix⟩
  rcases List.mem_append.mp hmem with hmade | hfile
  · exact List.mem_append_left _ hmade
  · obtain ⟨e, he, rfl⟩ := List.mem_map.mp hfile
    refine List.mem_append_right _ (List.mem_map.mpr ?_)
    -- the file that was there before may be the one that is written
    by_cases hplace : e.1 = place
    · exact ⟨(place, content), List.mem_cons_self, by rw [hplace]⟩
    · exact ⟨e, List.mem_cons_of_mem _ (List.mem_filter.mpr ⟨he, bne_iff_ne.mpr hplace⟩), rfl⟩

/-- So every walk goes on as it did. -/
theorem walk?_write {steps source target : List String} (h : f.walk? source steps = some target) :
    (f.write place content).walk? source steps = some target := by
  induction steps generalizing source with
  | nil => exact h
  | cons step steps ih =>
    rw [walk?] at h ⊢
    split at h
    · next hstep =>
      rw [Bool.and_eq_true] at hstep
      rw [if_pos (Bool.and_eq_true_iff.mpr ⟨hasFolder_write hstep.1, hstep.2⟩)]
      exact ih h
    · cases h

theorem locate?_write (h : f.locate? path = some place) :
    (f.write place content).locate? path = some place := by
  unfold locate? at h ⊢
  split at h
  · cases h
  · next hpath =>
    rw [if_neg hpath]
    exact walk?_write h

/-- **A file reads as it was written,** along the path by which it was. -/
theorem content?_write (h : f.locate? path = some place) :
    (f.write place content).content? path = some content := by
  rw [content?, locate?_write h]
  exact read?_write f place content

/-- Where a file can be written, it is written at the place that the path leads to. -/
theorem eq_write_of_run (h : (fileSystem.write path content).run f = (true, g)) :
    ∃ place, f.locate? path = some place ∧ g = f.write place content := by
  unfold fileSystem at h
  dsimp only at h
  rw [StateT.run_bind, StateT.run_get, pure_bind] at h
  cases hplace : (f.locate? path).filter fun place => !f.hasFolder place with
  | none =>
    rw [hplace] at h
    exact absurd (Prod.mk.inj h).1 Bool.false_ne_true
  | some place =>
    rw [hplace] at h
    exact ⟨place, (Option.filter_eq_some_iff.mp hplace).1, (Prod.mk.inj h).2.symm⟩

end Folder

namespace Command

/-! ### The course of a run -/

/-- **A run delivers the snapshot of its arguments,** unless it is refused or fails: it begins the
log, reads the settings and the sheet, and sees whether there is room for the passes. -/
theorem run_eq {m : Type → Type} [Monad m] (fs : FileSystem m) (args : List String) :
    run fs args = (do
      let some a := Arguments.read? args | return .refused
      unless ← beginLog fs a.logFolder do return .failed
      let some settings ← readSettings? fs a.config | return .failed
      let some sheet ← fs.read a.file | return .failed
      if a.coarseFails settings sheet then return .crashed
      if fineFails (a.begun settings sheet) then return .aborted
      deliver fs (Document.snapshot a.minusSigns (a.snapshot settings sheet)).text a.output) :=
  rfl

variable {args : List String} {a : Arguments} {settings : Settings Float} {sheet : String}
  {f g g' : Folder} {ending : Ending}

/-- The text of the snapshot that a run shows. -/
def Arguments.shownText (a : Arguments) (settings : Settings Float) (sheet : String) : String :=
  (Document.snapshot a.minusSigns (a.snapshot settings sheet)).text

/-- **A run has read all that it needs, and no pass fails.** The folder `f` has become `g`, as a log
may have been begun in it. -/
structure Prepared (args : List String) (f : Folder) (a : Arguments) (settings : Settings Float)
    (sheet : String) (g : Folder) : Prop where
  arguments_eq : Arguments.read? args = some a
  log_eq : (beginLog Folder.fileSystem a.logFolder).run f = (true, g)
  settings_eq : (readSettings? Folder.fileSystem a.config).run g = (some settings, g)
  sheet_eq : g.content? a.file = some sheet
  coarse_eq : a.coarseFails settings sheet = false
  fine_eq : fineFails (a.begun settings sheet) = false

/-- What is done after an action begins with what the action leaves. -/
theorem run_bind_of_eq {α β : Type} {x : StateM Folder α} {v : α} (h : x.run f = (v, g))
    (k : α → StateM Folder β) : (x >>= k).run f = (k v).run g := by
  rw [StateT.run_bind, h]
  rfl

/-- Reading the settings leaves the folder alone. -/
theorem run_readSettings? (g : Folder) (config : Option String) :
    ∃ settings, (readSettings? Folder.fileSystem config).run g = (settings, g) := by
  cases config with
  | none => exact ⟨_, rfl⟩
  | some path => exact ⟨_, rfl⟩

/-- **A run that is prepared delivers its snapshot.** -/
theorem run_of_prepared (h : Prepared args f a settings sheet g) :
    (run Folder.fileSystem args).run f =
      (deliver Folder.fileSystem (a.shownText settings sheet) a.output).run g := by
  have hsheet : (Folder.fileSystem.read a.file).run g = (some sheet, g) :=
    congrArg (·, g) h.sheet_eq
  rw [run_eq, h.arguments_eq]
  dsimp only
  rw [run_bind_of_eq h.log_eq, if_pos rfl, run_bind_of_eq h.settings_eq]
  dsimp only
  rw [run_bind_of_eq hsheet]
  dsimp only
  rw [h.coarse_eq, h.fine_eq, if_neg Bool.false_ne_true, if_neg Bool.false_ne_true]
  rfl

/-- **Every other run is refused or fails,** one way or another. -/
theorem prepared_or_of_run (h : (run Folder.fileSystem args).run f = (ending, g)) :
    (∃ a settings sheet g', Prepared args f a settings sheet g' ∧
      (deliver Folder.fileSystem (a.shownText settings sheet) a.output).run g' = (ending, g)) ∨
    ending ∈ [.refused, .failed, .crashed, .aborted] := by
  have hstops {e : Ending} {at' : Folder} (he : e ∈ [.refused, .failed, .crashed, .aborted])
      (h : (pure e : StateM Folder Ending).run at' = (ending, g)) :
      ending ∈ [.refused, .failed, .crashed, .aborted] := by
    obtain ⟨rfl, -⟩ := Prod.mk.inj h
    exact he
  -- one question after the other, and the run stops at the first that has no answer
  rw [run_eq] at h
  rcases harguments : Arguments.read? args with _ | a
  · rw [harguments] at h
    exact .inr (hstops (by simp) h)
  rw [harguments] at h
  dsimp only at h
  rcases hlog : (beginLog Folder.fileSystem a.logFolder).run f with ⟨_ | _, g'⟩
  · rw [run_bind_of_eq hlog] at h
    exact .inr (hstops (by simp) h)
  rw [run_bind_of_eq hlog, if_pos rfl] at h
  obtain ⟨_ | settings, hsettings⟩ := run_readSettings? g' a.config
  · rw [run_bind_of_eq hsettings] at h
    exact .inr (hstops (by simp) h)
  rw [run_bind_of_eq hsettings] at h
  dsimp only at h
  have hread : (Folder.fileSystem.read a.file).run g' = (g'.content? a.file, g') := rfl
  rw [run_bind_of_eq hread] at h
  rcases hsheet : g'.content? a.file with _ | sheet
  · rw [hsheet] at h
    exact .inr (hstops (by simp) h)
  rw [hsheet] at h
  dsimp only at h
  rcases hcoarse : a.coarseFails settings sheet with _ | _
  · rw [hcoarse, if_neg Bool.false_ne_true] at h
    rcases hfine : fineFails (a.begun settings sheet) with _ | _
    · rw [hfine, if_neg Bool.false_ne_true] at h
      exact .inl ⟨a, settings, sheet, g',
        ⟨harguments, hlog, hsettings, hsheet, hcoarse, hfine⟩, h⟩
    · rw [hfine, if_pos rfl] at h
      exact .inr (hstops (by simp) h)
  · rw [hcoarse, if_pos rfl] at h
    exact .inr (hstops (by simp) h)

/-- What is delivered is a text to be printed or the content of a file. -/
theorem eq_of_deliver {text : String} {output : Option String}
    (h : (deliver Folder.fileSystem text output).run f = (ending, g)) :
    (output = none ∧ ending = .shown text ∧ g = f) ∨ ending = .failed ∨
      ∃ path place, output = some path ∧ ending = .written ∧
        f.locate? path = some place ∧ g = f.write place text := by
  cases output with
  | none =>
    obtain ⟨rfl, rfl⟩ := Prod.mk.inj h
    exact .inl ⟨rfl, rfl, rfl⟩
  | some path =>
    right
    unfold deliver at h
    dsimp only at h
    rcases hwrite : (Folder.fileSystem.write path text).run f with ⟨_ | _, f'⟩
    · rw [run_bind_of_eq hwrite] at h
      obtain ⟨rfl, -⟩ := Prod.mk.inj h
      exact .inl rfl
    · rw [run_bind_of_eq hwrite] at h
      obtain ⟨rfl, rfl⟩ := Prod.mk.inj h
      obtain ⟨place, hplace, heq⟩ := Folder.eq_write_of_run hwrite
      exact .inr ⟨path, place, rfl, rfl, hplace, heq⟩

/-- **What is printed, and what is written, is the snapshot** of the arguments with the settings and
the sheet that were read. The file that is written reads so along the path that was asked for, and
no other file has changed since the run came to deliver. -/
theorem run_delivers (h : (run Folder.fileSystem args).run f = (ending, g)) :
    (∀ text, ending = .shown text → ∃ a settings sheet, Prepared args f a settings sheet g ∧
      a.output = none ∧ text = a.shownText settings sheet) ∧
    (ending = .written → ∃ a settings sheet g' path, Prepared args f a settings sheet g' ∧
      a.output = some path ∧ g.content? path = some (a.shownText settings sheet) ∧
      ∀ place, g'.locate? path ≠ some place → g.read? place = g'.read? place) := by
  rcases prepared_or_of_run h with ⟨a, settings, sheet, g', hprepared, hdeliver⟩ | hstops
  · rcases eq_of_deliver hdeliver with
      ⟨houtput, rfl, rfl⟩ | rfl | ⟨path, place, houtput, rfl, hplace, rfl⟩
    · refine ⟨fun text htext => ⟨a, settings, sheet, hprepared, houtput, ?_⟩, nofun⟩
      exact (Ending.shown.inj htext).symm
    · exact ⟨nofun, nofun⟩
    · refine ⟨nofun, fun _ => ⟨a, settings, sheet, g', path, hprepared, houtput,
        Folder.content?_write hplace, fun other hother => ?_⟩⟩
      refine Folder.read?_write_of_ne g' (fun heq => hother ?_) _
      rw [hplace, heq]
  · constructor
    · rintro text rfl
      simp at hstops
    · rintro rfl
      simp at hstops

end Command

end CurvePlot
