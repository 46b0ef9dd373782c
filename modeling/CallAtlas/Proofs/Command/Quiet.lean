import CallAtlas.Command.Run
import CallAtlas.Proofs.Pipeline.Artifacts
import CallAtlas.Proofs.Settings.RoundTrip
/-!
# Quiet runs

A quiet run does to the files what any run of the same command line does, and ends with the same exit
code. Of the report nothing is left but the failure that stops the run, which goes to the error
output. The parts of a report are left out one by one, so that every task is gone through. A command
line that is refused starts no run, and its refusal is not a part of any report: it is written in
quiet mode too.
-/

namespace CallAtlas.Command

open Console (Line Stream Theme Elapsed written)

/-- The answers to one command line of a quiet run and of one that is not. -/
inductive Hushed : Answer → Answer → Prop where
  /-- The command has been carried out, perhaps with something left out. -/
  | done {code : Nat} {shown : List Line} {files : FileTree} (hcode : code ≠ 1) :
      Hushed ⟨code, [], files⟩ ⟨code, shown, files⟩
  | stopped {text : String} {shown : List Line} {files : FileTree} :
      Hushed ⟨1, [.failure text], files⟩ ⟨1, shown ++ [.failure text], files⟩

theorem opening_true (s : Settings) (task : Task) : opening true s task = [] := by
  cases task <;> rfl

/-- The results of one task for a quiet run and for one that is not. -/
inductive SameButReport : Except Failure (List Line × Bool) × FileTree →
    Except Failure (List Line × Bool) × FileTree → Prop where
  | done {shown : List Line} {left : Bool} {u : FileTree} :
      SameButReport (.ok ([], left), u) (.ok (shown, left), u)
  | stopped {e : Failure} {u : FileTree} : SameButReport (.error e, u) (.error e, u)

/-- An action with a report on its result, which a quiet run leaves out. -/
theorem sameButReport_of_action {α : Type} (x : Action α) (hushed report : α → List Line)
    (left : α → Bool) (hhushed : ∀ a, hushed a = []) (t : FileTree) :
    SameButReport ((x >>= fun a => pure (hushed a, left a)).run t)
      ((x >>= fun a => pure (report a, left a)).run t) := by
  simp only [Action.run_bind, hhushed]
  obtain ⟨r, u⟩ := x.run t
  cases r with
  | ok a => exact .done
  | error e => exact .stopped

theorem sameButReport_carryOut (s : Settings) (task : Task) (t : FileTree) :
    SameButReport ((carryOut true s task).run t) ((carryOut false s task).run t) := by
  cases task with
  | analyze root stages =>
    refine sameButReport_of_action _ _ _ _ (fun outcome => ?_) t
    obtain ⟨aggregation, cycles, written⟩ := outcome
    cases cycles <;> rfl
  | graph root =>
    exact sameButReport_of_action _ _ _ _ (fun _ => rfl) t
  | cycles graph source =>
    exact sameButReport_of_action _ _ _ _ (fun _ => rfl) t
  | «export» graph cycles =>
    exact sameButReport_of_action _ _ _ _ (fun _ => rfl) t
  | init force => exact .done

theorem hushed_runTask (s : Settings) (task : Task) (t : FileTree) :
    Hushed (runTask true s task t) (runTask false s task t) := by
  have hsame := sameButReport_carryOut s task t
  unfold runTask
  generalize (carryOut true s task).run t = quiet, (carryOut false s task).run t = loud at hsame
  rw [opening_true]
  cases hsame with
  | @done shown left u =>
    refine .done ?_
    cases left <;> decide
  | stopped => exact .stopped

theorem hushed_createSettings (path : Path) (force : Bool) (t : FileTree) :
    Hushed (createSettings true path force t) (createSettings false path force t) := by
  unfold createSettings
  split
  · exact .done (by decide)
  · exact @Hushed.stopped _ [] _

theorem hushed_run (i : Invocation) (t : FileTree) : Hushed (i.run true t) (i.run false t) := by
  obtain ⟨file, overrides, task⟩ := i
  unfold Invocation.run
  cases Settings.load t file with
  | ok s =>
    cases task with
    | init force => exact hushed_createSettings _ force t
    | analyze root stages => exact hushed_runTask _ (.analyze root stages) t
    | graph root => exact hushed_runTask _ (.graph root) t
    | cycles graph source => exact hushed_runTask _ (.cycles graph source) t
    | «export» graph cycles => exact hushed_runTask _ (.export graph cycles) t
  | error e =>
    cases task with
    | init force => exact hushed_createSettings _ force t
    | _ => exact @Hushed.stopped _ [] _

section
variable (stream : Stream) (theme : Theme) (time : Elapsed) (text : String)

theorem written_nil : written stream theme time [] = "" := rfl

theorem written_singleton (line : Line) :
    written stream theme time [line] =
      if line.stream == stream then line.render theme time else "" := by
  cases hstream : line.stream == stream <;> simp [written, hstream, String.join]

end

/-- What the error output says of a command line where there is no command to carry out. -/
def Wording.complaint (w : Wording) (words : List String) : Stop → String
  | .usage command e => w.refusal words command e
  | .noWords => w.help .short none
  | .help _ _ => ""
  | .version => ""

/-- The answer to a command line that is refused: the files are left alone, and all that is written
is the complaint. -/
theorem Wording.answer_of_refused (w : Wording) (words : List String) (t : FileTree) {stop : Stop}
    (hhelp : ∀ form command, stop ≠ .help form command) (hversion : stop ≠ .version) :
    w.answer words t stop = ⟨2, [.verbatim .error (w.complaint words stop)], t⟩ := by
  cases stop with
  | help form command => exact absurd rfl (hhelp form command)
  | version => exact absurd rfl hversion
  | usage command e => rfl
  | noWords => rfl

/-- The variable that asks for quiet changes neither the exit code nor the files that a run leaves
behind, and the quiet run writes nothing to the standard output. On its error output there is nothing
if the command was carried out, and only the failure if it was stopped. A command line that is
refused is refused before the variable is asked for, in whatever words: nothing is carried out, and
the quiet answer is the one that is always given. -/
theorem quiet_only_silences (w : Wording) (words : List String) (t : FileTree)
    (hhelp : ∀ form command, Invocation.ofWords words ≠ .error (.help form command))
    (hversion : Invocation.ofWords words ≠ .error .version) (theme : Theme) (time : Elapsed) :
    let loud := w.run words (asksForQuiet none) t
    let quiet := w.run words (asksForQuiet (some "1")) t
    quiet.exitCode = loud.exitCode ∧ quiet.files = loud.files ∧
    written .output theme time quiet.lines = "" ∧
    ((∃ i, Invocation.ofWords words = .ok i) ∧ quiet.exitCode ≠ 1 ∧
        written .error theme time quiet.lines = "" ∨
      (∃ i, Invocation.ofWords words = .ok i) ∧ quiet.exitCode = 1 ∧
        (∃ text, loud.lines.getLast? = some (.failure text) ∧
          written .error theme time quiet.lines = "❌ " ++ theme.error.paint text ++ "\n") ∨
      ∃ stop, Invocation.ofWords words = .error stop ∧ quiet = loud ∧ quiet.exitCode = 2 ∧
        quiet.files = t ∧ written .error theme time quiet.lines = w.complaint words stop) := by
  have hloud : asksForQuiet none = false := rfl
  have hquiet : asksForQuiet (some "1") = true := by decide
  simp only [hloud, hquiet, Wording.run]
  cases hwords : Invocation.ofWords words with
  | ok i =>
    dsimp only
    generalize hq : i.run true t = quiet, hl : i.run false t = loud
    have hhushed : Hushed quiet loud := hq ▸ hl ▸ hushed_run i t
    cases hhushed with
    | done hcode => exact ⟨rfl, rfl, written_nil _ _ _, .inl ⟨⟨i, rfl⟩, hcode, written_nil _ _ _⟩⟩
    | @stopped text shown files =>
      refine ⟨rfl, rfl, written_singleton _ _ _ _, .inr (.inl ⟨⟨i, rfl⟩, rfl, text, ?_, ?_⟩)⟩
      · exact List.getLast?_concat
      · exact written_singleton _ _ _ _
  | error stop =>
    dsimp only
    have hanswer : w.answer words t stop = ⟨2, [.verbatim .error (w.complaint words stop)], t⟩ := by
      refine w.answer_of_refused words t ?_ ?_
      · rintro form command rfl
        exact hhelp form command hwords
      · rintro rfl
        exact hversion hwords
    rw [hanswer]
    exact ⟨rfl, rfl, written_singleton _ _ _ _,
      .inr (.inr ⟨stop, rfl, rfl, rfl, rfl, written_singleton _ _ _ _⟩)⟩

/-- The files in a directory once its settings have been created. -/
def settingsOnly : FileTree :=
  (default : FileTree).put ["callmap.toml"] (.file (Settings.write {}).toUTF8)

theorem run_init_default (quiet : Bool) :
    run ["init"] quiet default =
      ⟨0, unlessQuiet quiet [.success "Wrote callmap.toml"], settingsOnly⟩ := by
  have hwords : Invocation.ofWords ["init"] = .ok ⟨none, {}, .init false⟩ := by decide +kernel
  have hlead := FileTree.leadsTo_empty default
  have hname : Path.IsName "callmap.toml" := by decide
  have hentry : (default : FileTree).hasEntry ⟨"callmap.toml"⟩ = false :=
    hlead.hasEntry_join hname fun _ h => by cases h
  have hwrite : (default : FileTree).writeText ⟨"callmap.toml"⟩ (Settings.write {}) =
      .ok settingsOnly := hlead.writeText_join hname (.inl rfl) _
  have hsaving : (Settings.saving {} ⟨"callmap.toml"⟩ false).run default =
      (.ok (), settingsOnly) := by
    rw [Settings.run_saving, hentry, hwrite]
    rfl
  simp only [run, Wording.run, hwords, Invocation.run, createSettings]
  rw [show (none : Option Path).getD Settings.defaultFile = ⟨"callmap.toml"⟩ from rfl, hsaving]
  rfl

/-- Settings are created, which only one of the runs reports. -/
theorem quiet_only_silences_newSettings :
    let loud := run ["init"] (asksForQuiet none) default
    let quiet := run ["init"] (asksForQuiet (some "1")) default
    written .output .plain ⟨"", ""⟩ loud.lines = "✅ Wrote callmap.toml\n" ∧
      written .output .plain ⟨"", ""⟩ quiet.lines = "" ∧
      written .error .plain ⟨"", ""⟩ quiet.lines = "" ∧
      quiet.exitCode = 0 ∧ quiet.exitCode = loud.exitCode ∧
      quiet.files = settingsOnly ∧ quiet.files = loud.files := by
  intro loud quiet
  have hwords : Invocation.ofWords ["init"] = .ok ⟨none, {}, .init false⟩ := by decide +kernel
  obtain ⟨hcode, hfiles, houtput, hcases⟩ := quiet_only_silences .standard ["init"] default
    (by simp [hwords]) (by simp [hwords]) .plain ⟨"", ""⟩
  have hdone : quiet.exitCode = 0 := congrArg Answer.exitCode (run_init_default _)
  have hshown : written .output .plain ⟨"", ""⟩ loud.lines = "✅ Wrote callmap.toml\n" := by
    rw [show loud = _ from run_init_default _]
    decide
  have herror : written .error .plain ⟨"", ""⟩ quiet.lines = "" := by
    rcases hcases with ⟨-, -, herror⟩ | ⟨-, hone, -⟩ | ⟨stop, hstop, -⟩
    · exact herror
    · exact absurd (hdone.symm.trans hone) (by decide)
    · rw [hwords] at hstop
      cases hstop
  exact ⟨hshown, houtput, herror, hdone, hcode, congrArg Answer.files (run_init_default _), hfiles⟩

/-- A word that is no command is refused aloud in quiet mode, although no command has failed. -/
theorem unknownCommand_not_silenced :
    let quiet := run ["bogus"] (asksForQuiet (some "1")) default
    Invocation.ofWords ["bogus"] = .error (.usage none (.unknownCommand "bogus")) ∧
      quiet.exitCode = 2 ∧
      written .error .plain ⟨"", ""⟩ quiet.lines =
        "error: unrecognized subcommand 'bogus'\n\nUsage: callmap [OPTIONS] <COMMAND>\n\n" ++
          "For more information, try '--help'.\n" := by
  have hwords : Invocation.ofWords ["bogus"] = .error (.usage none (.unknownCommand "bogus")) := by
    decide +kernel
  have hrun : run ["bogus"] (asksForQuiet (some "1")) default =
      ⟨2, [.verbatim .error (Wording.standard.refusal ["bogus"] none (.unknownCommand "bogus"))],
        default⟩ := by
    simp only [run, Wording.run, hwords]
    rfl
  refine ⟨hwords, congrArg Answer.exitCode hrun, ?_⟩
  rw [hrun, written_singleton]
  decide +kernel

end CallAtlas.Command
