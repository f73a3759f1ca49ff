import Redaction.Proofs.Ending

/-!
# What a command that fails leaves behind

All that can hinder a command comes before it first touches anything: the secrets are loaded and
their patterns accepted, the input is found, and only then is the output created, which is the last
step that can fail before the pass (`Program.execute_of_error`). A scan creates no output, so it
changes no file at all, however it ends (`Program.tree_scan`).

When reading fails after that, a scan has put out nothing either, wherever in the input it fails,
because its report comes when all has been read (`Program.Opening.output_of_failing`).
-/

namespace Redaction

theorem Output.shown_nil (o : Output) (failed : Bool) : o.shown [] failed = [] := by
  unfold Output.shown
  split
  · exact List.take_nil
  · rfl

namespace Program

variable {c : Call} {command : Command} {task : Task}

namespace Opening

variable {o : Opening} (h : opening c (.scan task) = .ok o)

include h

theorem tree_scan (pieces : List Piece) : (o.outcome c (.scan task) pieces).tree = c.tree := by
  obtain ⟨hnone, htree⟩ := of_output_eq_none h rfl
  simp only [outcome, hnone, htree]

theorem output_of_failing {pieces : List Piece} {cause : ReadError}
    (hfailing : ((Command.scan task).reading pieces).failure = some cause) :
    (o.outcome c (.scan task) pieces).output = [] ∧
      (o.outcome c (.scan task) pieces).failure = some (.scan (.read cause)) := by
  obtain ⟨hnone, -⟩ := of_output_eq_none h rfl
  obtain ⟨herror, hout⟩ := Pass.scan_of_failing o.finder c.output.sink hfailing
  obtain ⟨htaken, hfailure⟩ := Command.work_of_error (.scan task) herror
  refine ⟨?_, hfailure⟩
  simp only [outcome, hnone, htaken]
  rw [Command.pass, hout]
  exact c.output.shown_nil _

end Opening

theorem tree_scan (c : Call) (task : Task) : (execute c (.scan task)).tree = c.tree := by
  cases h : opening c (.scan task) with
  | error failure => rw [execute_of_error h]
  | ok o =>
      rw [execute_of_ok h]
      exact Opening.tree_scan h _

theorem output_of_unreadable {reason : String} (h : c.content task.input = .error reason) :
    (execute c (.scan task)).output = [] := by
  cases hopening : opening c (.scan task) with
  | error failure => rw [execute_of_error hopening]
  | ok o =>
      rw [execute_of_ok hopening]
      cases hreading : ((Command.scan task).reading (o.pieces c (.scan task))).failure with
      | some cause => exact (Opening.output_of_failing hopening hreading).1
      | none =>
          obtain ⟨-, content, hcontent⟩ :=
            (Opening.reading_failure_eq_none_iff hopening).mp hreading
          cases hcontent.symm.trans h

/-- A command that something hinders ends with the status 1, has put out nothing and leaves all
files as they are. A scan leaves them as they are in any case, and puts out nothing when its input
cannot be read, wherever reading it fails. Where there is no buffer to read into, and only there, a
command that nothing hinders breaks off. With an output that refuses nothing there is nothing else
that a command can fail for. -/
theorem failed_command_touches_nothing
    (hwords : Invocation.ofWords c.words = .ok (.run command)) :
    let e := run c
    let buffered := command.settings.readSize ≤ Reading.bufferLimit
    (Hindered c command → e.status = 1 ∧ e.output = [] ∧ e.tree = c.tree) ∧
      (∀ task, command = .scan task → e.tree = c.tree ∧
        (∀ reason, c.content task.input = .error reason →
          e.output = [] ∧ (buffered → e.status = 1)) ∧
        ∀ (o : Opening) (pieces : List Piece), opening c command = .ok o →
          (o.outcome c command pieces).tree = c.tree ∧
            ∀ cause, (command.reading pieces).failure = some cause →
              (o.outcome c command pieces).output = [] ∧
                (o.outcome c command pieces).failure = some (.scan (.read cause))) ∧
      (e.status = 101 ↔ ¬Hindered c command ∧ ¬buffered) ∧
      (c.output.sink.Open →
        (e.status = 0 ↔ ¬Hindered c command ∧ buffered ∧
          ∃ content, c.content command.task.input = .ok content) ∧
        (e.status = 1 ↔ Hindered c command ∨ buffered ∧
          ∃ reason, c.content command.task.input = .error reason)) := by
  intro e buffered
  have hrun : e = _ := run_eq hwords
  refine ⟨?_, ?_, ?_, ?_⟩
  · intro hh
    obtain ⟨failure, hfailure⟩ := hindered_iff.mp hh
    rw [hrun, execute_of_error hfailure, conclude]
    exact ⟨Failure.status_eq_one_iff.mpr (breaksOff_opening hfailure), rfl, rfl⟩
  · rintro task rfl
    refine ⟨?_, ?_, ?_⟩
    · rw [hrun]
      exact tree_scan c task
    · intro reason hreason
      refine ⟨?_, ?_⟩
      · rw [hrun]
        exact output_of_unreadable hreason
      · intro hbuffered
        exact status_of_unreadable hwords hbuffered hreason
    · intro o pieces ho
      refine ⟨Opening.tree_scan ho pieces, ?_⟩
      intro cause hfailing
      exact Opening.output_of_failing ho hfailing
  · rw [Nat.not_le]
    exact status_eq_overflow_iff hwords
  · intro ho
    exact ⟨status_eq_zero_iff hwords ho, status_eq_one_iff hwords ho⟩

/-- The secrets file names a variable that is not set, so the output keeps what it held. -/
theorem failed_command_touches_nothing_unset :
    let words := ["mask", "--input", "f", "--output", "g", "--secrets", "s"].map Bytes.ofText
    let tree := FileTree.ofList [] [(Bytes.ofText "f", .file (Bytes.ofText "xab")),
      (Bytes.ofText "g", .file (Bytes.ofText "old")),
      (Bytes.ofText "s", .file (Bytes.ofText "[[secrets]]\nenv = \"K\"\n"))]
    let task : Task := { input := some (Bytes.ofText "f"), secretsFile := some (Bytes.ofText "s") }
    let command : Command := .mask task (some (Bytes.ofText "g")) "<redacted>"
    let c : Call := { words, tree }
    Invocation.ofWords c.words = .ok (.run command) ∧ Hindered c command ∧
      (run c).status = 1 ∧ (run c).output = [] ∧ (run c).tree = tree ∧
      tree.content (Bytes.ofText "g") = .ok (Bytes.ofText "old") := by
  intro words tree task command c
  have hwords : Invocation.ofWords c.words = .ok (.run command) := by decide +kernel
  have htext : tree.readText (Bytes.ofText "s") = .ok "[[secrets]]\nenv = \"K\"\n" := by
    decide +kernel
  have hentries : SecretsFile.parse "[[secrets]]\nenv = \"K\"\n" =
      some [{ envVar := some "K" }] := by
    decide +kernel
  have hhindered : Hindered c command :=
    .lacking rfl htext hentries List.mem_cons_self ⟨rfl, "K", rfl, rfl⟩
  obtain ⟨hstatus, hout, htree⟩ := (failed_command_touches_nothing hwords).1 hhindered
  exact ⟨hwords, hhindered, hstatus, hout, htree, by decide +kernel⟩

end Program

end Redaction
