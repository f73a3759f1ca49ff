import Redaction.Program
import Redaction.Proofs.Hits
import Redaction.Proofs.Files
import Redaction.Proofs.Resolving

/-!
# What a command opens before it begins

The two commands begin alike: secrets are loaded and a finder is made for them, the input is found,
and the output is created where there is one. When this fails, nothing has been put out and no file
is other than it was (`execute_of_error`); else one pass follows, and all that the command comes to
is read off from that pass (`execute_of_ok`).

What an opening can fail for is said of the call alone in `Hindered`, and `hindered_iff` says that
there is nothing else.
-/

namespace Redaction

namespace Program

variable {c : Call} {command : Command} {failure : Failure}

/-! ## Openings -/

theorem opening_eq_ok_iff {o : Opening} :
    opening c command = .ok o ↔
      (prepare c command.task).2 = .ok o.finder ∧
        findInput c.tree command.task.input = .ok o.source ∧
          createOutput c.tree command.output = .ok (o.target, o.tree) := by
  rw [opening, bind_eq_ok_iff]
  constructor
  · rintro ⟨finder, hfinder, h⟩
    obtain ⟨source, hsource, h⟩ := bind_eq_ok_iff.mp h
    obtain ⟨⟨target, tree⟩, htarget, h⟩ := bind_eq_ok_iff.mp h
    obtain rfl := Except.ok.inj h
    exact ⟨hfinder, hsource, htarget⟩
  · rintro ⟨hfinder, hsource, htarget⟩
    refine ⟨o.finder, hfinder, bind_eq_ok_iff.mpr ⟨o.source, hsource, ?_⟩⟩
    exact bind_eq_ok_iff.mpr ⟨(o.target, o.tree), htarget, rfl⟩

/-- Where nothing is created, all files are still as they were. -/
theorem Opening.of_output_eq_none {o : Opening} (h : opening c command = .ok o)
    (hnone : command.output = none) : o.target = none ∧ o.tree = c.tree := by
  obtain ⟨-, -, htarget⟩ := opening_eq_ok_iff.mp h
  rw [hnone, createOutput] at htarget
  obtain ⟨htarget, htree⟩ := Prod.mk.inj (Except.ok.inj htarget)
  exact ⟨htarget.symm, htree.symm⟩

theorem opening_eq_error_iff :
    opening c command = .error failure ↔
      (prepare c command.task).2 = .error failure ∨
        ∃ finder, (prepare c command.task).2 = .ok finder ∧
          (findInput c.tree command.task.input = .error failure ∨
            ∃ source, findInput c.tree command.task.input = .ok source ∧
              createOutput c.tree command.output = .error failure) := by
  simp only [opening, bind_eq_error_iff]
  refine or_congr_right (exists_congr fun finder => and_congr_right fun _ => or_congr_right
    (exists_congr fun source => and_congr_right fun _ => or_iff_left ?_))
  rintro ⟨_, _, h⟩
  cases h

theorem execute_of_error (h : opening c command = .error failure) :
    execute c command =
      { events := (prepare c command.task).1, failure := some failure, tree := c.tree } := by
  rw [execute, h]

theorem execute_of_ok {o : Opening} (h : opening c command = .ok o) :
    execute c command = o.outcome c command (o.pieces c command) := by
  rw [execute, h]

theorem run_eq (hwords : Invocation.ofWords c.words = .ok (.run command)) :
    run c = conclude c (execute c command) := by
  rw [run, hwords]

/-! ## What an opening can fail for -/

def loading (c : Call) (task : Task) : Loading :=
  Loading.gather c.tree c.environment task.secretsFile task.inline

theorem prepare_eq_ok_iff {task : Task} {finder : Finder} :
    (prepare c task).2 = .ok finder ↔
      ∃ secrets, (loading c task).secrets = .ok secrets ∧
        Finder.ofPatterns (secrets.map (·.value)) = .ok finder := by
  rw [prepare, ← loading]
  cases (loading c task).secrets with
  | error cause => simp
  | ok secrets =>
      simp only [Except.ok.injEq, exists_eq_left']
      cases Finder.ofPatterns (secrets.map (·.value)) with
      | error cause => simp
      | ok found => simp

/-- What keeps a command from beginning its pass. -/
inductive Hindered (c : Call) (command : Command) : Prop
  /-- The secrets file cannot be read as text. -/
  | unreadable {path cause} : command.task.secretsFile = some path →
      c.tree.readText path = .error cause → Hindered c command
  /-- It is no secrets file. -/
  | malformed {path text} : command.task.secretsFile = some path →
      c.tree.readText path = .ok text → SecretsFile.parse text = none → Hindered c command
  /-- One of its entries needs a variable that is not set. -/
  | lacking {path text entries e} : command.task.secretsFile = some path →
      c.tree.readText path = .ok text → SecretsFile.parse text = some entries →
      e ∈ entries → e.Lacks c.environment.text? → Hindered c command
  | emptySecret {secrets s} : (loading c command.task).secrets = .ok secrets → s ∈ secrets →
      s.value = [] → Hindered c command
  | noInput {path cause} : command.task.input = some path → c.tree.find path = .error cause →
      Hindered c command
  | noOutput {path cause} : command.output = some path → c.tree.create path = .error cause →
      Hindered c command

theorem loading_fails_iff {task : Task} :
    (∃ cause, (loading c task).secrets = .error cause) ↔
      ∃ path, task.secretsFile = some path ∧
        ((∃ cause, c.tree.readText path = .error cause) ∨
          ∃ text, c.tree.readText path = .ok text ∧
            (SecretsFile.parse text = none ∨ ∃ entries, SecretsFile.parse text = some entries ∧
              ∃ e ∈ entries, e.Lacks c.environment.text?)) := by
  simp only [loading, Loading.gather_fails_iff, Loading.ofFile_fails_iff, Loading.ofText_fails_iff]

theorem not_hindered_of_ok {o : Opening} (h : opening c command = .ok o) : ¬Hindered c command := by
  obtain ⟨hfinder, hsource, htarget⟩ := opening_eq_ok_iff.mp h
  obtain ⟨secrets, hsecrets, hpatterns⟩ := prepare_eq_ok_iff.mp hfinder
  have hloaded : ¬∃ cause, (loading c command.task).secrets = .error cause := by
    rintro ⟨cause, hcause⟩
    cases hsecrets.symm.trans hcause
  rw [loading_fails_iff] at hloaded
  intro hh
  cases hh with
  | unreadable hfile htext => exact hloaded ⟨_, hfile, .inl ⟨_, htext⟩⟩
  | malformed hfile htext hparse => exact hloaded ⟨_, hfile, .inr ⟨_, htext, .inl hparse⟩⟩
  | lacking hfile htext hparse he hlacks =>
      exact hloaded ⟨_, hfile, .inr ⟨_, htext, .inr ⟨_, hparse, _, he, hlacks⟩⟩⟩
  | emptySecret hsome hs hempty =>
      obtain rfl := Except.ok.inj (hsome.symm.trans hsecrets)
      exact (Finder.ofPatterns_eq_ok_iff.mp hpatterns).1 (List.mem_map.mpr ⟨_, hs, hempty⟩)
  | noInput hinput hfind =>
      rw [hinput, findInput, hfind] at hsource
      cases hsource
  | noOutput houtput hcreate =>
      rw [houtput, createOutput, hcreate] at htarget
      cases htarget

theorem hindered_of_error (h : opening c command = .error failure) : Hindered c command := by
  rcases opening_eq_error_iff.mp h with hfinder | ⟨-, -, hsource | ⟨-, -, htarget⟩⟩
  · cases hsecrets : (loading c command.task).secrets with
    | error cause =>
        obtain ⟨path, hfile, ⟨_, htext⟩ | ⟨_, htext, hparse | ⟨_, hparse, e, he, hlacks⟩⟩⟩ :=
          loading_fails_iff.mp ⟨cause, hsecrets⟩
        · exact .unreadable hfile htext
        · exact .malformed hfile htext hparse
        · exact .lacking hfile htext hparse he hlacks
    | ok secrets =>
        by_cases hempty : [] ∈ secrets.map (·.value)
        · obtain ⟨s, hs, hvalue⟩ := List.mem_map.mp hempty
          exact .emptySecret hsecrets hs hvalue
        · have hok := prepare_eq_ok_iff.mpr
            ⟨secrets, hsecrets, Finder.ofPatterns_eq_ok_iff.mpr ⟨hempty, rfl⟩⟩
          cases hfinder.symm.trans hok
  · cases hinput : command.task.input with
    | none =>
        rw [hinput] at hsource
        cases hsource
    | some path =>
        rw [hinput, findInput] at hsource
        split at hsource
        · cases hsource
        · exact .noInput hinput ‹_›
  · cases houtput : command.output with
    | none =>
        rw [houtput] at htarget
        cases htarget
    | some path =>
        rw [houtput, createOutput] at htarget
        split at htarget
        · cases htarget
        · exact .noOutput houtput ‹_›

theorem hindered_iff : Hindered c command ↔ ∃ failure, opening c command = .error failure := by
  constructor
  · intro hh
    cases h : opening c command with
    | error failure => exact ⟨failure, rfl⟩
    | ok o => exact absurd hh (not_hindered_of_ok h)
  · rintro ⟨failure, h⟩
    exact hindered_of_error h

end Program

end Redaction
