import Redaction.Proofs.Agreement
import Redaction.Proofs.Inputs

/-!
# How a command ends

A command that nothing hinders comes to its pass and can still fail: there is no buffer to read
into, a read fails, or the output refuses. A pass ends as its reading does, unless the output
refuses (`Pass.EndsWith`), and what comes behind the pass is a matter of the output alone.

Without a buffer a command breaks off, whatever the output does (`Program.status_eq_overflow_iff`).
With an output that refuses nothing the rest is a matter of the input (`Program.status_eq_zero_iff`,
`Program.status_eq_one_iff`). The status 0 never hides that something could not be read
(`Program.of_status_eq_zero`).
-/

namespace Redaction

/-! ## How a pass ends -/

namespace Pass

variable {settings : Settings} {f : Finder} {sink : Sink} {pieces : List Piece}

/-- A pass ends as its reading does, unless the output refuses. -/
inductive EndsWith (p : Pass) (reading : Reading) : Prop
  | read {tally} : reading.failure = none → p.outcome = .ok tally → EndsWith p reading
  | failed {cause} : reading.failure = some cause → p.outcome = .error (.read cause) →
      EndsWith p reading
  | refused {cause} : p.outcome = .error cause → (∀ r, cause ≠ .read r) → EndsWith p reading

theorem mask_endsWith :
    (mask settings f sink pieces).EndsWith (Reading.ofPieces settings.readSize pieces) := by
  generalize hp : mask settings f sink pieces = p
  unfold mask at hp
  dsimp only at hp
  split at hp
  · subst hp
    exact .refused rfl (by simp)
  · subst hp
    exact .failed ‹_› rfl
  · split at hp
    · subst hp
      exact .refused rfl (by simp)
    · subst hp
      exact .read ‹_› rfl

theorem scan_endsWith :
    (scan settings f sink pieces).EndsWith (Reading.ofPieces settings.readSize pieces) := by
  generalize hp : scan settings f sink pieces = p
  unfold scan at hp
  dsimp only at hp
  split at hp
  · subst hp
    exact .failed ‹_› rfl
  · split at hp
    · subst hp
      exact .refused rfl (by simp)
    · subst hp
      exact .read ‹_› rfl

theorem mask_of_failing (hf : f.Sound) (ho : sink.Open) {cause : ReadError}
    (h : (Reading.ofPieces settings.readSize pieces).failure = some cause) :
    (mask settings f sink pieces).outcome = .error (.read cause) := by
  have herror : (transcript settings f sink pieces).error = none :=
    (transcript_takes hf ho.refused_eq).1 (ho.fits _)
  rw [transcript] at herror
  simp only [mask, herror, h]

/-- The report comes last, so a scan that cannot read its input puts out nothing. -/
theorem scan_of_failing (f : Finder) (sink : Sink) {cause : ReadError}
    (h : (Reading.ofPieces settings.readSize pieces).failure = some cause) :
    (scan settings f sink pieces).outcome = .error (.read cause) ∧
      (scan settings f sink pieces).out = [] := by
  simp only [scan, h]
  exact ⟨trivial, trivial⟩

end Pass

namespace Command

variable (command : Command) {finder : Finder} {sink : Sink} {pieces : List Piece}

def reading (pieces : List Piece) : Reading := Reading.ofPieces command.settings.readSize pieces

theorem pass_endsWith : (command.pass finder sink pieces).EndsWith (command.reading pieces) := by
  cases command with
  | mask => exact Pass.mask_endsWith
  | scan => exact Pass.scan_endsWith

theorem pass_of_failing (hf : finder.Sound) (ho : sink.Open) {cause : ReadError}
    (h : (command.reading pieces).failure = some cause) :
    (command.pass finder sink pieces).outcome = .error (.read cause) := by
  cases command with
  | mask => exact Pass.mask_of_failing hf ho h
  | scan => exact (Pass.scan_of_failing finder sink h).1

theorem pass_of_reading (hf : finder.Sound) (ho : sink.Open)
    (h : (command.reading pieces).failure = none) :
    ∃ tally, (command.pass finder sink pieces).outcome = .ok tally := by
  obtain ⟨hsize, hpieces⟩ := (Reading.failure_eq_none_iff command.settings.readSize_pos).mp h
  cases command with
  | mask =>
      obtain ⟨⟨hiddenBytes, htally⟩, -, -⟩ := Pass.mask_of_readable hf ho hsize hpieces
      exact ⟨_, htally⟩
  | scan => exact ⟨_, (Pass.scan_of_readable finder ho hsize hpieces).1⟩

theorem pass_of_overflow (h : (command.reading pieces).failure = some .overflow) :
    (command.pass finder sink pieces).outcome = .error (.read .overflow) := by
  have hover := (Reading.failure_eq_overflow_iff command.settings.readSize_pos).mp h
  cases command with
  | mask => exact congrArg Pass.outcome (Pass.mask_of_overflow hover finder sink pieces)
  | scan => exact congrArg Pass.outcome (Pass.scan_of_overflow hover finder sink pieces)

/-! ## How the work ends -/

theorem work_of_error {cause : PassError}
    (h : (command.pass finder sink pieces).outcome = .error cause) :
    (command.work finder sink pieces).taken = (command.pass finder sink pieces).out ∧
      (command.work finder sink pieces).failure = some (command.failure cause) := by
  simp only [work, h]
  exact ⟨trivial, trivial⟩

theorem breaksOff_failure_iff {cause : PassError} :
    (command.failure cause).breaksOff = true ↔ cause = .read .overflow := by
  cases cause with
  | read r => cases command <;> cases r <;> simp [failure, Failure.breaksOff]
  | _ => cases command <;> simp [failure, Failure.breaksOff]

/-- Behind a pass only the output can refuse. -/
theorem breaksOff_of_work {tally : Tally} {failure : Failure}
    (h : (command.pass finder sink pieces).outcome = .ok tally)
    (hfailure : (command.work finder sink pieces).failure = some failure) :
    failure.breaksOff = false := by
  simp only [work, h] at hfailure
  split at hfailure
  · cases hfailure
  · split at hfailure
    · obtain rfl := Option.some.inj hfailure
      rfl
    · obtain rfl := Option.some.inj hfailure
      rfl
    · cases hfailure

theorem work_of_ok (ho : sink.Open) {tally : Tally}
    (h : (command.pass finder sink pieces).outcome = .ok tally) :
    (command.work finder sink pieces).failure = none := by
  simp only [work, h]
  cases command with
  | mask => rfl
  | scan task =>
      have hsink : ((scan task).pass finder sink pieces).sink.Open := Pass.open_scan ho
      obtain ⟨hput, hopen⟩ := hsink.put 1
      obtain ⟨hflush, -⟩ := hopen.flush
      simp only [hput, hflush]

theorem reading_of_work (h : (command.work finder sink pieces).failure = none) :
    (∃ tally, (command.pass finder sink pieces).outcome = .ok tally) ∧
      (command.reading pieces).failure = none := by
  cases command.pass_endsWith with
  | read hreading hok => exact ⟨⟨_, hok⟩, hreading⟩
  | failed _ herror => cases (command.work_of_error herror).2.symm.trans h
  | refused herror _ => cases (command.work_of_error herror).2.symm.trans h

theorem work_failure_eq_none_iff (hf : finder.Sound) (ho : sink.Open) :
    (command.work finder sink pieces).failure = none ↔ (command.reading pieces).failure = none := by
  constructor
  · intro h
    exact (command.reading_of_work h).2
  · intro h
    obtain ⟨tally, hok⟩ := command.pass_of_reading hf ho h
    exact command.work_of_ok ho hok

theorem breaksOff_iff :
    (∃ failure, (command.work finder sink pieces).failure = some failure ∧
        failure.breaksOff = true) ↔
      Reading.bufferLimit < command.settings.readSize := by
  have hover : (command.reading pieces).failure = some .overflow ↔ _ :=
    Reading.failure_eq_overflow_iff command.settings.readSize_pos
  rw [← hover]
  constructor
  · rintro ⟨failure, hfailure, hbreaks⟩
    cases command.pass_endsWith with
    | read _ hok =>
        cases (command.breaksOff_of_work hok hfailure).symm.trans hbreaks
    | failed hreading herror =>
        obtain rfl := Option.some.inj ((command.work_of_error herror).2.symm.trans hfailure)
        obtain rfl := PassError.read.inj (command.breaksOff_failure_iff.mp hbreaks)
        exact hreading
    | refused herror hother =>
        obtain rfl := Option.some.inj ((command.work_of_error herror).2.symm.trans hfailure)
        exact absurd (command.breaksOff_failure_iff.mp hbreaks) (hother _)
  · intro h
    have herror : (command.pass finder sink pieces).outcome = _ := command.pass_of_overflow h
    exact ⟨_, (command.work_of_error herror).2, command.breaksOff_failure_iff.mpr rfl⟩

end Command

/-! ## The status -/

namespace Failure

theorem status_eq_one_iff {f : Failure} : f.status = 1 ↔ f.breaksOff = false := by
  cases h : f.breaksOff <;> simp [status, h]

theorem status_eq_overflow_iff {f : Failure} : f.status = 101 ↔ f.breaksOff = true := by
  cases h : f.breaksOff <;> simp [status, h]

theorem status_ne_zero (f : Failure) : f.status ≠ 0 := by
  cases h : f.breaksOff <;> simp [status, h]

end Failure

namespace Program

variable {c : Call} {command : Command}

/-- All failures before the pass are reported. -/
theorem breaksOff_opening {failure : Failure} (h : opening c command = .error failure) :
    failure.breaksOff = false := by
  rcases opening_eq_error_iff.mp h with hfinder | ⟨-, -, hsource | ⟨-, -, htarget⟩⟩
  · rw [prepare] at hfinder
    split at hfinder
    · obtain rfl := Except.error.inj hfinder
      rfl
    · dsimp only at hfinder
      split at hfinder
      · obtain rfl := Except.error.inj hfinder
        rfl
      · cases hfinder
  · unfold findInput at hsource
    split at hsource
    · cases hsource
    · split at hsource
      · cases hsource
      · obtain rfl := Except.error.inj hsource
        rfl
  · unfold createOutput at htarget
    split at htarget
    · cases htarget
    · split at htarget
      · cases htarget
      · obtain rfl := Except.error.inj htarget
        rfl

theorem Opening.reading_failure_eq_none_iff {o : Opening} (h : opening c command = .ok o) :
    (command.reading (o.pieces c command)).failure = none ↔
      command.settings.readSize ≤ Reading.bufferLimit ∧
        ∃ content, c.content command.task.input = .ok content := by
  rw [Command.reading, Reading.failure_eq_none_iff command.settings.readSize_pos,
    Piece.readable_iff, content_pieces_isOk h]

/-- Whatever the output does, a command that succeeds has read its input. -/
theorem of_failure_eq_none (h : (execute c command).failure = none) :
    ¬Hindered c command ∧ command.settings.readSize ≤ Reading.bufferLimit ∧
      ∃ content, c.content command.task.input = .ok content := by
  cases hopening : opening c command with
  | error failure =>
      rw [execute_of_error hopening] at h
      cases h
  | ok o =>
      rw [execute_of_ok hopening] at h
      exact ⟨not_hindered_of_ok hopening,
        (Opening.reading_failure_eq_none_iff hopening).mp (command.reading_of_work h).2⟩

theorem failure_eq_none_iff (ho : c.output.sink.Open) :
    (execute c command).failure = none ↔
      ¬Hindered c command ∧ command.settings.readSize ≤ Reading.bufferLimit ∧
        ∃ content, c.content command.task.input = .ok content := by
  refine ⟨of_failure_eq_none, ?_⟩
  rintro ⟨hnot, hread⟩
  cases h : opening c command with
  | error failure => exact absurd (hindered_of_error h) hnot
  | ok o =>
      rw [execute_of_ok h]
      exact (command.work_failure_eq_none_iff (Opening.finder_sound h).1 ho).mpr
        ((Opening.reading_failure_eq_none_iff h).mpr hread)

theorem breaksOff_iff :
    (∃ failure, (execute c command).failure = some failure ∧ failure.breaksOff = true) ↔
      ¬Hindered c command ∧ Reading.bufferLimit < command.settings.readSize := by
  cases h : opening c command with
  | error failure =>
      rw [execute_of_error h]
      refine iff_of_false ?_ fun ⟨hnot, _⟩ => hnot (hindered_of_error h)
      rintro ⟨_, ⟨⟩, hbreaks⟩
      cases (breaksOff_opening h).symm.trans hbreaks
  | ok o =>
      rw [execute_of_ok h, and_iff_right (not_hindered_of_ok h)]
      exact command.breaksOff_iff

section

variable (hwords : Invocation.ofWords c.words = .ok (.run command))

include hwords

theorem status_run :
    (run c).status = ((execute c command).failure.map Failure.status).getD 0 := by
  rw [run_eq hwords, conclude]

theorem status_eq_zero : (run c).status = 0 ↔ (execute c command).failure = none := by
  rw [status_run hwords]
  cases (execute c command).failure with
  | none => simp
  | some failure => simp [failure.status_ne_zero]

/-- Whatever the output does, the status 0 says that all has been read. -/
theorem of_status_eq_zero (h : (run c).status = 0) :
    ¬Hindered c command ∧ command.settings.readSize ≤ Reading.bufferLimit ∧
      ∃ content, c.content command.task.input = .ok content :=
  of_failure_eq_none ((status_eq_zero hwords).mp h)

/-- With an output that refuses nothing a command succeeds just when nothing hinders it, there is a
buffer, and its input can be read. -/
theorem status_eq_zero_iff (ho : c.output.sink.Open) :
    (run c).status = 0 ↔
      ¬Hindered c command ∧ command.settings.readSize ≤ Reading.bufferLimit ∧
        ∃ content, c.content command.task.input = .ok content := by
  rw [status_eq_zero hwords, failure_eq_none_iff ho]

/-- Without a buffer a command that nothing hinders breaks off, and that is the only reason to. -/
theorem status_eq_overflow_iff :
    (run c).status = 101 ↔
      ¬Hindered c command ∧ Reading.bufferLimit < command.settings.readSize := by
  rw [← breaksOff_iff, status_run hwords]
  cases (execute c command).failure with
  | none => simp
  | some failure => simp [Failure.status_eq_overflow_iff]

theorem status_eq_one :
    (run c).status = 1 ↔ ¬(run c).status = 0 ∧ ¬(run c).status = 101 := by
  rw [status_run hwords]
  cases (execute c command).failure with
  | none => simp
  | some failure => cases h : failure.breaksOff <;> simp [Failure.status, h]

theorem status_of_unreadable (hsize : command.settings.readSize ≤ Reading.bufferLimit)
    {reason : String} (h : c.content command.task.input = .error reason) : (run c).status = 1 := by
  refine (status_eq_one hwords).mpr ⟨fun hzero => ?_, fun hover => ?_⟩
  · obtain ⟨-, -, content, hcontent⟩ := of_status_eq_zero hwords hzero
    cases hcontent.symm.trans h
  · exact Nat.not_lt.mpr hsize ((status_eq_overflow_iff hwords).mp hover).2

theorem status_eq_one_iff (ho : c.output.sink.Open) :
    (run c).status = 1 ↔
      Hindered c command ∨ command.settings.readSize ≤ Reading.bufferLimit ∧
        ∃ reason, c.content command.task.input = .error reason := by
  have hreason : (∃ reason, c.content command.task.input = .error reason) ↔
      ¬∃ content, c.content command.task.input = .ok content := by
    cases c.content command.task.input with
    | error reason => simp
    | ok content => simp
  rw [status_eq_one hwords, status_eq_zero_iff hwords ho, status_eq_overflow_iff hwords, hreason,
    ← Nat.not_le]
  tauto

end

end Program

end Redaction
