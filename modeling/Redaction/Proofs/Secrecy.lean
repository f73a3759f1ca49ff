import Redaction.Proofs.Ending
import Redaction.Proofs.Lockstep

/-!
# What diagnostics give away

Standard error tells the names of the secrets, how long the longest is and where they were found,
and how much of the input was read at a time. To say that there is nothing else, two calls are
compared that differ in bytes alone: their secrets are the same when the values are blanked
(`Secret.blank`), and their passes are in step. Then all lines are the same (`diagnostics_blind`).

Secrets that are the same when blanked are loaded alike (`Loading.blank_ofResolved`) and prepared
alike (`Program.prepare_blind`), also when one is empty or a variable is not set. What a pass adds
to that is the same for passes in step. How a line looks is left to the environment, and some words
in a report come from others: from the parser, from an output that refuses, from the way that led to
the failure. Of these only the last can be in the reports at hand (`Failure.Own`).
-/

namespace Redaction

/-! ## Blanked secrets -/

/-- The secret with another value of the same length. -/
def Secret.blank (s : Secret) : Secret := { s with value := List.replicate s.value.length 0 }

@[simp] theorem Secret.blank_name (s : Secret) : s.blank.name = s.name := rfl

@[simp] theorem Secret.length_blank_value (s : Secret) :
    s.blank.value.length = s.value.length := List.length_replicate

namespace Resolved

def blank : Resolved → Resolved
  | secret s => secret s.blank
  | skipped name => skipped name
  | unset e => unset e

@[simp] theorem unset?_blank (r : Resolved) : r.blank.unset? = r.unset? := by
  cases r <;> rfl

@[simp] theorem skipped?_blank (r : Resolved) : r.blank.skipped? = r.skipped? := by
  cases r <;> rfl

@[simp] theorem secret?_blank (r : Resolved) : r.blank.secret? = r.secret?.map Secret.blank := by
  cases r <;> rfl

end Resolved

namespace Loading

/-- What loading comes to for the entries of a file and secrets given directly. -/
def ofResolved (resolved : List Resolved) (inline : List Secret) : Loading :=
  match resolved.findSome? Resolved.unset? with
  | some e =>
    { skipped := (resolved.takeWhile (·.unset?.isNone)).filterMap Resolved.skipped?
      secrets := .error (.unset e) }
  | none =>
    { skipped := resolved.filterMap Resolved.skipped?
      secrets := .ok (resolved.filterMap Resolved.secret? ++ inline) }

def blank (l : Loading) : Loading := { l with secrets := l.secrets.map (·.map Secret.blank) }

theorem blank_ofResolved (resolved : List Resolved) (inline : List Secret) :
    (ofResolved resolved inline).blank =
      ofResolved (resolved.map Resolved.blank) (inline.map Secret.blank) := by
  simp only [ofResolved, List.findSome?_map, List.takeWhile_map, List.filterMap_map,
    Function.comp_def, Resolved.unset?_blank, Resolved.skipped?_blank, Resolved.secret?_blank]
  cases resolved.findSome? Resolved.unset? with
  | some e => rfl
  | none =>
      simp only [blank, Except.map, List.map_append, List.map_filterMap]

theorem cases_of_blank_eq {l l' : Loading} (h : l'.blank = l.blank) :
    (∃ cause, l.secrets = .error cause ∧ l'.secrets = .error cause) ∨
      ∃ secrets secrets', l.secrets = .ok secrets ∧ l'.secrets = .ok secrets' ∧
        secrets'.map Secret.blank = secrets.map Secret.blank := by
  have hsecrets : l'.secrets.map (·.map Secret.blank) = l.secrets.map (·.map Secret.blank) :=
    congrArg Loading.secrets h
  cases hl : l.secrets with
  | error cause =>
      cases hl' : l'.secrets with
      | error cause' =>
          rw [hl, hl'] at hsecrets
          exact .inl ⟨cause, rfl, congrArg _ (Except.error.inj hsecrets)⟩
      | ok secrets' =>
          rw [hl, hl'] at hsecrets
          cases hsecrets
  | ok secrets =>
      cases hl' : l'.secrets with
      | error cause' =>
          rw [hl, hl'] at hsecrets
          cases hsecrets
      | ok secrets' =>
          rw [hl, hl'] at hsecrets
          exact .inr ⟨secrets, secrets', rfl, rfl, Except.ok.inj hsecrets⟩

end Loading

namespace Program

variable {c c' : Call} {task task' : Task}

/-- What the entries of the secrets file come to, if it can be read and is one. -/
def entries (c : Call) (task : Task) : Option (List Resolved) :=
  match task.secretsFile with
  | none => some []
  | some path =>
    match c.tree.readText path with
    | .error _ => none
    | .ok text => (SecretsFile.parse text).map (·.mapIdx (Entry.resolve c.environment.text?))

theorem loading_of_entries {resolved : List Resolved} (h : entries c task = some resolved) :
    loading c task = Loading.ofResolved resolved (Secret.inline task.inline) := by
  rw [loading, Loading.gather]
  cases hfile : task.secretsFile with
  | none =>
      simp only [entries, hfile] at h
      obtain rfl := Option.some.inj h
      rfl
  | some path =>
      simp only [Option.map_some, Option.getD_some, Loading.ofFile]
      cases htext : c.tree.readText path with
      | error cause => simp [entries, hfile, htext] at h
      | ok text =>
          simp only [entries, hfile, htext] at h
          obtain ⟨es, hparse, rfl⟩ := Option.map_eq_some_iff.mp h
          simp only [Loading.ofText, hparse, Entry.resolveAll, Loading.ofResolved]
          cases (es.mapIdx (Entry.resolve c.environment.text?)).findSome? Resolved.unset? with
          | some e => rfl
          | none => rfl

/-- Preparing tells the same of secrets that are the same when they are blanked, and fails for the
same reason. -/
theorem prepare_blind (h : (loading c' task').blank = (loading c task).blank) :
    (prepare c' task').1 = (prepare c task).1 ∧
      ((∃ failure, (prepare c task).2 = .error failure ∧ (prepare c' task').2 = .error failure) ∨
        ∃ f f', (prepare c task).2 = .ok f ∧ (prepare c' task').2 = .ok f') := by
  have hskipped : (loading c' task').skipped = (loading c task).skipped := by
    show (loading c' task').blank.skipped = (loading c task).blank.skipped
    rw [h]
  rw [prepare, prepare, ← loading, ← loading, hskipped]
  rcases Loading.cases_of_blank_eq h with ⟨cause, hl, hl'⟩ | ⟨secrets, secrets', hl, hl', hblank⟩
  · simp only [hl, hl']
    exact ⟨trivial, .inl ⟨_, rfl, rfl⟩⟩
  · have hnames : secrets'.map (·.name) = secrets.map (·.name) := by
      simpa [Function.comp_def] using congrArg (List.map (·.name)) hblank
    have hlengths : (secrets'.map (·.value)).map List.length =
        (secrets.map (·.value)).map List.length := by
      simpa [Function.comp_def] using congrArg (List.map (·.value.length)) hblank
    have hnone : secrets'.isEmpty = secrets.isEmpty := by
      simpa using congrArg List.isEmpty hblank
    simp only [hl, hl', hnames, hnone]
    rcases Finder.ofPatterns_inStep hlengths with
      ⟨cause, hcause, hcause'⟩ | ⟨f, f', hf, hf', hstep⟩
    · simp only [hcause, hcause']
      exact ⟨trivial, .inl ⟨_, rfl, rfl⟩⟩
    · simp only [hf, hf', hstep.patternCount_eq, hstep.longest_eq]
      exact ⟨trivial, .inr ⟨_, _, rfl, rfl⟩⟩

end Program

/-! ## Failures with no words of others -/

/-- What is reported of the failure is the same whatever others have to say. -/
def Failure.Own (f : Failure) : Prop := ∀ r r', f.chain r = f.chain r'

theorem Failure.Own.report_eq {f : Failure} (h : f.Own) {r r' : Remarks}
    (hbacktrace : r'.backtrace = r.backtrace) (hoverflow : r'.overflow = r.overflow)
    (backtraced : Bool) : f.report r' backtraced = f.report r backtraced := by
  rw [report, report, h r' r, hbacktrace, hoverflow]

theorem Program.own_of_prepare {c : Call} {task : Task} {resolved : List Resolved}
    {failure : Failure} (h : entries c task = some resolved)
    (hfailure : (prepare c task).2 = .error failure) : failure.Own := by
  rw [prepare, ← loading, loading_of_entries h, Loading.ofResolved] at hfailure
  cases hunset : resolved.findSome? Resolved.unset? with
  | some e =>
      simp only [hunset] at hfailure
      obtain rfl := Except.error.inj hfailure
      exact fun _ _ => rfl
  | none =>
      simp only [hunset] at hfailure
      split at hfailure
      · obtain rfl := Except.error.inj hfailure
        exact fun _ _ => rfl
      · cases hfailure

/-- An output that refuses nothing has nothing to say. -/
theorem Command.own_of_work (command : Command) {finder : Finder} {sink : Sink}
    {pieces : List Piece} {failure : Failure} (hf : finder.Sound) (ho : sink.Open)
    (h : (command.work finder sink pieces).failure = some failure) : failure.Own := by
  cases hreading : (command.reading pieces).failure with
  | none =>
      obtain ⟨tally, hok⟩ := command.pass_of_reading hf ho hreading
      cases (command.work_of_ok ho hok).symm.trans h
  | some cause =>
      have herror := command.pass_of_failing hf ho hreading
      obtain rfl := Option.some.inj ((command.work_of_error herror).2.symm.trans h)
      cases command with
      | mask => exact fun _ _ => rfl
      | scan => exact fun _ _ => rfl

/-! ## Two calls -/

namespace Command

inductive SameKind : Command → Command → Prop
  | mask (task task' : Task) (output output' : Option Bytes) (marker marker' : String) :
      SameKind (.mask task output marker) (.mask task' output' marker')
  | scan (task task' : Task) : SameKind (.scan task) (.scan task')

variable {command command' : Command} {f f' : Finder} {sink sink' : Sink}
  {pieces pieces' : List Piece}

theorem SameKind.pass_inStep (h : command.SameKind command')
    (hr : (command.reading pieces).InStep (command'.reading pieces'))
    (hf : f.InStep (command.reading pieces).bytes f' (command'.reading pieces').bytes)
    (hs : sink.Open) (hs' : sink'.Open) :
    (command'.pass f' sink' pieces').events = (command.pass f sink pieces).events ∧
      (command'.pass f' sink' pieces').outcome = (command.pass f sink pieces).outcome := by
  cases h with
  | mask => exact Pass.mask_inStep hr hf hs hs'
  | scan => exact Pass.scan_inStep hr hf hs hs'

theorem SameKind.work_inStep (h : command.SameKind command')
    (hr : (command.reading pieces).InStep (command'.reading pieces'))
    (hf : f.InStep (command.reading pieces).bytes f' (command'.reading pieces').bytes)
    (hs : sink.Open) (hs' : sink'.Open) :
    (command'.work f' sink' pieces').events = (command.work f sink pieces).events ∧
      (command'.work f' sink' pieces').failure = (command.work f sink pieces).failure := by
  obtain ⟨hevents, houtcome⟩ := h.pass_inStep hr hf hs hs'
  simp only [work, houtcome, hevents]
  cases (command.pass f sink pieces).outcome with
  | error cause =>
      cases h with
      | mask => exact ⟨rfl, rfl⟩
      | scan => exact ⟨rfl, rfl⟩
  | ok tally =>
      cases h with
      | mask => exact ⟨rfl, rfl⟩
      | scan task task' =>
          have hopen : ((Command.scan task).pass f sink pieces).sink.Open := Pass.open_scan hs
          have hopen' : ((Command.scan task').pass f' sink' pieces').sink.Open := Pass.open_scan hs'
          obtain ⟨hput, hended⟩ := hopen.put 1
          obtain ⟨hput', hended'⟩ := hopen'.put 1
          simp only [hput, hput', hended.flush.1, hended'.flush.1, and_self]

end Command

/-- The calls agree on what gives the lines on standard error their form, and what is said there of
the way to a failure is the same. -/
structure Call.SameForm (c c' : Call) : Prop where
  setting_eq : ∀ name ∈ ["RUST_LOG", "NO_COLOR", "RUST_LIB_BACKTRACE", "RUST_BACKTRACE"],
    c'.environment.text? name = c.environment.text? name
  backtrace_eq : c'.remarks.backtrace = c.remarks.backtrace
  overflow_eq : c'.remarks.overflow = c.remarks.overflow

namespace Program

section

variable {c c' : Call} {command command' : Command} {resolved resolved' : List Resolved}

/-- The words are a command, the secrets file is one, input and output can be opened, and the output
refuses nothing. -/
structure Accessible (c : Call) (command : Command) (resolved : List Resolved) : Prop where
  words : Invocation.ofWords c.words = .ok (.run command)
  entries : entries c command.task = some resolved
  input : ∃ source, findInput c.tree command.task.input = .ok source
  output : ∃ created, createOutput c.tree command.output = .ok created
  sink : c.output.sink.Open

theorem Accessible.opening (h : Accessible c command resolved) {finder : Finder}
    (hfinder : (prepare c command.task).2 = .ok finder) :
    ∃ o, opening c command = .ok o := by
  obtain ⟨source, hsource⟩ := h.input
  obtain ⟨⟨target, tree⟩, hcreated⟩ := h.output
  exact ⟨⟨finder, source, target, tree⟩, opening_eq_ok_iff.mpr ⟨hfinder, hsource, hcreated⟩⟩

/-- The commands read portions of the same sizes, and their patterns have hits at the same
positions of what they read. -/
def Opening.InStep (o : Opening) (command : Command) (pieces : List Piece) (o' : Opening)
    (command' : Command) (pieces' : List Piece) : Prop :=
  (command.reading pieces).InStep (command'.reading pieces') ∧
    o.finder.InStep (command.reading pieces).bytes o'.finder (command'.reading pieces').bytes

/-- Outcomes with the same events and the same failure are told in the same lines. -/
theorem conclude_blind {o o' : Outcome} (h : c.SameForm c') (hevents : o'.events = o.events)
    (hfailure : o'.failure = o.failure) (hown : ∀ failure, o.failure = some failure → failure.Own) :
    (conclude c' o').diagnostics = (conclude c o).diagnostics := by
  have hfilter := h.setting_eq "RUST_LOG" (by simp)
  have hcolored : Log.colored c'.environment = Log.colored c.environment := by
    rw [Log.colored, Log.colored, h.setting_eq "NO_COLOR" (by simp)]
  have hbacktraced : Failure.backtraced c'.environment = Failure.backtraced c.environment := by
    rw [Failure.backtraced, Failure.backtraced, h.setting_eq "RUST_LIB_BACKTRACE" (by simp),
      h.setting_eq "RUST_BACKTRACE" (by simp)]
  simp only [conclude, hevents, hfailure, hfilter, hcolored, hbacktraced]
  cases hf : o.failure with
  | none => rfl
  | some failure =>
      simp only [Option.map_some, Option.getD_some,
        (hown failure hf).report_eq h.backtrace_eq h.overflow_eq]

theorem Opening.outcome_blind {o o' : Opening} {pieces pieces' : List Piece}
    (h : Accessible c command resolved) (h' : Accessible c' command' resolved')
    (hkind : command.SameKind command') (hform : c.SameForm c')
    (hprepare : (prepare c' command'.task).1 = (prepare c command.task).1)
    (ho : Program.opening c command = .ok o) (hread : o.InStep command pieces o' command' pieces') :
    (conclude c' (o'.outcome c' command' pieces')).diagnostics =
      (conclude c (o.outcome c command pieces)).diagnostics := by
  obtain ⟨hevents, hfailure⟩ := hkind.work_inStep hread.1 hread.2 h.sink h'.sink
  refine conclude_blind hform ?_ hfailure fun failure hsome =>
    command.own_of_work (finder_sound ho).1 h.sink hsome
  simp only [outcome, hprepare, hevents]

/-- Two calls of one command may differ in the bytes of the secrets, in the bytes of the input and
in the marker, and in where they read from and write to. If the secrets have the same names and
lengths, if what is read comes in the same sizes, and if the patterns have hits at the same
positions of it, all lines on standard error are the same. So they are when a secret is empty or a
variable is not set, when reading fails, and when the input comes in any other pieces. -/
theorem diagnostics_blind (h : Accessible c command resolved)
    (h' : Accessible c' command' resolved') (hkind : command.SameKind command')
    (hform : c.SameForm c')
    (hresolved : resolved'.map Resolved.blank = resolved.map Resolved.blank)
    (hinline : (Secret.inline command'.task.inline).map Secret.blank =
      (Secret.inline command.task.inline).map Secret.blank) :
    ((∀ o o', opening c command = .ok o → opening c' command' = .ok o' →
        o.InStep command (o.pieces c command) o' command' (o'.pieces c' command')) →
      (run c').diagnostics = (run c).diagnostics) ∧
    ∀ (o o' : Opening) (pieces pieces' : List Piece),
      opening c command = .ok o → opening c' command' = .ok o' →
      o.InStep command pieces o' command' pieces' →
      (conclude c' (o'.outcome c' command' pieces')).diagnostics =
        (conclude c (o.outcome c command pieces)).diagnostics := by
  have hloading : (loading c' command'.task).blank = (loading c command.task).blank := by
    rw [loading_of_entries h.entries, loading_of_entries h'.entries, Loading.blank_ofResolved,
      Loading.blank_ofResolved, hresolved, hinline]
  obtain ⟨hprepare, hfinders⟩ := prepare_blind hloading
  constructor
  · intro hread
    rw [run_eq h.words, run_eq h'.words]
    rcases hfinders with ⟨failure, herror, herror'⟩ | ⟨f, f', hf, hf'⟩
    · rw [execute_of_error (opening_eq_error_iff.mpr (.inl herror)),
        execute_of_error (opening_eq_error_iff.mpr (.inl herror'))]
      refine conclude_blind hform hprepare rfl ?_
      rintro _ ⟨⟩
      exact own_of_prepare h.entries herror
    · obtain ⟨o, ho⟩ := h.opening hf
      obtain ⟨o', ho'⟩ := h'.opening hf'
      rw [execute_of_ok ho, execute_of_ok ho']
      exact Opening.outcome_blind h h' hkind hform hprepare ho (hread o o' ho ho')
  · intro o o' pieces pieces' ho _ hread
    exact Opening.outcome_blind h h' hkind hform hprepare ho hread

/-- One value comes from a variable and one from the words; the markers differ in length, and all
events are shown. -/
theorem diagnostics_blind_traced :
    let tree := FileTree.ofList [] [(Bytes.ofText "s", .file (Bytes.ofText
      "[[secrets]]\nname = \"k\"\nenv = \"K\"\n[[secrets]]\nname = \"none\"\n"))]
    let words (secret marker : String) :=
      ["mask", "--secrets", "s", "--secret", secret, "--marker", marker].map Bytes.ofText
    let task (secret : String) : Task :=
      { secretsFile := some (Bytes.ofText "s"), inline := [secret] }
    let c : Call :=
      { words := words "ab" "#", environment := ["RUST_LOG=trace", "K=xyz"].map Bytes.ofText
        input := .script [.data (Bytes.ofText "1ab2xyzab")], tree }
    let c' : Call :=
      { words := words "cd" "<secret>", environment := ["RUST_LOG=trace", "K=uvw"].map Bytes.ofText
        input := .script [.data (Bytes.ofText "9cd8uvwcd")], tree }
    Accessible c (.mask (task "ab") none "#")
        [.secret ⟨"k", Bytes.ofText "xyz"⟩, .skipped "none"] ∧
      Accessible c' (.mask (task "cd") none "<secret>")
        [.secret ⟨"k", Bytes.ofText "uvw"⟩, .skipped "none"] ∧
      (run c').diagnostics = (run c).diagnostics ∧
      (execute c (.mask (task "ab") none "#")).events =
        [.secretSkipped "none", .secretsLoaded ["k", "arg#0"], .finderReady 2 3,
          .portionMatched 3 9, .rangeHidden ⟨1, 3⟩, .rangeHidden ⟨4, 9⟩, .maskDone 1,
          .maskFinished 9 3 7] ∧
      (run c).output = Bytes.ofText "1#2#" ∧
      (run c').output = Bytes.ofText "9<secret>8<secret>" := by
  intro tree words task c c'
  have h : Accessible c (.mask (task "ab") none "#")
      [.secret ⟨"k", Bytes.ofText "xyz"⟩, .skipped "none"] :=
    ⟨by decide +kernel, by decide +kernel, ⟨none, rfl⟩, ⟨(none, tree), rfl⟩, Sink.open_default⟩
  have h' : Accessible c' (.mask (task "cd") none "<secret>")
      [.secret ⟨"k", Bytes.ofText "uvw"⟩, .skipped "none"] :=
    ⟨by decide +kernel, by decide +kernel, ⟨none, rfl⟩, ⟨(none, tree), rfl⟩, Sink.open_default⟩
  have hform : c.SameForm c' := ⟨by decide +kernel, rfl, rfl⟩
  obtain ⟨hlines, -⟩ := diagnostics_blind h h' (.mask ..) hform (by decide +kernel)
    (by decide +kernel)
  refine ⟨h, h', hlines fun o o' ho ho' => ?_, by decide +kernel, by decide +kernel,
    by decide +kernel⟩
  obtain ⟨hfinder, hsource, -⟩ := opening_eq_ok_iff.mp ho
  obtain ⟨hfinder', hsource', -⟩ := opening_eq_ok_iff.mp ho'
  have hf : Finder.fresh [Bytes.ofText "xyz", Bytes.ofText "ab"] = o.finder :=
    Except.ok.inj (Eq.trans (by decide +kernel) hfinder)
  have hf' : Finder.fresh [Bytes.ofText "uvw", Bytes.ofText "cd"] = o'.finder :=
    Except.ok.inj (Eq.trans (by decide +kernel) hfinder')
  have hpieces : o.pieces c (.mask (task "ab") none "#") = [.data (Bytes.ofText "1ab2xyzab")] := by
    rw [Opening.pieces, ← show none = o.source from Except.ok.inj hsource]
    show Piece.buffered 4096 [.data (Bytes.ofText "1ab2xyzab")] = _
    decide +kernel
  have hpieces' : o'.pieces c' (.mask (task "cd") none "<secret>") =
      [.data (Bytes.ofText "9cd8uvwcd")] := by
    rw [Opening.pieces, ← show none = o'.source from Except.ok.inj hsource']
    show Piece.buffered 4096 [.data (Bytes.ofText "9cd8uvwcd")] = _
    decide +kernel
  rw [Opening.InStep, hpieces, hpieces', ← hf, ← hf']
  exact ⟨⟨by decide +kernel, by decide +kernel⟩, rfl, by decide +kernel⟩

end

end Program

end Redaction
