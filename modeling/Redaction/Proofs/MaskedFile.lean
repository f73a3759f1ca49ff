import Redaction.Proofs.Ending

/-!
# Where the masked input goes

A mask that ends with the status 0 has put the rendering of what it read to standard output, or into
the file it created for it, and has changed no other (`masked_input_delivered`). That is so whatever
the output does, since a mask whose output refuses something does not end with 0. What it read is
what the input held when the program was called, whatever else the output replaces: the secrets are
loaded by the time their file could be emptied.

Only the input itself must not be the output, be it named or standard input. It is found first, but
read when the output has been created, and so it is empty by then. The mask succeeds all the same,
and the input is lost (`masked_input_lost`).
-/

namespace Redaction

/-- A mask that fails nowhere puts out the rendering of all that can be read. -/
theorem Command.taken_of_mask {task : Task} {output : Option Bytes} {marker : String}
    {finder : Finder} {sink : Sink} {pieces : List Piece} (hf : finder.Sound) {read : Bytes}
    (hread : Piece.content pieces = .ok read)
    (h : ((mask task output marker).work finder sink pieces).failure = none) :
    ((mask task output marker).work finder sink pieces).taken =
      render (finder.Covers read) (Bytes.ofText marker) finder.consumed read := by
  obtain ⟨⟨tally, hok⟩, hreading⟩ := reading_of_work _ h
  have hsize := Settings.readSize_pos (mask task output marker).settings
  obtain ⟨hlimit, hpieces⟩ := (Reading.failure_eq_none_iff hsize).mp hreading
  obtain ⟨-, hbytes, -⟩ := Reading.ofPieces_of_readable hsize hlimit hpieces
  have hsucceeded : (Pass.mask (mask task output marker).settings finder sink pieces).succeeded =
      true := congrArg Except.isOk hok
  have hout := Pass.out_of_succeeded hf hsucceeded
  rw [hbytes, (Piece.content_eq_ok_iff.mp hread).2] at hout
  simp only [work, hok]
  exact hout

namespace Program

variable {c : Call} {task : Task} {output : Option Bytes} {marker : String}

/-- The place that was created holds what was written to it. -/
theorem Opening.held_target {o : Opening} {command : Command} (h : opening c command = .ok o)
    {path : Bytes} (hpath : command.output = some path) :
    ∃ place, o.target = some place ∧ c.tree.locate path = .ok place ∧
      ∀ bs, (o.tree.write place bs).held? path = some bs ∧
        ∀ q ≠ place, (o.tree.write place bs).node? q = c.tree.node? q := by
  obtain ⟨-, -, htarget⟩ := opening_eq_ok_iff.mp h
  rcases createOutput_eq_ok_iff.mp htarget with
    ⟨hnone, -, -⟩ | ⟨path', place, hpath', hplace, hcreate⟩
  · cases hpath.symm.trans hnone
  · obtain rfl := Option.some.inj (hpath.symm.trans hpath')
    obtain ⟨-, hlocate, hcheck, htree⟩ := FileTree.create_eq_ok_iff.mp hcreate
    have hholds := FileTree.checkTarget_eq_ok hcheck
    rw [htree]
    refine ⟨place, hplace, hlocate, fun bs => ⟨?_, ?_⟩⟩
    · exact FileTree.held?_write (hholds.write []) (FileTree.locate_write hholds [] hlocate) bs
    · intro q hq
      rw [FileTree.node?_write hholds.ne_nil, if_neg hq, FileTree.node?_write hholds.ne_nil,
        if_neg hq]

/-- The rendering of what the input gives goes to the output and nowhere else. -/
theorem Opening.masks {o : Opening} (h : opening c (.mask task output marker) = .ok o)
    {pieces : List Piece} {read : Bytes} (hread : Piece.content pieces = .ok read)
    (hdone : (o.outcome c (.mask task output marker) pieces).failure = none) :
    let outcome := o.outcome c (.mask task output marker) pieces
    let masked := render (o.finder.Covers read) (Bytes.ofText marker) 0 read
    (output = none → outcome.output = masked) ∧
      (∀ path, output = some path →
        outcome.output = [] ∧ outcome.tree.held? path = some masked) ∧
      ∀ q, ¬c.tree.LeadsTo output q → outcome.tree.node? q = c.tree.node? q := by
  intro outcome masked
  obtain ⟨hsound, hfresh⟩ := Opening.finder_sound h
  let work := (Command.mask task output marker).work o.finder c.output.sink pieces
  have hfailure : work.failure = none := hdone
  have hshown : c.output.shown work.taken work.failure.isSome = masked := by
    have htaken := Command.taken_of_mask hsound hread hfailure
    rw [hfresh] at htaken
    rw [hfailure]
    exact htaken
  cases output with
  | none =>
      obtain ⟨hnone, htree⟩ := of_output_eq_none h rfl
      have hkept : outcome.tree = c.tree := by
        simp only [outcome, Opening.outcome, hnone, htree]
      have hput : outcome.output = masked := by
        simp only [outcome, Opening.outcome, hnone]
        exact hshown
      refine ⟨fun _ => hput, ?_, ?_⟩
      · intro path hpath
        cases hpath
      · intro q _
        exact congrArg (·.node? q) hkept
  | some path =>
      obtain ⟨place, hsome, hlocate, hwritten⟩ := held_target h rfl
      obtain ⟨hheld, hothers⟩ := hwritten masked
      have htree : outcome.tree = o.tree.write place masked := by
        simp only [outcome, Opening.outcome, hsome]
        rw [← hshown]
      have houtput : outcome.output = [] := by
        simp only [outcome, Opening.outcome, hsome]
        rfl
      rw [htree]
      refine ⟨?_, ?_, ?_⟩
      · intro hnone
        cases hnone
      · rintro _ ⟨⟩
        exact ⟨houtput, hheld⟩
      · intro q hq
        refine hothers q ?_
        rintro rfl
        exact hq ⟨path, rfl, hlocate⟩

/-- When a mask ends with the status 0, the rendering of what the input held is on standard output,
or in the output's file, unless that is the input's: then there is nothing in it. All other files
are as they were. With an output that refuses nothing a mask ends so just when nothing hinders it,
there is a buffer to read into, and the input can be read. -/
theorem masked_input_delivered
    (hwords : Invocation.ofWords c.words = .ok (.run (.mask task output marker))) :
    let command := Command.mask task output marker
    let e := run c
    (e.status = 0 → ∃ secrets finder content,
        (loading c task).secrets = .ok secrets ∧
        Finder.ofPatterns (secrets.map (·.value)) = .ok finder ∧
        c.content task.input = .ok content ∧
        let masked := render (finder.Covers content) (Bytes.ofText marker) 0 content
        (output = none → e.output = masked) ∧
        (∀ path, output = some path → e.output = [] ∧
          (¬c.SameFile task.input output → e.tree.held? path = some masked) ∧
          (c.SameFile task.input output → e.tree.held? path = some [])) ∧
        ∀ q, ¬c.tree.LeadsTo output q → e.tree.node? q = c.tree.node? q) ∧
      (c.output.sink.Open →
        (e.status = 0 ↔ ¬Hindered c command ∧
          command.settings.readSize ≤ Reading.bufferLimit ∧
          ∃ content, c.content task.input = .ok content)) := by
  intro command e
  have hrun : e = _ := run_eq hwords
  refine ⟨?_, status_eq_zero_iff hwords⟩
  intro hstatus
  obtain ⟨hnot, -, content, hcontent⟩ := of_status_eq_zero hwords hstatus
  have hdone := (status_eq_zero hwords).mp hstatus
  cases h : opening c command with
  | error failure => exact absurd (hindered_of_error h) hnot
  | ok o =>
      obtain ⟨hfinder, -, -⟩ := opening_eq_ok_iff.mp h
      obtain ⟨secrets, hsecrets, hpatterns⟩ := prepare_eq_ok_iff.mp hfinder
      obtain ⟨hsame, hother⟩ := Opening.reads h
      refine ⟨secrets, o.finder, content, hsecrets, hpatterns, hcontent, ?_⟩
      intro masked
      rw [execute_of_ok h] at hdone
      rw [hrun, execute_of_ok h]
      by_cases hfile : c.SameFile task.input output
      · have hread := hsame hfile
        rw [show c.content command.task.input = _ from hcontent] at hread
        obtain ⟨-, hheld, hkept⟩ := Opening.masks h hread hdone
        refine ⟨?_, ?_, hkept⟩
        · rintro rfl
          exact absurd hfile Call.not_sameFile_none
        · intro path hpath
          exact ⟨(hheld path hpath).1, fun hnot => absurd hfile hnot,
            fun _ => (hheld path hpath).2⟩
      · have hread := hother hfile
        rw [show c.content command.task.input = _ from hcontent] at hread
        obtain ⟨hshown, hheld, hkept⟩ := Opening.masks h hread hdone
        refine ⟨hshown, ?_, hkept⟩
        intro path hpath
        exact ⟨(hheld path hpath).1, fun _ => (hheld path hpath).2,
          fun hyes => absurd hyes hfile⟩

/-- The secrets file is the output's: it has been read by the time it is emptied. -/
theorem masked_input_delivered_over_secrets :
    let words := ["mask", "--input", "f", "--output", "s", "--secrets", "s"].map Bytes.ofText
    let tree := FileTree.ofList [] [(Bytes.ofText "f", .file (Bytes.ofText "xaby")),
      (Bytes.ofText "s", .file (Bytes.ofText "[[secrets]]\nvalue = \"ab\"\n"))]
    let task : Task := { input := some (Bytes.ofText "f"), secretsFile := some (Bytes.ofText "s") }
    let c : Call := { words, tree }
    Invocation.ofWords c.words = .ok (.run (.mask task (some (Bytes.ofText "s")) "<redacted>")) ∧
      (run c).status = 0 ∧ (run c).output = [] ∧
      (run c).tree.held? (Bytes.ofText "s") = some (Bytes.ofText "x<redacted>y") := by
  intro words tree task c
  have hwords : Invocation.ofWords c.words =
      .ok (.run (.mask task (some (Bytes.ofText "s")) "<redacted>")) := by decide +kernel
  have hstatus : (run c).status = 0 := by decide +kernel
  obtain ⟨secrets, finder, content, hsecrets, hpatterns, hcontent, -, hfile, -⟩ :=
    (masked_input_delivered hwords).1 hstatus
  obtain rfl : [⟨"secret#0", Bytes.ofText "ab"⟩] = secrets :=
    Except.ok.inj (Eq.trans (by decide +kernel) hsecrets)
  obtain rfl := (Finder.ofPatterns_eq_ok_iff.mp hpatterns).2
  obtain rfl : Bytes.ofText "xaby" = content :=
    Except.ok.inj (Eq.trans (by decide +kernel) hcontent)
  have hplace : c.ReadsFrom task.input [Bytes.ofText "f"] := by
    show c.tree.locate (Bytes.ofText "f") = .ok [Bytes.ofText "f"]
    decide +kernel
  have hplace' : c.tree.LeadsTo (some (Bytes.ofText "s")) [Bytes.ofText "s"] :=
    ⟨_, rfl, by decide +kernel⟩
  have hne : [Bytes.ofText "f"] ≠ [Bytes.ofText "s"] := by decide +kernel
  have hother : ¬c.SameFile task.input (some (Bytes.ofText "s")) := by
    rw [hplace.sameFile_iff]
    exact fun hleads => hne (hplace'.unique hleads)
  obtain ⟨houtput, hmasked, -⟩ := hfile _ rfl
  exact ⟨hwords, hstatus, houtput, (hmasked hother).trans (by decide +kernel)⟩

/-- The input is the output's file: nothing is left of it, and the status tells of no failure. -/
theorem masked_input_lost :
    let words := ["mask", "--input", "f", "--output", "f", "--secret", "ab"].map Bytes.ofText
    let tree := FileTree.ofList [] [(Bytes.ofText "f", .file (Bytes.ofText "xaby"))]
    let task : Task := { input := some (Bytes.ofText "f"), inline := ["ab"] }
    let c : Call := { words, tree }
    Invocation.ofWords c.words = .ok (.run (.mask task task.input "<redacted>")) ∧
      (loading c task).secrets = .ok [⟨"arg#0", Bytes.ofText "ab"⟩] ∧
      c.content task.input = .ok (Bytes.ofText "xaby") ∧
      (run c).status = 0 ∧
      (run c).tree.content (Bytes.ofText "f") = .ok [] ∧
      render ((Finder.fresh [Bytes.ofText "ab"]).Covers (Bytes.ofText "xaby"))
        (Bytes.ofText "<redacted>") 0 (Bytes.ofText "xaby") = Bytes.ofText "x<redacted>y" := by
  decide +kernel

/-- It is lost all the same when the file comes in on standard input. -/
example :
    let words := ["mask", "--output", "f", "--secret", "ab"].map Bytes.ofText
    let tree := FileTree.ofList [] [(Bytes.ofText "f", .file (Bytes.ofText "xaby"))]
    let c : Call := { words, input := .file [Bytes.ofText "f"], tree }
    (run c).status = 0 ∧ (run c).tree.content (Bytes.ofText "f") = .ok [] := by
  decide +kernel

end Program

end Redaction
