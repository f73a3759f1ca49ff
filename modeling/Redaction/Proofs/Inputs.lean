import Redaction.Proofs.Opening
import Redaction.Proofs.Pieces

/-!
# What a command reads

The input is read when the output has been created. That changes one file at most, and nothing that
is a folder or a link (`Program.Opening.node?_tree`), nor what is allowed. So what the pass reads is
what the input held when the program was called, except that there is nothing left of an input that
is the output as well (`Program.Opening.reads`). Standard input can be that file too.
-/

namespace Redaction

namespace Call

/-- What the input holds when the program is called, or why it cannot be read. -/
def content (c : Call) : (input : Option Bytes) → Except String Bytes
  | none => Piece.content (Program.piecesIn c.tree c.input)
  | some path => (c.tree.content path).mapError FileError.message

/-- The input is the file at a place. -/
def ReadsFrom (c : Call) (input : Option Bytes) (q : Place) : Prop :=
  match input with
  | none => c.input = .file q
  | some path => c.tree.locate path = .ok q

/-- Input and output are one file. -/
def SameFile (c : Call) (input output : Option Bytes) : Prop :=
  ∃ q, c.ReadsFrom input q ∧ c.tree.LeadsTo output q

variable {c : Call} {input output : Option Bytes} {q q' : Place}

theorem ReadsFrom.unique (h : c.ReadsFrom input q) (h' : c.ReadsFrom input q') : q = q' := by
  cases input with
  | none => exact Stdin.file.inj (h.symm.trans h')
  | some path => exact Except.ok.inj (h.symm.trans h')

theorem ReadsFrom.sameFile_iff (h : c.ReadsFrom input q) :
    c.SameFile input output ↔ c.tree.LeadsTo output q := by
  constructor
  · rintro ⟨q', h', hleads⟩
    exact h.unique h' ▸ hleads
  · intro hleads
    exact ⟨q, h, hleads⟩

theorem not_sameFile_none : ¬c.SameFile input none := by
  rintro ⟨q, -, hleads⟩
  exact FileTree.not_leadsTo_none hleads

end Call

namespace Program

variable {c : Call} {command : Command}

/-! ## The files when the output has been created -/

theorem createOutput_eq_ok_iff {tree tree' : FileTree} {output : Option Bytes}
    {target : Option Place} :
    createOutput tree output = .ok (target, tree') ↔
      (output = none ∧ target = none ∧ tree' = tree) ∨
        ∃ path place, output = some path ∧ target = some place ∧
          tree.create path = .ok (place, tree') := by
  cases output with
  | none => simp [createOutput, eq_comm]
  | some path =>
      cases hcreate : tree.create path with
      | error cause => simp [createOutput, hcreate]
      | ok created =>
          obtain ⟨place, created⟩ := created
          simp only [createOutput, hcreate, reduceCtorEq, false_and, false_or, Option.some.injEq,
            exists_and_left, exists_eq_left', Except.ok.injEq, Prod.mk.injEq]
          constructor
          · rintro ⟨rfl, rfl⟩
            exact ⟨place, rfl, rfl, rfl⟩
          · rintro ⟨_, rfl, rfl, rfl⟩
            exact ⟨rfl, rfl⟩

namespace Opening

variable {o : Opening} (h : opening c command = .ok o)

include h

/-- The files are as before, but that the output has been emptied. -/
theorem node?_tree (q : Place) :
    (c.tree.LeadsTo command.output q ∧ c.tree.CanHold q ∧ o.tree.node? q = some (.file [])) ∨
      (¬c.tree.LeadsTo command.output q ∧ o.tree.node? q = c.tree.node? q) := by
  obtain ⟨-, -, htarget⟩ := opening_eq_ok_iff.mp h
  rcases createOutput_eq_ok_iff.mp htarget with ⟨hnone, -, htree⟩ | ⟨path, place, hpath, -, hcreate⟩
  · rw [hnone, htree]
    exact .inr ⟨FileTree.not_leadsTo_none, rfl⟩
  · obtain ⟨-, hlocate, hcheck, htree⟩ := FileTree.create_eq_ok_iff.mp hcreate
    have hholds := FileTree.checkTarget_eq_ok hcheck
    have hplace : c.tree.LeadsTo command.output place := ⟨path, hpath, hlocate⟩
    rw [htree, FileTree.node?_write hholds.ne_nil]
    by_cases hq : q = place
    · subst hq
      exact .inl ⟨hplace, hholds, if_pos rfl⟩
    · exact .inr ⟨fun hleads => hq (hplace.unique hleads), if_neg hq⟩

theorem allow_tree (q : Place) (access : Access) :
    o.tree.allow q access = c.tree.allow q access := by
  obtain ⟨-, -, htarget⟩ := opening_eq_ok_iff.mp h
  rcases createOutput_eq_ok_iff.mp htarget with ⟨-, -, htree⟩ | ⟨path, place, -, -, hcreate⟩
  · rw [htree]
  · obtain ⟨-, -, -, htree⟩ := FileTree.create_eq_ok_iff.mp hcreate
    rw [htree, FileTree.allow_write]

theorem finder_sound : o.finder.Sound ∧ o.finder.consumed = 0 := by
  obtain ⟨hfinder, -, -⟩ := opening_eq_ok_iff.mp h
  obtain ⟨secrets, -, hpatterns⟩ := prepare_eq_ok_iff.mp hfinder
  obtain ⟨hne, hfresh⟩ := Finder.ofPatterns_eq_ok_iff.mp hpatterns
  rw [hfresh]
  exact ⟨Finder.sound_fresh hne, rfl⟩

end Opening

/-! ## What the pass reads -/

theorem content_piecesAt {t : FileTree} {q : Place} (h : t.node? q ≠ none) :
    Piece.content (piecesAt t q) = (t.read q).mapError FileError.message := by
  rw [piecesAt]
  split
  · rename_i content hread
    rw [hread, Piece.content_data]
    rfl
  · exact absurd ‹_› (FileTree.read_ne_notFound h)
  · rename_i cause _ hread
    rw [hread]
    rfl

/-- Of a file that has been emptied there is nothing left to read. -/
theorem content_piecesAt_emptied {t t' : FileTree} {q : Place}
    (hallow : t'.allow q .read = t.allow q .read) (hholds : t.CanHold q)
    (hempty : t'.node? q = some (.file [])) :
    Piece.content (piecesAt t' q) = (Piece.content (piecesAt t q)).map fun _ => [] := by
  simp only [piecesAt, FileTree.read, hallow, hempty]
  cases t.allow q .read with
  | error cause => cases cause <;> rfl
  | ok =>
      rcases hholds with hnone | ⟨content, hfile⟩
      · rw [hnone]
        rfl
      · rw [hfile]
        show Piece.content [.data []] = (Piece.content [.data content]).map fun _ => []
        rw [Piece.content_data, Piece.content_data]
        rfl

theorem piecesAt_congr {t t' : FileTree} {q : Place}
    (hallow : t'.allow q .read = t.allow q .read) (hnode : t'.node? q = t.node? q) :
    piecesAt t' q = piecesAt t q := by
  simp only [piecesAt, FileTree.read, hallow, hnode]

namespace Opening

variable {o : Opening} (h : opening c command = .ok o)

include h

/-- The input is read at one place, before and after, or it is none of the files. -/
theorem content_pieces :
    (∃ q, c.ReadsFrom command.task.input q ∧
        c.content command.task.input = Piece.content (piecesAt c.tree q) ∧
        Piece.content (o.pieces c command) = Piece.content (piecesAt o.tree q)) ∨
      (∀ q, ¬c.ReadsFrom command.task.input q) ∧
        Piece.content (o.pieces c command) = c.content command.task.input := by
  obtain ⟨-, hsource, -⟩ := opening_eq_ok_iff.mp h
  cases hinput : command.task.input with
  | none =>
      rw [hinput] at hsource
      obtain hnone : none = o.source := Except.ok.inj hsource
      rw [pieces, ← hnone, Piece.content_buffered, Call.content]
      cases hin : c.input with
      | script script =>
          refine .inr ⟨fun q hq => ?_, rfl⟩
          cases hin.symm.trans hq
      | file place => exact .inl ⟨place, hin, rfl, rfl⟩
  | some path =>
      rw [hinput, findInput] at hsource
      cases hfind : c.tree.find path with
      | error cause =>
          rw [hfind] at hsource
          cases hsource
      | ok place =>
          rw [hfind] at hsource
          obtain hsome : some place = o.source := Except.ok.inj hsource
          obtain ⟨hlocate, hthere, -⟩ := FileTree.find_eq_ok_iff.mp hfind
          have hcontent : c.tree.content path = c.tree.read place := by
            rw [FileTree.content, hfind]
            rfl
          refine .inl ⟨place, hlocate, ?_, ?_⟩
          · rw [Call.content, hcontent, content_piecesAt hthere]
          · rw [pieces, ← hsome]

/-- The input is read when the output has been created, so nothing is left of it if they are one
file. -/
theorem reads :
    (c.SameFile command.task.input command.output →
        Piece.content (o.pieces c command) = (c.content command.task.input).map fun _ => []) ∧
      (¬c.SameFile command.task.input command.output →
        Piece.content (o.pieces c command) = c.content command.task.input) := by
  rcases content_pieces h with ⟨q, hq, hbefore, hafter⟩ | ⟨hnowhere, hcontent⟩
  · rw [hq.sameFile_iff, hbefore, hafter]
    rcases node?_tree h q with ⟨hleads, hholds, hempty⟩ | ⟨hother, hsame⟩
    · exact ⟨fun _ => content_piecesAt_emptied (allow_tree h q .read) hholds hempty,
        fun hnot => absurd hleads hnot⟩
    · refine ⟨fun hleads => absurd hleads hother, fun _ => ?_⟩
      rw [piecesAt_congr (allow_tree h q .read) hsame]
  · refine ⟨?_, fun _ => hcontent⟩
    rintro ⟨q, hq, -⟩
    exact absurd hq (hnowhere q)

/-- What has become of the input can be read when the input could. -/
theorem content_pieces_isOk :
    (∃ read, Piece.content (o.pieces c command) = .ok read) ↔
      ∃ content, c.content command.task.input = .ok content := by
  obtain ⟨hsame, hother⟩ := reads h
  by_cases hfile : c.SameFile command.task.input command.output
  · rw [hsame hfile]
    cases c.content command.task.input with
    | error reason => simp [Except.map]
    | ok content => simp [Except.map]
  · rw [hother hfile]

end Opening

end Program

end Redaction
