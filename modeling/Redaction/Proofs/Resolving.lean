import Redaction.Loading

/-!
# When loading the secrets fails

An entry of a secrets file lacks its value if that is to come from a variable which is not set
(`Entry.Lacks`). A written value needs no variable, and an entry with neither is only skipped.

So there are three faults that a secrets file can have: it cannot be read as text, the text is no
secrets file, or one of its entries lacks its value. Loading fails when the file has one of them
(`Loading.gather_fails_iff`); secrets given directly never fail.
-/

namespace Redaction

variable {lookup : String → Option String} {entries : List Entry} {e : Entry}

namespace Entry

/-- The value is to come from a variable, and the variable is not set. -/
def Lacks (lookup : String → Option String) (e : Entry) : Prop :=
  e.value = none ∧ ∃ envVar, e.envVar = some envVar ∧ lookup envVar = none

theorem isSome_unset?_resolve (position : Nat) :
    (e.resolve lookup position).unset?.isSome ↔ e.Lacks lookup := by
  obtain ⟨name, value, envVar⟩ := e
  cases value with
  | some value => simp [Lacks, resolve, Resolved.unset?]
  | none =>
      cases envVar with
      | none => simp [Lacks, resolve, Resolved.unset?]
      | some envVar =>
          cases hvar : lookup envVar with
          | none => simp [Lacks, resolve, Resolved.unset?, hvar]
          | some value => simp [Lacks, resolve, Resolved.unset?, hvar]

theorem resolveAll_fails_iff :
    (∃ cause, (resolveAll lookup entries).secrets = .error cause) ↔
      ∃ e ∈ entries, e.Lacks lookup := by
  have hfirst : ((entries.mapIdx (resolve lookup)).findSome? Resolved.unset?).isSome ↔
      ∃ e ∈ entries, e.Lacks lookup := by
    rw [List.findSome?_isSome_iff]
    constructor
    · rintro ⟨r, hr, hunset⟩
      obtain ⟨i, hi, rfl⟩ := List.mem_mapIdx.mp hr
      exact ⟨entries[i], List.getElem_mem hi, (isSome_unset?_resolve i).mp hunset⟩
    · rintro ⟨e, he, hlacks⟩
      obtain ⟨i, hi, rfl⟩ := List.getElem_of_mem he
      exact ⟨_, List.mem_mapIdx.mpr ⟨i, hi, rfl⟩, (isSome_unset?_resolve i).mpr hlacks⟩
  rw [← hfirst, resolveAll]
  cases (entries.mapIdx (resolve lookup)).findSome? Resolved.unset? with
  | none => simp
  | some cause => simp

end Entry

namespace Loading

variable {tree : FileTree} {env : Environment} {path : Option Bytes} {inline : List String}

theorem ofText_fails_iff {text : String} :
    (∃ cause, (ofText lookup text).secrets = .error cause) ↔
      SecretsFile.parse text = none ∨
        ∃ entries, SecretsFile.parse text = some entries ∧ ∃ e ∈ entries, e.Lacks lookup := by
  rw [ofText]
  cases SecretsFile.parse text with
  | none => simp
  | some entries =>
      simp only [reduceCtorEq, false_or, Option.some.injEq, exists_eq_left',
        ← Entry.resolveAll_fails_iff]
      cases (Entry.resolveAll lookup entries).secrets with
      | error cause => exact iff_of_true ⟨_, rfl⟩ ⟨_, rfl⟩
      | ok secrets =>
          refine iff_of_false ?_ ?_
          · rintro ⟨cause, h⟩
            cases h
          · rintro ⟨cause, h⟩
            cases h

theorem ofFile_fails_iff {path : Bytes} :
    (∃ cause, (ofFile tree env path).secrets = .error cause) ↔
      (∃ cause, tree.readText path = .error cause) ∨
        ∃ text, tree.readText path = .ok text ∧
          ∃ cause, (ofText env.text? text).secrets = .error cause := by
  rw [ofFile]
  cases tree.readText path with
  | error cause => simp
  | ok text => simp

theorem gather_fails_iff :
    (∃ cause, (gather tree env path inline).secrets = .error cause) ↔
      ∃ file, path = some file ∧ ∃ cause, (ofFile tree env file).secrets = .error cause := by
  rw [gather]
  cases path with
  | none => simp [Except.map]
  | some file =>
      simp only [Option.map_some, Option.getD_some, Option.some.injEq, exists_eq_left']
      cases (ofFile tree env file).secrets with
      | error cause => simp [Except.map]
      | ok secrets => simp [Except.map]

end Loading

end Redaction
