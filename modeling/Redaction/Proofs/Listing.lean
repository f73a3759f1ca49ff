import Mathlib.Data.List.Forall2
import Redaction.Proofs.Resolving

/-!
# Which secrets a file gives

Resolving goes through the entries of a secrets file with their positions. An entry gives a secret
(`Entry.Gives`), or is skipped because it has no source for a value, or lacks its value
(`Entry.resolve_cases`). Its position matters for the name alone, and a variable matters only if no
value is written (`Entry.resolve_congr`).

So the list of secrets follows the entries that have a source, each with its position among all
entries (`Entry.resolveAll_gives`). The first entry that lacks its value ends everything, whatever
is behind it (`Entry.resolveAll_eq_error_iff`).

The main result, `listed_in_file_order`, says this of a secrets file, and how the secrets given
directly come behind those of the file.
-/

namespace Redaction

variable {lookup : String → Option String} {entries : List Entry} {e : Entry} {i : Nat}

namespace Entry

/-- The entry says where its value is, written out or in a variable. -/
def HasSource (e : Entry) : Prop := e.value.isSome ∨ e.envVar.isSome

instance : DecidablePred HasSource := fun _ => inferInstanceAs (Decidable (_ ∨ _))

/-- What the entry at a position is called. -/
def nameAt (e : Entry) (position : Nat) : String := e.name.getD s!"secret#{position}"

/-- The secret that the entry at a position is for. -/
inductive Gives (lookup : String → Option String) (e : Entry) (position : Nat) : Secret → Prop
  | written {value : String} : e.value = some value →
      Gives lookup e position ⟨e.nameAt position, Bytes.ofText value⟩
  | fromVariable {envVar value : String} : e.value = none → e.envVar = some envVar →
      lookup envVar = some value → Gives lookup e position ⟨e.nameAt position, Bytes.ofText value⟩

/-- `cause` is the variable that the first entry of all that lack their value would need. -/
def FirstUnset (lookup : String → Option String) (entries : List Entry) (cause : UnsetVariable) :
    Prop :=
  ∃ before e after envVar, entries = before ++ e :: after ∧ (∀ x ∈ before, ¬x.Lacks lookup) ∧
    e.value = none ∧ e.envVar = some envVar ∧ lookup envVar = none ∧
    cause = ⟨e.nameAt before.length, envVar⟩

/-! ## One entry -/

theorem Gives.unique {s s' : Secret} (h : e.Gives lookup i s) (h' : e.Gives lookup i s') :
    s = s' := by
  cases h with
  | written hvalue =>
      cases h' with
      | written hvalue' => rw [Option.some.inj (hvalue.symm.trans hvalue')]
      | fromVariable hnone => cases hvalue.symm.trans hnone
  | fromVariable hnone hvar hlookup =>
      cases h' with
      | written hvalue => cases hnone.symm.trans hvalue
      | fromVariable _ hvar' hlookup' =>
          obtain rfl := Option.some.inj (hvar.symm.trans hvar')
          rw [Option.some.inj (hlookup.symm.trans hlookup')]

/-- The entries with their positions determine the list of secrets. -/
theorem Gives.list_unique {placed : List (Entry × Nat)} {secrets secrets' : List Secret}
    (h : List.Forall₂ (fun p s => p.1.Gives lookup p.2 s) placed secrets)
    (h' : List.Forall₂ (fun p s => p.1.Gives lookup p.2 s) placed secrets') :
    secrets = secrets' := by
  have hunique : Relator.RightUnique fun (p : Entry × Nat) s => p.1.Gives lookup p.2 s :=
    fun _ _ _ => Gives.unique
  exact List.right_unique_forall₂' hunique h h'

theorem resolve_cases (lookup : String → Option String) (i : Nat) (e : Entry) :
    (e.HasSource ∧ ∃ s, e.Gives lookup i s ∧ e.resolve lookup i = .secret s) ∨
      (¬e.HasSource ∧ e.resolve lookup i = .skipped (e.nameAt i)) ∨
      ∃ envVar, e.value = none ∧ e.envVar = some envVar ∧ lookup envVar = none ∧
        e.resolve lookup i = .unset ⟨e.nameAt i, envVar⟩ := by
  obtain ⟨name, value, envVar⟩ := e
  cases value with
  | some value => exact .inl ⟨.inl rfl, _, .written rfl, rfl⟩
  | none =>
      cases envVar with
      | none => exact .inr (.inl ⟨by simp [HasSource], rfl⟩)
      | some envVar =>
          cases hvar : lookup envVar with
          | some value =>
              exact .inl ⟨.inr rfl, _, .fromVariable rfl rfl hvar, by simp [resolve, hvar, nameAt]⟩
          | none => exact .inr (.inr ⟨envVar, rfl, rfl, hvar, by simp [resolve, hvar, nameAt]⟩)

theorem unset?_resolve_eq_some_iff {cause : UnsetVariable} :
    (e.resolve lookup i).unset? = some cause ↔
      ∃ envVar, e.value = none ∧ e.envVar = some envVar ∧ lookup envVar = none ∧
        cause = ⟨e.nameAt i, envVar⟩ := by
  constructor
  · intro h
    rcases resolve_cases lookup i e with ⟨-, s, -, hr⟩ | ⟨-, hr⟩ | ⟨envVar, hvalue, hvar, hnone, hr⟩
    · simp [hr, Resolved.unset?] at h
    · simp [hr, Resolved.unset?] at h
    · rw [hr] at h
      exact ⟨envVar, hvalue, hvar, hnone, (Option.some.inj h).symm⟩
  · rintro ⟨envVar, hvalue, hvar, hnone, rfl⟩
    simp [resolve, hvalue, hvar, hnone, Resolved.unset?, nameAt]

theorem unset?_resolve_eq_none_iff : (e.resolve lookup i).unset? = none ↔ ¬e.Lacks lookup := by
  rw [← isSome_unset?_resolve i, Option.not_isSome_iff_eq_none]

/-- The variable of an entry with a written value is not looked at. -/
theorem resolve_congr {lookup' : String → Option String}
    (h : e.value = none → ∀ envVar ∈ e.envVar, lookup' envVar = lookup envVar) (i : Nat) :
    e.resolve lookup' i = e.resolve lookup i := by
  obtain ⟨name, value, envVar⟩ := e
  cases value with
  | some value => rfl
  | none =>
      cases envVar with
      | none => rfl
      | some envVar => simp only [resolve, h rfl envVar rfl]

/-! ## All entries -/

theorem forall_unset?_eq_none_iff :
    (∀ r ∈ entries.mapIdx (resolve lookup), r.unset? = none) ↔ ∀ e ∈ entries, ¬e.Lacks lookup := by
  constructor
  · intro h e he
    obtain ⟨i, hi, rfl⟩ := List.getElem_of_mem he
    exact unset?_resolve_eq_none_iff.mp (h _ (List.mem_mapIdx.mpr ⟨i, hi, rfl⟩))
  · intro h r hr
    obtain ⟨i, hi, rfl⟩ := List.mem_mapIdx.mp hr
    exact unset?_resolve_eq_none_iff.mpr (h _ (List.getElem_mem hi))

theorem resolveAll_congr {lookup' : String → Option String}
    (h : ∀ e ∈ entries, e.value = none → ∀ envVar ∈ e.envVar, lookup' envVar = lookup envVar) :
    resolveAll lookup' entries = resolveAll lookup entries := by
  have hsame : entries.mapIdx (resolve lookup') = entries.mapIdx (resolve lookup) :=
    List.mapIdx_eq_mapIdx_iff.mpr fun i hi => resolve_congr (h _ (List.getElem_mem hi)) i
  simp only [resolveAll, hsame]

theorem resolveAll_eq_error_iff {cause : UnsetVariable} :
    (resolveAll lookup entries).secrets = .error cause ↔ FirstUnset lookup entries cause := by
  have hfirst : (resolveAll lookup entries).secrets = .error cause ↔
      (entries.mapIdx (resolve lookup)).findSome? Resolved.unset? = some cause := by
    rw [resolveAll]
    cases (entries.mapIdx (resolve lookup)).findSome? Resolved.unset? with
    | none => simp
    | some first => simp
  rw [hfirst, List.findSome?_eq_some_iff]
  constructor
  · rintro ⟨_, _, _, hsplit, hunset, hbefore⟩
    obtain ⟨before, rest, rfl, rfl, hrest⟩ := List.mapIdx_eq_append_iff.mp hsplit
    obtain ⟨e, after, rfl, rfl, -⟩ := List.mapIdx_eq_cons_iff.mp hrest
    rw [Nat.zero_add] at hunset
    obtain ⟨envVar, hvalue, hvar, hnone, rfl⟩ := unset?_resolve_eq_some_iff.mp hunset
    exact ⟨before, e, after, envVar, rfl, forall_unset?_eq_none_iff.mp hbefore, hvalue, hvar,
      hnone, rfl⟩
  · rintro ⟨before, e, after, envVar, rfl, hbefore, hvalue, hvar, hnone, rfl⟩
    refine ⟨_, _, _, List.mapIdx_append.trans (congrArg _ List.mapIdx_cons), ?_,
      forall_unset?_eq_none_iff.mpr hbefore⟩
    exact unset?_resolve_eq_some_iff.mpr ⟨envVar, hvalue, hvar, hnone, by rw [Nat.zero_add]⟩

/-- If no entry lacks its value, the secrets are those of the entries with a source. -/
theorem forall₂_gives {placed : List (Entry × Nat)} (h : ∀ p ∈ placed, ¬p.1.Lacks lookup) :
    List.Forall₂ (fun p s => p.1.Gives lookup p.2 s) (placed.filter (·.1.HasSource))
      ((placed.map fun p => p.1.resolve lookup p.2).filterMap Resolved.secret?) := by
  -- The positions stand beside the entries, so the induction need not know where it began.
  induction placed with
  | nil => exact .nil
  | cons p placed ih =>
      have hrest := ih fun q hq => h q (List.mem_cons_of_mem _ hq)
      rw [List.map_cons]
      rcases resolve_cases lookup p.2 p.1 with
        ⟨hsource, s, hgives, hr⟩ | ⟨hnot, hr⟩ | ⟨envVar, hvalue, hvar, hnone, -⟩
      · rw [List.filter_cons_of_pos (by simpa using hsource), hr]
        exact .cons hgives hrest
      · rw [List.filter_cons_of_neg (by simpa using hnot), hr]
        exact hrest
      · exact absurd ⟨hvalue, envVar, hvar, hnone⟩ (h p List.mem_cons_self)

theorem resolveAll_gives (h : ∀ e ∈ entries, ¬e.Lacks lookup) :
    ∃ secrets, (resolveAll lookup entries).secrets = .ok secrets ∧
      List.Forall₂ (fun p s => p.1.Gives lookup p.2 s) (entries.zipIdx.filter (·.1.HasSource))
        secrets := by
  have hnone : (entries.mapIdx (resolve lookup)).findSome? Resolved.unset? = none :=
    List.findSome?_eq_none_iff.mpr (forall_unset?_eq_none_iff.mpr h)
  refine ⟨_, by rw [resolveAll, hnone], ?_⟩
  rw [List.mapIdx_eq_zipIdx_map]
  exact forall₂_gives fun p hp => h p.1 (List.fst_mem_of_mem_zipIdx hp)

end Entry

namespace Loading

variable {tree : FileTree} {env : Environment} {path : Bytes}

theorem ofText_of_parse {text : String} (h : SecretsFile.parse text = some entries) :
    ofText lookup text =
      { skipped := (Entry.resolveAll lookup entries).skipped
        secrets := (Entry.resolveAll lookup entries).secrets.mapError .unset } := by
  rw [ofText, h]

theorem ofText_eq_error_iff {text : String} (h : SecretsFile.parse text = some entries)
    {cause : LoadError} :
    (ofText lookup text).secrets = .error cause ↔
      ∃ first, (Entry.resolveAll lookup entries).secrets = .error first ∧ cause = .unset first := by
  rw [ofText_of_parse h]
  cases (Entry.resolveAll lookup entries).secrets with
  | error first => simp [Except.mapError, eq_comm]
  | ok secrets => simp [Except.mapError]

theorem ofFile_of_readText {text : String} (h : tree.readText path = .ok text) :
    ofFile tree env path = ofText env.text? text := by
  rw [ofFile, h]

theorem gather_secrets (tree : FileTree) (env : Environment) (path : Bytes) (inline : List String) :
    (gather tree env (some path) inline).secrets =
      (ofFile tree env path).secrets.map (· ++ Secret.inline inline) := rfl

end Loading

/-- What loading a secrets file comes to, if its text holds the entries. It fails just when one of
them lacks its value, and reports the first of these in the order of the file, by its name and its
variable. Otherwise the secrets are those of the entries that have a source, in the order of the
file, where an entry without a name is called after its position among all entries. Nothing but the
variables of entries without a written value is looked at. And in a run the secrets given directly
come behind those of the file, called after their positions, and fail with the file. -/
theorem listed_in_file_order {text : String} (h : SecretsFile.parse text = some entries)
    (lookup : String → Option String) :
    let found := (Loading.ofText lookup text).secrets
    ((∃ cause, found = .error cause) ↔ ∃ e ∈ entries, e.Lacks lookup) ∧
      (∀ cause, found = .error cause ↔
        ∃ first, Entry.FirstUnset lookup entries first ∧ cause = .unset first) ∧
      (∀ name envVar remark, (LoadError.unset ⟨name, envVar⟩).chain remark =
        ["secret " ++ name ++ ": environment variable " ++ envVar ++ " is not set"]) ∧
      ((∀ e ∈ entries, ¬e.Lacks lookup) → ∃ secrets, found = .ok secrets ∧
        List.Forall₂ (fun p s => p.1.Gives lookup p.2 s) (entries.zipIdx.filter (·.1.HasSource))
          secrets) ∧
      (∀ lookup' : String → Option String,
        (∀ e ∈ entries, e.value = none → ∀ envVar ∈ e.envVar, lookup' envVar = lookup envVar) →
        Loading.ofText lookup' text = Loading.ofText lookup text) ∧
      ∀ (tree : FileTree) (env : Environment) (path : Bytes) (inline : List String),
        let file := (Loading.ofFile tree env path).secrets
        let all := (Loading.gather tree env (some path) inline).secrets
        (tree.readText path = .ok text → file = (Loading.ofText env.text? text).secrets) ∧
          (∀ secrets, file = .ok secrets → all =
            .ok (secrets ++ inline.mapIdx fun i value => ⟨s!"arg#{i}", Bytes.ofText value⟩)) ∧
          ∀ cause, file = .error cause → all = .error cause := by
  intro found
  refine ⟨?_, fun cause => ?_, fun name envVar remark => rfl, fun hall => ?_,
    fun lookup' hsame => ?_, ?_⟩
  · rw [Loading.ofText_fails_iff, h]
    simp
  · simp only [found, Loading.ofText_eq_error_iff h, Entry.resolveAll_eq_error_iff]
  · obtain ⟨secrets, hok, hgives⟩ := Entry.resolveAll_gives hall
    refine ⟨secrets, ?_, hgives⟩
    show (Loading.ofText lookup text).secrets = _
    rw [Loading.ofText_of_parse h, hok]
    rfl
  · rw [Loading.ofText_of_parse h, Loading.ofText_of_parse h, Entry.resolveAll_congr hsame]
  · intro tree env path inline file all
    have hgather : all = file.map (· ++ Secret.inline inline) :=
      Loading.gather_secrets tree env path inline
    refine ⟨fun hread => ?_, fun secrets hok => ?_, fun cause herr => ?_⟩
    · exact congrArg Loading.secrets (Loading.ofFile_of_readText hread)
    · rw [hgather, hok]
      rfl
    · rw [hgather, herr]
      rfl

/-- An entry with a value and a variable, one with neither, and one without a name behind it. -/
theorem listed_in_file_order_skipped :
    let text := "secrets = [\x7b name = 'db', value = 'ab', env = 'A' \x7d, " ++
      "\x7b name = 'x' \x7d, \x7b env = 'B' \x7d]"
    let tree := FileTree.ofList [] [(Bytes.ofText "s", .file (Bytes.ofText text))]
    let env : Environment := [Bytes.ofText "B=cd"]
    let loading := Loading.gather tree env (some (Bytes.ofText "s")) ["ef"]
    loading.secrets = .ok [⟨"db", Bytes.ofText "ab"⟩, ⟨"secret#2", Bytes.ofText "cd"⟩,
        ⟨"arg#0", Bytes.ofText "ef"⟩] ∧
      ∀ lookup : String → Option String, lookup "B" = none →
        (Loading.ofText lookup text).secrets = .error (.unset ⟨"secret#2", "B"⟩) := by
  intro text tree env loading
  have hparse : SecretsFile.parse text =
      some [⟨some "db", some "ab", some "A"⟩, ⟨some "x", none, none⟩, ⟨none, none, some "B"⟩] := by
    decide +kernel
  have hread : tree.readText (Bytes.ofText "s") = .ok text := by decide +kernel
  have hvar : env.text? "B" = some "cd" := by decide +kernel
  constructor
  · obtain ⟨-, -, -, hlisted, -, hrun⟩ := listed_in_file_order hparse env.text?
    obtain ⟨secrets, hok, hgives⟩ := hlisted (by simp [Entry.Lacks, hvar])
    obtain ⟨hfile, hall, -⟩ := hrun tree env (Bytes.ofText "s") ["ef"]
    obtain rfl : secrets = [⟨"db", Bytes.ofText "ab"⟩, ⟨"secret#2", Bytes.ofText "cd"⟩] :=
      Entry.Gives.list_unique hgives
        (.cons (.written rfl) (.cons (.fromVariable rfl rfl hvar) .nil))
    exact hall _ ((hfile hread).trans hok)
  · intro lookup hnone
    obtain ⟨-, hfirst, -⟩ := listed_in_file_order hparse lookup
    refine (hfirst _).mpr ⟨_, ⟨[_, _], _, [], "B", rfl, ?_, rfl, rfl, hnone, rfl⟩, rfl⟩
    simp [Entry.Lacks]

end Redaction
