import Redaction.FileTree

/-!
# What a path leads to when files are written

`FileTree.held?` is what stands in the file that a path leads to, and `FileTree.content` what can be
read there. A file can be written where one is or where there is nothing (`FileTree.CanHold`); that
gives the place its new content and leaves all others as they are (`node?_write`). It makes no
folder and no link and takes none away, so a path that leads to a place still leads there afterwards
(`locate_write`), whatever links and further names it goes by.

Creating a file is such a write, with no content (`create_eq_ok_iff`). So a file holds what it held,
unless the path that is written to leads to its very place.
-/

namespace Redaction

/-! ## Steps that may fail -/

section

variable {α β ε : Type} {x : Except ε α} {k : α → Except ε β}

theorem bind_eq_ok_iff {b : β} : x >>= k = .ok b ↔ ∃ a, x = .ok a ∧ k a = .ok b := by
  cases x with
  | error e => simp [bind, Except.bind]
  | ok a => simp [bind, Except.bind]

theorem bind_eq_error_iff {e : ε} :
    x >>= k = .error e ↔ x = .error e ∨ ∃ a, x = .ok a ∧ k a = .error e := by
  cases x with
  | error e => simp [bind, Except.bind]
  | ok a => simp [bind, Except.bind]

end

namespace FileTree

/-- What can be read in the file that a path leads to. -/
def content (t : FileTree) (path : Bytes) : Except FileError Bytes := do t.read (← t.find path)

/-- What stands in the file that a path leads to, whether it can be read or not. -/
def held? (t : FileTree) (path : Bytes) : Option Bytes :=
  match t.locate path with
  | .error _ => none
  | .ok place =>
    match t.node? place with
    | some (.file bs) => some bs
    | _ => none

/-- There is a file, or nothing. -/
def CanHold (t : FileTree) (place : Place) : Prop :=
  t.node? place = none ∨ ∃ bs, t.node? place = some (.file bs)

variable {t t' : FileTree} {place q : Place} {bs : Bytes} {path : Bytes}

/-! ## Places -/

theorem CanHold.ne_nil (h : t.CanHold place) : place ≠ [] := by
  rintro rfl
  rcases h with hnone | ⟨_, hfile⟩
  · cases hnone
  · cases hfile

theorem lookup_write (t : FileTree) (place : Place) (bs : Bytes) (q : Place) :
    (t.write place bs).nodes.lookup q =
      if q = place then some (.file bs) else t.nodes.lookup q := by
  have hreplace (nodes : List (Place × Node)) :
      (nodes.map fun entry => if entry.1 = place then (place, .file bs) else entry).lookup q =
        if q = place then (nodes.lookup q).map fun _ => .file bs else nodes.lookup q := by
    induction nodes with
    | nil => simp
    | cons entry nodes ih =>
        obtain ⟨p, node⟩ := entry
        rw [List.map_cons]
        by_cases hq : q = p
        · subst hq
          by_cases hp : q = place
          · simp [hp]
          · simp [hp]
        · have hskip : (q == p) = false := beq_false_of_ne hq
          by_cases hp : p = place
          · subst hp
            simp [List.lookup_cons, hskip, ih, hq]
          · simp [List.lookup_cons, hskip, ih, hp]
  rw [write]
  split
  · rename_i hthere
    rw [hreplace]
    by_cases hq : q = place
    · subst hq
      obtain ⟨node, hnode⟩ := Option.isSome_iff_exists.mp hthere
      simp [hnode]
    · simp [hq]
  · rename_i hmissing
    have hnone : t.nodes.lookup place = none := Option.not_isSome_iff_eq_none.mp hmissing
    rw [List.lookup_append]
    by_cases hq : q = place
    · subst hq
      simp [hnone]
    · simp [List.lookup_cons, beq_false_of_ne hq, hq]

theorem node?_write (h : place ≠ []) (bs : Bytes) (q : Place) :
    (t.write place bs).node? q = if q = place then some (.file bs) else t.node? q := by
  simp only [node?, lookup_write]
  by_cases hq : q = place
  · subst hq
    simp [h]
  · simp [hq]

theorem here_write (t : FileTree) (place : Place) (bs : Bytes) :
    (t.write place bs).here = t.here := by
  unfold write
  split <;> rfl

theorem home_write (t : FileTree) (place : Place) (bs : Bytes) (q : Place) :
    (t.write place bs).home q = t.home q := by
  unfold write
  split <;> rfl

theorem allow_write (t : FileTree) (place : Place) (bs : Bytes) (q : Place) (access : Access) :
    (t.write place bs).allow q access = t.allow q access := by
  unfold write
  split <;> rfl

namespace CanHold

variable (h : t.CanHold place) (bs : Bytes)

include h

/-- What is no file stays what it is. -/
theorem node?_write_of_not_file {node : Node} (hnode : t.node? q = some node)
    (hfile : ∀ content, node ≠ .file content) : (t.write place bs).node? q = some node := by
  rw [node?_write h.ne_nil, if_neg, hnode]
  rintro rfl
  rcases h with hnone | ⟨content, hcontent⟩
  · cases hnone.symm.trans hnode
  · exact hfile content (Option.some.inj (hnode.symm.trans hcontent))

theorem node?_write_ne_link (hlink : ∀ path, t.node? q ≠ some (.link path)) (path : Bytes) :
    (t.write place bs).node? q ≠ some (.link path) := by
  rw [node?_write h.ne_nil]
  split
  · simp
  · exact hlink path

theorem write : (t.write place bs).CanHold place := by
  rw [CanHold, node?_write h.ne_nil, if_pos rfl]
  exact .inr ⟨bs, rfl⟩

end CanHold

/-! ## Paths -/

theorem walk_write (h : t.CanHold place) (bs : Bytes) {here : Place} {names : List Bytes}
    {reached : Place × Option (List Bytes)} (hq : t.walk here names = .ok reached) :
    (t.write place bs).walk here names = .ok reached := by
  have hfolder {p : Place} (hp : t.node? p = some .folder) :
      (t.write place bs).node? p = some .folder :=
    h.node?_write_of_not_file bs hp (by simp)
  -- The way goes on as it did: only a file is other than it was, and no way leads through one.
  fun_induction walk t here names with
  | case1 here => rw [walk, hq]
  | case2 => cases hq
  | case3 here rest hnode ih =>
      rw [walk, hfolder hnode]
      exact ih hq
  | case4 => cases hq
  | case5 here rest hnode hpass _ ih =>
      rw [walk, hfolder hnode, allow_write, hpass]
      simpa using ih hq
  | case6 here rest hnode hpass _ _ ih =>
      rw [walk, hfolder hnode, allow_write, hpass]
      simpa using ih hq
  | case7 => cases hq
  | case8 here name rest hnode hname hpass hdot hdots hlong next path hlink =>
      have hlink' : (t.write place bs).node? next = some (.link path) :=
        h.node?_write_of_not_file bs hlink (by simp)
      rw [walk, hfolder hnode, allow_write, hpass]
      simp only [home_write, hname, hdot, hdots, hlong, if_false]
      rw [show t.home (here ++ [name]) = next from rfl, hlink']
      exact hq
  | case9 here name rest hnode hname hpass hdot hdots hlong next hlink ih =>
      rw [walk, hfolder hnode, allow_write, hpass]
      simp only [home_write, hname, hdot, hdots, hlong, if_false]
      rw [show t.home (here ++ [name]) = next from rfl]
      split
      · exact absurd ‹_› (h.node?_write_ne_link bs hlink _)
      · exact ih hq
  | case10 => cases hq

theorem follow_write (h : t.CanHold place) (bs : Bytes) {links : Nat} {here : Place}
    {names : List Bytes} (hq : t.follow links here names = .ok q) :
    (t.write place bs).follow links here names = .ok q := by
  fun_induction follow t links here names with
  | case1 => cases hq
  | case2 links here names reached hwalk =>
      rw [follow, walk_write h bs hwalk]
      exact hq
  | case3 => cases hq
  | case4 here names reached rest hwalk links ih =>
      rw [follow, walk_write h bs hwalk]
      exact ih hq

theorem locate_eq_ok_iff :
    t.locate path = .ok q ↔ checkPath path = .ok () ∧
      t.follow linkLimit (base t.here path) (names path) = .ok q := by
  rw [locate, bind_eq_ok_iff]
  exact ⟨fun ⟨_, hcheck, hq⟩ => ⟨hcheck, hq⟩, fun ⟨hcheck, hq⟩ => ⟨(), hcheck, hq⟩⟩

theorem locate_write (h : t.CanHold place) (bs : Bytes) (hq : t.locate path = .ok q) :
    (t.write place bs).locate path = .ok q := by
  obtain ⟨hcheck, hfollow⟩ := locate_eq_ok_iff.mp hq
  refine locate_eq_ok_iff.mpr ⟨hcheck, ?_⟩
  rw [here_write]
  exact follow_write h bs hfollow

theorem find_eq_ok_iff :
    t.find path = .ok q ↔ t.locate path = .ok q ∧ t.node? q ≠ none ∧
      (∀ path, t.node? q ≠ some (.link path)) ∧ t.allow q .find = .ok () := by
  have hpermit (p : Place) : (do t.allow p .find; return p : Except FileError Place) = .ok q ↔
      p = q ∧ t.allow q .find = .ok () := by
    rw [bind_eq_ok_iff]
    constructor
    · rintro ⟨_, hallow, hp⟩
      obtain rfl := Except.ok.inj hp
      exact ⟨rfl, hallow⟩
    · rintro ⟨rfl, hallow⟩
      exact ⟨(), hallow, rfl⟩
  rw [find, bind_eq_ok_iff]
  constructor
  · rintro ⟨place, hlocate, hq⟩
    split at hq
    · cases hq
    · cases hq
    · rename_i node hlink hnode
      obtain ⟨rfl, hallow⟩ := (hpermit place).mp hq
      refine ⟨hlocate, by simp [hnode], fun path hpath => ?_, hallow⟩
      exact hlink path (Option.some.inj (hnode.symm.trans hpath))
  · rintro ⟨hlocate, hthere, hlink, hallow⟩
    refine ⟨q, hlocate, ?_⟩
    split
    · exact absurd ‹_› hthere
    · exact absurd ‹_› (hlink _)
    · exact (hpermit q).mpr ⟨rfl, hallow⟩

/-- There is a path, and it leads to the place. -/
def LeadsTo (t : FileTree) (path : Option Bytes) (q : Place) : Prop :=
  ∃ p, path = some p ∧ t.locate p = .ok q

theorem not_leadsTo_none : ¬t.LeadsTo none q := by
  rintro ⟨p, hp, -⟩
  cases hp

theorem LeadsTo.unique {path : Option Bytes} (hplace : t.LeadsTo path place)
    (hq : t.LeadsTo path q) : q = place := by
  obtain ⟨p, rfl, hplace⟩ := hplace
  obtain ⟨p', hp', hq⟩ := hq
  obtain rfl := Option.some.inj hp'
  exact Except.ok.inj (hq.symm.trans hplace)

/-! ## Content -/

/-- Where there is something, reading does not say that there is nothing. -/
theorem read_ne_notFound (h : t.node? q ≠ none) : t.read q ≠ .error .notFound := by
  intro hread
  rcases bind_eq_error_iff.mp hread with hallow | ⟨_, -, hnode⟩
  · rw [allow] at hallow
    split at hallow
    · cases hallow
    · cases hallow
  · split at hnode
    · exact h ‹_›
    · cases hnode
    · cases hnode
    · cases hnode

theorem held?_write (h : t.CanHold place) (hq : t.locate path = .ok place) (bs : Bytes) :
    (t.write place bs).held? path = some bs := by
  simp only [held?, locate_write h bs hq, node?_write h.ne_nil, if_true]

theorem checkTarget_eq_ok (h : t.checkTarget place = .ok ()) : t.CanHold place := by
  rw [checkTarget] at h
  split at h
  · exact .inl ‹_›
  · cases h
  · cases h
  · exact .inr ⟨_, ‹_›⟩

theorem create_eq_ok_iff :
    t.create path = .ok (place, t') ↔
      path.getLast? ≠ some slash ∧ t.locate path = .ok place ∧ t.checkTarget place = .ok () ∧
        t' = t.write place [] := by
  rw [create, bind_eq_ok_iff]
  constructor
  · rintro ⟨-, -, h⟩
    by_cases hslash : path.getLast? = some slash
    · rw [if_pos hslash, bind_eq_ok_iff] at h
      obtain ⟨-, -, h⟩ := h
      cases h
    · rw [if_neg hslash, bind_eq_ok_iff] at h
      obtain ⟨p, hlocate, h⟩ := h
      obtain ⟨_, hcheck, h⟩ := bind_eq_ok_iff.mp h
      obtain ⟨rfl, rfl⟩ := Prod.mk.inj (Except.ok.inj h)
      exact ⟨hslash, hlocate, hcheck, rfl⟩
  · rintro ⟨hslash, hlocate, hcheck, rfl⟩
    refine ⟨(), (locate_eq_ok_iff.mp hlocate).1, ?_⟩
    rw [if_neg hslash, bind_eq_ok_iff]
    exact ⟨place, hlocate, bind_eq_ok_iff.mpr ⟨(), hcheck, rfl⟩⟩

end FileTree

end Redaction
