/-
Trees that grow. A file is written where nothing stands, and the locations above it become
directories if they were nothing. What stood in the tree stands there still, so a path that led
to a file leads to it still (`Grows.file?`). A path without double dots leads to no file that
it did not lead to before, unless it spells the location of a new one (`Grows.hasFile`): this
needs the tree to be connected, since a new directory opens what lay below it unreachably.
-/
import Mathlib.Data.List.Induction
import SystemMap.Proofs.Files.Origins

namespace SystemMap

/-- The location that a path spells from a directory. -/
def Path.spelled (directory p : Path) : Location := (directory.join p).parts

/-- Paths of one anchor that spell one location are the same. -/
theorem Path.eq_of_spelled {directory p q : Path} (hanchor : p.anchor = q.anchor)
    (h : directory.spelled p = directory.spelled q) : p = q := by
  have habsolute : p.isAbsolute = q.isAbsolute := by
    unfold isAbsolute
    rw [hanchor]
  have hparts : p.parts = q.parts := by
    unfold spelled join at h
    rw [habsolute] at h
    split at h
    · exact h
    · exact List.append_cancel_left h
  cases p
  cases q
  cases hanchor
  cases hparts
  rfl

namespace FileTree

variable {t t' : FileTree} {directory : Path}

-- ============================================================ reachable files

/-- A path leads to a file. -/
def HasFile (t : FileTree) (directory p : Path) : Prop :=
  ∃ bytes, t.file? directory p = .ok (some bytes)

/-- A path and the names on its way are no longer than they can be. -/
def Fits (directory p : Path) : Prop :=
  (∀ name ∈ directory.spelled p, isTooLong name = false) ∧ isTooLongPath p = false

/-- What stands anywhere stands in a directory. -/
def Connected (t : FileTree) : Prop :=
  ∀ l name e, t.at? (l ++ [name]) = some e → t.at? l = some .directory

/-- At the root stands a directory. -/
theorem at?_nil (t : FileTree) : t.at? [] = some .directory := rfl

theorem connected_empty : empty.Connected := by
  intro l name e h
  simp [at?, empty] at h

/-- In a connected tree, directories are above whatever stands. -/
theorem Connected.directory_above (ht : t.Connected) {l more : Location} {e : Entry}
    (hmore : more ≠ []) (h : t.at? (l ++ more) = some e) : t.at? l = some .directory := by
  induction more using List.reverseRecOn generalizing e with
  | nil => exact absurd rfl hmore
  | append_singleton more name ih =>
      rw [← List.append_assoc] at h
      have habove := ht _ _ _ h
      cases more with
      | nil => rwa [List.append_nil] at habove
      | cons name' more => exact ih (List.cons_ne_nil _ _) habove

/-- In a connected tree, names that spell the location of a file lead to it. -/
theorem Connected.walk_of_at? (ht : t.Connected) {here : Location} {names : List Name}
    {bytes : List UInt8} (hhere : t.at? here = some .directory) (habove : Name.above ∉ names)
    (hfit : ∀ name ∈ names, isTooLong name = false)
    (h : t.at? (here ++ names) = some (.file bytes)) :
    t.walk here names = .ok (here ++ names, .file bytes) := by
  induction names generalizing here with
  | nil =>
      rw [List.append_nil, hhere] at h
      cases h
  | cons name rest ih =>
      have hname : name ≠ Name.above := fun hn => habove (hn ▸ List.mem_cons_self)
      have hrest : Name.above ∉ rest := fun hn => habove (List.mem_cons_of_mem _ hn)
      have hshort : isTooLong name = false := hfit name List.mem_cons_self
      have hsplit : here ++ name :: rest = here ++ [name] ++ rest := by simp
      rw [hsplit] at h ⊢
      unfold walk
      rw [if_neg hname, if_neg (by simp [hshort])]
      by_cases hlast : rest = []
      · subst hlast
        rw [List.append_nil] at h
        rw [h, List.append_nil]
        rfl
      · have hdirectory := ht.directory_above hlast h
        rw [hdirectory]
        exact ih hdirectory hrest (fun n hn => hfit n (List.mem_cons_of_mem _ hn)) h

/-- A path that leads to a file finds it. -/
theorem file?_of_follow {p : Path} {l : Location} {bytes : List UInt8}
    (h : t.follow directory p = .ok (l, .file bytes)) :
    t.file? directory p = .ok (some bytes) := by
  unfold file?
  rw [h]

/-- Whether a path is followed at all does not depend on the tree. -/
theorem follow_of_walk {p : Path} {r r' : Location × Entry} (h : t.follow directory p = .ok r)
    (hw : t'.walk [] (directory.join p).parts = .ok r') : t'.follow directory p = .ok r' := by
  unfold follow at h ⊢
  split at h
  · cases h
  · next hbad =>
    rw [if_neg hbad]
    split at h
    · cases h
    · next hlong => rw [if_neg hlong, hw]

/-- Names that are not too long fail to lead anywhere only because something is not there. -/
theorem isAbsence_of_walk {here : Location} {names : List Name} {fault : AccessFault}
    (hfit : ∀ name ∈ names, isTooLong name = false) (h : t.walk here names = .error fault) :
    isAbsence fault = true := by
  induction names generalizing here with
  | nil => cases h
  | cons name rest ih =>
      have hrest : ∀ n ∈ rest, isTooLong n = false := fun n hn => hfit n (List.mem_cons_of_mem _ hn)
      unfold walk at h
      split at h
      · exact ih hrest h
      · rw [if_neg (by simp [hfit name List.mem_cons_self])] at h
        split at h
        · cases h
          rfl
        · exact ih hrest h
        · split at h
          · cases h
          · cases h
            rfl

/-- A path that fits leads to a file, or can be seen not to. -/
theorem file?_of_fits {p : Path} (hfit : Fits directory p) (h : ¬ t.HasFile directory p) :
    t.file? directory p = .ok none := by
  cases hfollow : t.follow directory p with
  | ok reached =>
      obtain ⟨l, found⟩ := reached
      cases found with
      | file bytes => exact absurd ⟨bytes, file?_of_follow hfollow⟩ h
      | directory =>
          unfold file?
          rw [hfollow]
  | error fault =>
      have habsence : isAbsence fault = true := by
        unfold follow at hfollow
        split at hfollow
        · cases hfollow
          rfl
        · rw [if_neg (by simp [hfit.2])] at hfollow
          exact isAbsence_of_walk hfit.1 hfollow
      unfold file?
      rw [hfollow]
      exact if_pos habsence

-- ============================================================== a file written

/-- Nothing stands at a location, and no file above it. -/
structure Free (t : FileTree) (l : Location) : Prop where
  vacant : t.at? l = none
  above : ∀ l', l' <+: l → t.at? l' = none ∨ t.at? l' = some .directory

/-- A change is seen where it was made. -/
theorem at?_put (t : FileTree) (l : Location) (e : Entry) {l' : Location} (hl' : l' ≠ []) :
    (t.put l e).at? l' = if l' = l then some e else t.at? l' := by
  have hsome : l'.isEmpty = false := by simpa using hl'
  unfold at? put
  rw [hsome, List.find?_cons]
  by_cases h : l' = l
  · simp [h]
  · have hne : ¬ l = l' := fun hl => h hl.symm
    have hkept : (t.entries.filter (·.1 ≠ l)).find? (·.1 = l') = t.entries.find? (·.1 = l') := by
      rw [List.find?_filter]
      congr 1
      funext e
      by_cases he : e.1 = l' <;> simp [he, h]
    simp only [hne, decide_false, h, if_false, Bool.false_eq_true]
    rw [hkept]

/-- One more name adds one more place on the way. -/
theorem prefix_take_succ_iff {l l' : Location} {n : Nat} :
    l' <+: l.take (n + 1) ↔ l' = l.take (n + 1) ∨ l' <+: l.take n := by
  constructor
  · intro h
    obtain ⟨hl, hlength⟩ := List.prefix_take_iff.1 h
    rcases Nat.lt_or_ge n l'.length with hlong | hshort
    · refine .inl (h.eq_of_length ?_)
      have := hl.length_le
      rw [List.length_take]
      omega
    · exact .inr (List.prefix_take_iff.2 ⟨hl, hshort⟩)
  · rintro (rfl | h)
    · exact List.prefix_rfl
    · exact h.trans (List.take_prefix_take_left (Nat.le_succ n))

/-- Making a directory makes directories of all prefixes of its location. -/
theorem at?_makeDirectory (t : FileTree) (l l' : Location) :
    (t.makeDirectory l).at? l' = if l' <+: l then some .directory else t.at? l' := by
  by_cases hroot : l' = []
  · simp [hroot, at?_nil]
  -- along the prefixes that have been made so far
  have hmade : ∀ n, ((List.range n).foldl (fun t i => t.put (l.take (i + 1)) .directory) t).at? l'
      = if l' <+: l.take n then some .directory else t.at? l' := by
    intro n
    induction n with
    | zero => simp [hroot]
    | succ n ih =>
        rw [List.range_succ, List.foldl_append, List.foldl_cons, List.foldl_nil,
          at?_put _ _ _ hroot, ih]
        by_cases hlast : l' = l.take (n + 1)
        · rw [if_pos hlast, if_pos (prefix_take_succ_iff.2 (.inl hlast))]
        · simp only [prefix_take_succ_iff, hlast, false_or, if_false]
  unfold makeDirectory
  rw [hmade, List.take_length]

/-- Writing changes what stands at the location and above it, and nothing else. -/
theorem at?_write (t : FileTree) {l : Location} (hl : l ≠ []) (bytes : List UInt8)
    (l' : Location) :
    (t.write l bytes).at? l' =
      if l' = l then some (.file bytes) else if l' <+: l then some .directory else t.at? l' := by
  by_cases hroot : l' = []
  · simp [hroot, at?_nil, hl.symm]
  unfold write
  rw [at?_put _ _ _ hroot, at?_makeDirectory]
  by_cases hself : l' = l
  · rw [if_pos hself, if_pos hself]
  have habove : l' <+: l.dropLast ↔ l' <+: l := by
    refine ⟨fun h => h.trans (List.dropLast_prefix l), fun h => ?_⟩
    have hshorter : l'.length < l.length :=
      Nat.lt_of_le_of_ne h.length_le fun hlength => hself (h.eq_of_length hlength)
    rw [List.dropLast_eq_take]
    exact List.prefix_take_iff.2 ⟨h, by omega⟩
  simp only [habove]

namespace Free

variable {l : Location}

/-- The root is not free. -/
theorem ne_nil (h : t.Free l) : l ≠ [] := by
  rintro rfl
  cases h.vacant

/-- What stood in the tree stands there after a file is written at a free location. -/
theorem at?_write_of_some (h : t.Free l) (bytes : List UInt8) {l' : Location} {e : Entry}
    (he : t.at? l' = some e) : (t.write l bytes).at? l' = some e := by
  rw [at?_write t h.ne_nil]
  split
  · next hself =>
    rw [hself, h.vacant] at he
    cases he
  · split
    · next hprefix =>
      rcases h.above l' hprefix with hnone | hdirectory
      · rw [hnone] at he
        cases he
      · rw [← hdirectory, he]
    · exact he

/-- No file is new but the one that is written. -/
theorem file_of_at?_write (h : t.Free l) {bytes bytes' : List UInt8} {l' : Location}
    (he : (t.write l bytes).at? l' = some (.file bytes')) :
    t.at? l' = some (.file bytes') ∨ l' = l := by
  rw [at?_write t h.ne_nil] at he
  split at he
  · next hself => exact .inr hself
  · split at he
    · cases he
    · exact .inl he

/-- A file at a free location gets the directories on its way, so the tree stays connected. -/
theorem connected_write (h : t.Free l) (ht : t.Connected) (bytes : List UInt8) :
    (t.write l bytes).Connected := by
  intro l' name e he
  rw [at?_write t h.ne_nil] at he
  have hbelow : l' ++ [name] <+: l → (t.write l bytes).at? l' = some .directory := by
    intro hprefix
    have hshorter : l' <+: l := (List.prefix_append l' [name]).trans hprefix
    have hne : l' ≠ l := by
      rintro rfl
      have := hprefix.length_le
      rw [List.length_append, List.length_singleton] at this
      omega
    rw [at?_write t h.ne_nil, if_neg hne, if_pos hshorter]
  split at he
  · next hself => exact hbelow (hself ▸ List.prefix_rfl)
  · split at he
    · next hprefix => exact hbelow hprefix
    · exact h.at?_write_of_some bytes (ht _ _ _ he)

end Free

-- ================================================================ many files

/-- A tree becomes another by files that are written, one after the other, at free locations
of some kind. -/
inductive Grows (new : Location → Prop) (t : FileTree) : FileTree → Prop
  | refl : Grows new t t
  | write {t' l} (h : Grows new t t') (hnew : new l) (hfree : t'.Free l) (bytes : List UInt8) :
      Grows new t (t'.write l bytes)

namespace Grows

variable {new : Location → Prop}

/-- A tree that grows stays connected. -/
theorem connected (h : Grows new t t') (ht : t.Connected) : t'.Connected := by
  induction h with
  | refl => exact ht
  | write h hnew hfree bytes ih => exact hfree.connected_write ih bytes

/-- What stands in a tree stays there when it grows. -/
theorem at?_of_some (h : Grows new t t') {l : Location} {e : Entry} (he : t.at? l = some e) :
    t'.at? l = some e := by
  induction h with
  | refl => exact he
  | write h hnew hfree bytes ih => exact hfree.at?_write_of_some bytes ih

/-- A file of the grown tree is an old one or stands at a new location. -/
theorem file_of_at? (h : Grows new t t') {l : Location} {bytes : List UInt8}
    (he : t'.at? l = some (.file bytes)) : t.at? l = some (.file bytes) ∨ new l := by
  induction h with
  | refl => exact .inl he
  | write h hnew hfree bytes' ih =>
      rcases hfree.file_of_at?_write he with hold | rfl
      · exact ih hold
      · exact .inr hnew

/-- A path that leads somewhere leads there in the grown tree. -/
theorem walk (h : Grows new t t') {here : Location} {names : List Name} {r : Location × Entry}
    (hw : t.walk here names = .ok r) : t'.walk here names = .ok r := by
  induction names generalizing here with
  | nil => exact hw
  | cons name rest ih =>
      unfold FileTree.walk at hw ⊢
      split at hw
      · next habove =>
        rw [if_pos habove]
        exact ih hw
      · next habove =>
        rw [if_neg habove]
        split at hw
        · cases hw
        · next hlong =>
          rw [if_neg hlong]
          split at hw
          · cases hw
          · next hat =>
            rw [h.at?_of_some hat]
            exact ih hw
          · next hat =>
            rw [h.at?_of_some hat]
            exact hw

/-- A path that led to a file leads to it still. -/
theorem file? (h : Grows new t t') {p : Path} {bytes : List UInt8}
    (hp : t.file? directory p = .ok (some bytes)) : t'.file? directory p = .ok (some bytes) := by
  obtain ⟨l, hfollow⟩ := exists_follow_of_file? hp
  exact file?_of_follow (follow_of_walk hfollow (h.walk (walk_of_follow hfollow)))

/-- A path without double dots that leads to a file led to it before, or it spells a new
location. -/
theorem hasFile (h : Grows new t t') (ht : t.Connected) {p : Path} (hfit : Fits directory p)
    (habove : Name.above ∉ directory.spelled p) (hp : t'.HasFile directory p) :
    t.HasFile directory p ∨ new (directory.spelled p) := by
  obtain ⟨bytes, hbytes⟩ := hp
  obtain ⟨l, hfollow⟩ := exists_follow_of_file? hbytes
  have hspelled : l = directory.spelled p := location_of_walk habove (walk_of_follow hfollow)
  have hat := at?_of_follow hfollow
  rw [hspelled] at hat
  refine (h.file_of_at? hat).imp_left fun hold => ⟨bytes, ?_⟩
  have hwalk := ht.walk_of_at? (at?_nil t) habove hfit.1 hold
  exact file?_of_follow (follow_of_walk hfollow hwalk)

end Grows

end FileTree

end SystemMap
