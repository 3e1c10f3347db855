/-
Ladders: texts of which each includes the next one and has nothing else. The walk through a
ladder does not come back from a rung before it has been at the last one, so all rungs are open
inside one another. A stack with room for fewer texts does not hold them (`readWithin_ladder`),
however much room it has.
-/
import SystemMap.Proofs.Names
import SystemMap.Proofs.Printing.RoundTrip
import SystemMap.Proofs.Reading.Reach
import SystemMap.Proofs.Reading.Stack

namespace SystemMap

-- ================================================================== rungs

/-- The path of a rung. -/
def rung (k : Nat) : String := String.ofList (List.replicate k 'x')

/-- A text that includes a path and has nothing else. -/
def includeLine (path : String) : String := "include \"" ++ path ++ "\"\n"

/-- Texts under the paths of so many rungs, each of which includes the next one. -/
def ladder (n : Nat) : List (String × String) :=
  (List.range n).map fun k => (rung k, includeLine (rung (k + 1)))

/-- Rungs are numbered, so no two have one name. -/
theorem rung_injective : Function.Injective rung := by
  intro j k h
  have hlength := congrArg (fun s : String => s.toList.length) h
  simpa [rung] using hlength

/-- A path without quotes is all that the text of its directive yields. -/
theorem outline_includeLine {path : String} (h : '"' ∉ path.toList) :
    ∃ position, Outline.ofText (includeLine path)
      = ⟨[.declared (.directive ⟨path, position⟩)], none⟩ := by
  let line : List Segment := [.declared (.directive ⟨path, none⟩)]
  have hwritable : ∀ s ∈ line, s.Writable := fun s hs => List.mem_singleton.1 hs ▸ h
  have horderly : Orderly none line := ⟨trivial, hwritable _ List.mem_cons_self, trivial⟩
  obtain ⟨found, houtline, hfound⟩ := outline_of_layout horderly (spaced_lines hwritable []) rfl
  have htext : String.ofList (linesInk line).text = includeLine path := by
    rw [← String.toList_inj, String.toList_ofList]
    simp [includeLine, line, linesInk, Segment.ink, Declaration.ink, Include.ink, Layout.text,
      Ink.includeWord, Ink.space, Ink.quoted, Ink.newline, Ink.text, Lexeme.text]
  rw [htext] at houtline
  obtain ⟨s, rfl⟩ : ∃ s, found = [s] :=
    List.length_eq_one_iff.1 (by simpa [line] using congrArg List.length hfound)
  have hs : s.unplaced = .declared (.directive ⟨path, none⟩) := (List.cons.inj hfound).1
  cases s with
  | declared d =>
      cases d with
      | directive i =>
          cases hs
          exact ⟨i.position, houtline⟩
      | _ => cases hs
  | _ => cases hs

/-- A name of a rung can stand in quotation marks. -/
theorem quote_not_mem_rung (k : Nat) : '"' ∉ (rung k).toList := by
  unfold rung
  rw [String.toList_ofList]
  intro hmem
  exact absurd (List.eq_of_mem_replicate hmem) (by decide)

/-- Each rung but the last includes the next. -/
theorem lookup_ladder {k n : Nat} (hk : k < n) (includer : Option String) :
    (Library.ofTexts (ladder n)).lookup (rung k) includer = .ok (includeLine (rung (k + 1))) := by
  have hpaths : ((ladder n).map (·.1)).Nodup := by
    have hkeys : (ladder n).map (·.1) = (List.range n).map rung := List.map_map
    rw [hkeys]
    exact (List.nodup_map_iff rung_injective).2 List.nodup_range
  have hfind : (ladder n).find? (·.1 = rung k) = some (rung k, includeLine (rung (k + 1))) :=
    (find?_eq_some_iff hpaths).2
      ⟨List.mem_map.2 ⟨k, List.mem_range.2 hk, rfl⟩, rfl⟩
  unfold Library.ofTexts
  simp only [hfind]

-- ================================================================== climbing

/-- From any rung that has more rungs above it than there is room for, the walk runs out of room.
The induction is on the room, and one rung is climbed with each text. -/
theorem noRoom_on_ladder {n room : Nat} {fault : Option TextFault} : ∀ {k : Nat}
    {includer position} {unopened : List String}, k + room < n →
    (∀ j, k ≤ j → j < n → rung j ∈ unopened) →
    (visitWithin room (Library.ofTexts (ladder n)) includer unopened
      [.declared (.directive ⟨rung k, position⟩)] fault).fault = some (.library .noRoom) := by
  induction room generalizing fault with
  | zero =>
      intro k includer position unopened hk hopen
      rw [visitWithin_noRoom (hopen k (Nat.le_refl k) hk) (lookup_ladder hk includer)]
      rfl
  | succ room ih =>
      intro k includer position unopened hk hopen
      have hbelow : k < n := by omega
      have hinner : (innerVisit room (Library.ofTexts (ladder n)) (rung k) unopened
          (includeLine (rung (k + 1)))).fault = some (.library .noRoom) := by
        obtain ⟨position, houtline⟩ := outline_includeLine (quote_not_mem_rung (k + 1))
        unfold innerVisit
        rw [houtline]
        refine ih (by omega) fun j hj hjn => mem_without.2 ⟨hopen j (by omega) hjn, ?_⟩
        exact rung_injective.ne (by omega)
      rw [visitWithin_broken (hopen k (Nat.le_refl k) hbelow) (lookup_ladder hbelow includer)
        hinner]
      exact hinner

/-- A ladder with more rungs than there is room for is not read. -/
theorem readWithin_ladder {room n : Nat} (h : room < n) :
    (readWithin room (some (Library.ofTexts (ladder n))) none (includeLine (rung 0))).result
      = .error (.library .noRoom) := by
  obtain ⟨position, houtline⟩ := outline_includeLine (quote_not_mem_rung 0)
  have hopen : ∀ j, 0 ≤ j → j < n → rung j ∈
      unopenedAtStart (some (Library.ofTexts (ladder n))) none
        (Outline.ofText (includeLine (rung 0))) := by
    intro j _ hj
    refine mem_unopenedAtStart.2 ⟨?_, nofun⟩
    cases j with
    | zero =>
        left
        rw [houtline]
        exact path_mem_includePaths (i := ⟨rung 0, position⟩) List.mem_cons_self
    | succ j =>
        right
        obtain ⟨position, hnext⟩ := outline_includeLine (quote_not_mem_rung (j + 1))
        refine (Library.ofTexts (ladder n)).closed
          (lookup_ladder (Nat.lt_of_succ_lt hj) none) _ ?_
        rw [hnext]
        exact path_mem_includePaths (i := ⟨rung (j + 1), position⟩) List.mem_cons_self
  rw [houtline] at hopen
  have hfault : (followWithin room (some (Library.ofTexts (ladder n))) none _
      [.declared (.directive ⟨rung 0, position⟩)] none).1.fault = some (.library .noRoom) :=
    noRoom_on_ladder ((Nat.zero_add room).symm ▸ h) hopen
  unfold readWithin Outline.visited
  dsimp only
  rw [houtline, hfault]

end SystemMap
