/-
Which files are looked for beside which. A search is to begin beside the including file, but
what it is told of that file is the path that a directive names it by. It takes the file to lie
where this path leads from the root. So it does if the path is absolute, as that of the text
read first is, or if the file was found in the root; then a file beside the including one is
found before any other (`calls_look_beside`). A file that was found beside its own includer, or
in an include directory, can lie elsewhere, and its neighbours are passed over for others or
not found at all (`neighbour_passed_over`).
-/
import SystemMap.Files.Search
import SystemMap.Proofs.Reading.Answers

namespace SystemMap

-- ========================================================== where a file was found

namespace Search

variable (s : Search) (t : FileTree) (directory : Path)

/-- A call is answered by the text of the file at `place`, the first candidate that is a
file. -/
def Finds (c : Call) (place : Path) (text : String) : Prop :=
  ∃ before after bytes, s.candidates c.path c.includer = before ++ place :: after ∧
    (∀ q ∈ before, t.file? directory q = .ok none) ∧
    t.file? directory place = .ok (some bytes) ∧ textOfBytes bytes = .ok text

/-- The texts of a reading with their paths and places: the text read first lies where its
path `main` says, the others where the calls for them were answered. -/
inductive Holds (main text : String) (calls : List Call) : String → Path → String → Prop
  | first : Holds main text calls main (Path.ofString main) text
  | included {c place body} (hc : c ∈ calls) (hf : s.Finds t directory c place body) :
      Holds main text calls c.path place body

/-- A call is answered by the file that its path names beside `place`, if there is one. -/
def LooksBeside (place : Path) (c : Call) : Prop :=
  (Path.ofString c.path).isAbsolute = false → ∀ bytes,
    t.file? directory (place.parent.join (Path.ofString c.path)) = .ok (some bytes) →
      s.find t directory c.path c.includer = (textOfBytes bytes).mapError .undecodable

variable {s t directory}

/-- An absolute path has no other place than its own. -/
theorem Holds.place_of_absolute {main text p body : String} {calls : List Call} {place : Path}
    (h : s.Holds t directory main text calls p place body)
    (hp : (Path.ofString p).isAbsolute = true) : place = s.root.join (Path.ofString p) := by
  have hjoin : s.root.join (Path.ofString p) = Path.ofString p := if_pos hp
  rw [hjoin]
  cases h with
  | first => rfl
  | @included c place _ hc hf =>
      obtain ⟨before, after, -, hcandidates, -, -⟩ := hf
      have hone : s.candidates c.path c.includer = [Path.ofString c.path] := if_pos hp
      refine List.mem_singleton.1 ?_
      rw [← hone, hcandidates]
      exact List.mem_append_right _ List.mem_cons_self

/-- The bytes found are those of the first candidate that is a file. -/
theorem exists_place_of_firstFile {candidates : List Path} {bytes : List UInt8}
    (h : firstFile t directory candidates = .ok (some bytes)) :
    ∃ before place after, candidates = before ++ place :: after ∧
      (∀ q ∈ before, t.file? directory q = .ok none) ∧
      t.file? directory place = .ok (some bytes) := by
  induction candidates with
  | nil => cases h
  | cons p later ih =>
      unfold firstFile at h
      split at h
      · cases h
      · next found hfile =>
        cases h
        exact ⟨[], p, later, rfl, nofun, hfile⟩
      · next hfile =>
        obtain ⟨before, place, after, rfl, hbefore, hplace⟩ := ih h
        refine ⟨p :: before, place, after, rfl, fun q hq => ?_, hplace⟩
        rcases List.mem_cons.1 hq with rfl | hq
        · exact hfile
        · exact hbefore q hq

/-- A search that yields a text has found its file at some place. -/
theorem exists_finds_of_find {c : Call} {text : String}
    (h : s.find t directory c.path c.includer = .ok text) :
    ∃ place, s.Finds t directory c place text := by
  unfold find at h
  dsimp only at h
  split at h
  · cases h
  · cases h
  · next bytes hbytes =>
    split at h
    · cases h
    · next htext =>
      cases h
      obtain ⟨before, place, after, hcandidates, hbefore, hplace⟩ :=
        exists_place_of_firstFile hbytes
      exact ⟨place, before, after, bytes, hcandidates, hbefore, hplace, htext⟩

/-- The answer is the text of the file that is found first. -/
theorem find_eq_of_firstFile {path : String} {includer : Option String} {bytes : List UInt8}
    (h : firstFile t directory (s.candidates path includer) = .ok (some bytes)) :
    s.find t directory path includer = (textOfBytes bytes).mapError .undecodable := by
  unfold find
  dsimp only
  rw [h]
  dsimp only
  cases textOfBytes bytes <;> rfl

/-- If the including file lies where its path leads from the root, the search begins beside
it. -/
theorem looksBeside_of_place {c : Call} {p : String} {place : Path} (hp : c.includer = some p)
    (hplace : place = s.root.join (Path.ofString p)) : s.LooksBeside t directory place c := by
  intro hrelative bytes hbytes
  have hhead : ∃ later, s.candidates c.path c.includer
      = place.parent.join (Path.ofString c.path) :: later := by
    unfold candidates bases
    rw [hp, hplace]
    dsimp only
    rw [if_neg (by simp [hrelative]), List.cons_append, List.nil_append, List.map_cons,
      List.eraseDups_cons]
    exact ⟨_, rfl⟩
  obtain ⟨later, hcandidates⟩ := hhead
  have hfirst : firstFile t directory (s.candidates c.path c.includer) = .ok (some bytes) := by
    rw [hcandidates, firstFile, hbytes]
  exact find_eq_of_firstFile hfirst

/-- Every call of a reading is made for a directive of a text that has a place. -/
theorem exists_holds_of_call {main text : String} {c : Call}
    (hc : c ∈ (read (some (s.library t directory)) (some main) text).calls) :
    ∃ p place body, c.includer = some p ∧ s.Holds t directory main text
      (read (some (s.library t directory)) (some main) text).calls p place body ∧
      c.path ∈ (Outline.ofText body).includePaths := by
  have hasked := (visits_firstVisit (s.library t directory) (some main) text).asked c hc
  rcases hasked with ⟨hown, i, hi, hpath⟩ | ⟨a, ha, hother, body, hbody, hnamed⟩
  · exact ⟨main, _, text, hown, .first, hpath ▸ path_mem_includePaths hi⟩
  · obtain ⟨place, hplace⟩ := exists_finds_of_find hbody
    exact ⟨a.path, place, body, hother, .included ha hplace, hnamed⟩

/-- Every call of a reading that starts at an absolute path is made for a directive of a text
that has a place. It is answered by the file beside that place if there is such a file,
provided that the including text is the one read first, has an absolute path, or lies where
its path leads from the root. -/
theorem calls_look_beside {main text : String}
    (hmain : (Path.ofString main).isAbsolute = true) {c : Call}
    (hc : c ∈ (read (some (s.library t directory)) (some main) text).calls) :
    (∃ p place body, c.includer = some p ∧
        s.Holds t directory main text
          (read (some (s.library t directory)) (some main) text).calls p place body ∧
        c.path ∈ (Outline.ofText body).includePaths) ∧
      ∀ p place body, c.includer = some p →
        s.Holds t directory main text
          (read (some (s.library t directory)) (some main) text).calls p place body →
        (p = main ∨ (Path.ofString p).isAbsolute = true ∨
          place = s.root.join (Path.ofString p)) →
        s.LooksBeside t directory place c := by
  refine ⟨exists_holds_of_call hc, fun p place body hp hholds hseen => ?_⟩
  -- in each case the place is the one that the search takes it to be
  refine looksBeside_of_place hp ?_
  rcases hseen with rfl | habsolute | hplace
  · exact hholds.place_of_absolute hmain
  · exact hholds.place_of_absolute habsolute
  · exact hplace

-- ==================================================================== a chain

/-- A chain of files, each of which names the next one as seen from itself. The last name is
also that of a file in the root. -/
def chain : FileTree :=
  [("/m", "include \"x/a\""), ("/x/a", "include \"y/b\""), ("/x/y/b", "include \"c\""),
    ("/x/y/c", "#nodeclass Near::"), ("/c", "#nodeclass Far::")].foldl
    (fun t f => t.write (Path.ofString f.1).parts (Text.Utf8.encode f.2)) .empty

/-- A search in the root directory and nowhere else. -/
def atRoot : Search := ⟨⟨.root, []⟩, []⟩

/-- The calls of the reading that starts with the chain. -/
theorem chain_calls :
    (read (some (atRoot.library chain ⟨.root, []⟩)) (some "/m") "include \"x/a\"").calls
      = [⟨"x/a", some "/m"⟩, ⟨"y/b", some "x/a"⟩, ⟨"c", some "y/b"⟩] := by
  have hm : Outline.ofText "include \"x/a\""
      = ⟨[.declared (.directive ⟨"x/a", some ⟨1, 1⟩⟩)], none⟩ := by decide +kernel
  have ha : Outline.ofText "include \"y/b\""
      = ⟨[.declared (.directive ⟨"y/b", some ⟨1, 1⟩⟩)], none⟩ := by decide +kernel
  have hb : Outline.ofText "include \"c\""
      = ⟨[.declared (.directive ⟨"c", some ⟨1, 1⟩⟩)], none⟩ := by decide +kernel
  have hc : Outline.ofText "#nodeclass Far::"
      = ⟨[.marker .nodeClasses, .declared (.nodeClass ⟨"Far", [], some ⟨1, 12⟩⟩)], none⟩ := by
    decide +kernel
  have hfinda : atRoot.find chain ⟨.root, []⟩ "x/a" (some "/m") = .ok "include \"y/b\"" := by
    decide +kernel
  have hfindb : atRoot.find chain ⟨.root, []⟩ "y/b" (some "x/a") = .ok "include \"c\"" := by
    decide +kernel
  have hfindc : atRoot.find chain ⟨.root, []⟩ "c" (some "y/b") = .ok "#nodeclass Far::" := by
    decide +kernel
  have hlookup : (atRoot.library chain ⟨.root, []⟩).lookup = atRoot.find chain ⟨.root, []⟩ := rfl
  have hpaths : (atRoot.library chain ⟨.root, []⟩).paths = ["c", "y/b", "x/a"] := by
    decide +kernel
  simp [read, Outline.reading, hm, ha, hb, hc, unopenedAtStart, Outline.includePaths,
    Outline.declarations, hpaths, hlookup, hfinda, hfindb, hfindc, follow, without, Visit.join,
    Visit.gatherNode, Visit.stop]

/-- The directive of the file that was found in the root is answered from beside it. -/
theorem chain_looks_beside :
    (Path.ofString "/m").isAbsolute = true ∧
      atRoot.LooksBeside chain ⟨.root, []⟩ (Path.ofString "/x/a") ⟨"y/b", some "x/a"⟩ := by
  have hmain : (Path.ofString "/m").isAbsolute = true := by decide +kernel
  have hfinds : atRoot.Finds chain ⟨.root, []⟩ ⟨"x/a", some "/m"⟩ (Path.ofString "/x/a")
      "include \"y/b\"" :=
    ⟨[], [], Text.Utf8.encode "include \"y/b\"", by decide +kernel, nofun, by decide +kernel,
      by decide +kernel⟩
  have hcall : ⟨"y/b", some "x/a"⟩ ∈
      (read (some (atRoot.library chain ⟨.root, []⟩)) (some "/m") "include \"x/a\"").calls := by
    rw [chain_calls]
    decide
  have hbefore : ⟨"x/a", some "/m"⟩ ∈
      (read (some (atRoot.library chain ⟨.root, []⟩)) (some "/m") "include \"x/a\"").calls := by
    rw [chain_calls]
    decide
  refine ⟨hmain, (calls_look_beside hmain hcall).2 "x/a" _ _ rfl (.included hbefore hfinds) ?_⟩
  exact .inr (.inr (by decide +kernel))

/-- The file found beside that one has a neighbour that is passed over for the file in the
root: its path, which leads elsewhere from the root, is all that the search sees of it. -/
theorem neighbour_passed_over :
    ∃ c ∈ (read (some (atRoot.library chain ⟨.root, []⟩)) (some "/m") "include \"x/a\"").calls,
      ∃ p place body, c.includer = some p ∧
        atRoot.Holds chain ⟨.root, []⟩ "/m" "include \"x/a\""
          (read (some (atRoot.library chain ⟨.root, []⟩)) (some "/m") "include \"x/a\"").calls
          p place body ∧
        c.path ∈ (Outline.ofText body).includePaths ∧
        ¬ atRoot.LooksBeside chain ⟨.root, []⟩ place c := by
  have hfinds : atRoot.Finds chain ⟨.root, []⟩ ⟨"y/b", some "x/a"⟩ (Path.ofString "/x/y/b")
      "include \"c\"" :=
    ⟨[], [Path.ofString "/y/b"], Text.Utf8.encode "include \"c\"", by decide +kernel, nofun,
      by decide +kernel, by decide +kernel⟩
  have hnear : chain.file? ⟨.root, []⟩ ((Path.ofString "/x/y/b").parent.join (Path.ofString "c"))
      = .ok (some (Text.Utf8.encode "#nodeclass Near::")) := by decide +kernel
  have hfar : atRoot.find chain ⟨.root, []⟩ "c" (some "y/b")
      ≠ (textOfBytes (Text.Utf8.encode "#nodeclass Near::")).mapError .undecodable := by
    decide +kernel
  rw [chain_calls]
  refine ⟨⟨"c", some "y/b"⟩, by decide, "y/b", _, _, rfl, .included (by decide) hfinds,
    by decide +kernel, fun h => ?_⟩
  exact hfar (h (by decide +kernel) _ hnear)

end Search

end SystemMap
