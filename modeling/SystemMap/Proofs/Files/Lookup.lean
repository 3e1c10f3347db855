/-
The order in which a path is looked up. Its candidates are its places in the order in which
they are searched, each kept at its first occurrence; the first that is a file is the answer,
and a path is not found if none is. Directories that are added at the end of a search add
candidates at the end, and files that are added at later candidates change no answer: both
leave the candidates up to the answer as they were (`looks_up_in_order`).

Two things are outside. A candidate that is too long to be looked at ends the search with a
fault of its own, so that the rest are not tried. And paths are compared as they are written:
two of them with different anchors can lead to one place. A file that is added there for the
later one is found for the earlier one (`looked_up_out_of_order`).
-/
import SystemMap.Proofs.Files.Growth
import SystemMap.Proofs.Names

namespace SystemMap

/-- A list holds the paths of another, each once and in the order of first occurrences. -/
structure Path.HoldsFirsts (kept all : List Path) : Prop where
  nodup : kept.Nodup
  mem_iff : ∀ p, p ∈ kept ↔ p ∈ all
  inOrder : kept.Pairwise fun p q => all.idxOf p < all.idxOf q

namespace Search

variable {s : Search} {t t' : FileTree} {directory : Path} {path : String}
  {includer : Option String}

/-- Where a path can lie: at its own place if it is absolute, else beside the including file,
whose own path is seen from the root, in the root and in the directories. -/
def places (s : Search) (path : String) (includer : Option String) : List Path :=
  let p := Path.ofString path
  if p.isAbsolute then [p]
  else
    let beside := includer.toList.map fun f => (s.root.join (Path.ofString f)).parent
    (beside ++ s.root :: s.directories).map (·.join p)

/-- A search in more directories, after its own. -/
def extend (s : Search) (more : List Path) : Search := ⟨s.root, s.directories ++ more⟩

/-- The first of some paths that leads to a file leads to these bytes. -/
def FirstFile (t : FileTree) (directory : Path) (candidates : List Path)
    (bytes : List UInt8) : Prop :=
  ∃ before c after, candidates = before ++ c :: after ∧
    (∀ q ∈ before, ¬ t.HasFile directory q) ∧ t.file? directory c = .ok (some bytes)

/-- The candidates up to the first that is a file fit. -/
def TriedFit (s : Search) (t : FileTree) (directory : Path) (path : String)
    (includer : Option String) : Prop :=
  ∀ before c after, s.candidates path includer = before ++ c :: after →
    (∀ q ∈ before, ¬ t.HasFile directory q) → FileTree.Fits directory c

/-- A location that one of the later paths spells, and none of the earlier ones that start
from another anchor. -/
def SpelledLater (directory : Path) (before after : List Path) (l : Location) : Prop :=
  ∃ q ∈ after, directory.spelled q = l ∧
    ∀ b ∈ before, b.anchor ≠ q.anchor → directory.spelled b ≠ l

-- ================================================================== candidates

/-- The candidates are the places to look at, without repetitions. -/
theorem candidates_eq_eraseDups (s : Search) (path : String) (includer : Option String) :
    s.candidates path includer = (s.places path includer).eraseDups := by
  unfold candidates places
  dsimp only
  split
  · rfl
  · unfold bases
    cases includer <;> rfl

/-- With more directories there are more places to look at, behind those there were. -/
theorem places_extend (s : Search) (path : String) (includer : Option String)
    (more : List Path) :
    ∃ later, (s.extend more).places path includer = s.places path includer ++ later := by
  unfold places
  dsimp only
  split
  · exact ⟨[], rfl⟩
  · refine ⟨more.map (·.join (Path.ofString path)), ?_⟩
    rw [← List.map_append, List.append_assoc, List.cons_append]
    rfl

/-- The candidates are the first occurrences of the places, in order. -/
theorem candidates_holdsFirsts (s : Search) (path : String) (includer : Option String) :
    Path.HoldsFirsts (s.candidates path includer) (s.places path includer) := by
  rw [candidates_eq_eraseDups]
  exact ⟨nodup_eraseDups _, fun _ => List.mem_eraseDups, pairwise_idxOf_eraseDups _⟩

/-- More directories add candidates behind those there were. -/
theorem candidates_prefix_extend (s : Search) (path : String) (includer : Option String)
    (more : List Path) :
    s.candidates path includer <+: (s.extend more).candidates path includer := by
  obtain ⟨later, hlater⟩ := s.places_extend path includer more
  rw [candidates_eq_eraseDups, candidates_eq_eraseDups, hlater, List.eraseDups_append]
  exact List.prefix_append _ _

-- ============================================================== the first file

/-- Candidates that are no files are passed over. -/
theorem firstFile_append {before : List Path} (after : List Path)
    (h : ∀ q ∈ before, t.file? directory q = .ok none) :
    firstFile t directory (before ++ after) = firstFile t directory after := by
  induction before with
  | nil => rfl
  | cons q before ih =>
      rw [List.cons_append, firstFile, h q List.mem_cons_self]
      exact ih fun a ha => h a (List.mem_cons_of_mem _ ha)

/-- The first file is found behind candidates that are no files. -/
theorem firstFile_at {before after : List Path} {c : Path} {bytes : List UInt8}
    (hbefore : ∀ q ∈ before, t.file? directory q = .ok none)
    (hc : t.file? directory c = .ok (some bytes)) :
    firstFile t directory (before ++ c :: after) = .ok (some bytes) := by
  rw [firstFile_append _ hbefore, firstFile, hc]

/-- Where looking comes to nothing, there is no file. -/
theorem not_hasFile_of_file? {q : Path} (h : t.file? directory q = .ok none) :
    ¬ t.HasFile directory q := by
  rintro ⟨bytes, hbytes⟩
  rw [h] at hbytes
  cases hbytes

/-- No path is a file if the search for the first finds none. -/
theorem no_file_of_firstFile {candidates : List Path}
    (h : firstFile t directory candidates = .ok none) :
    ∀ q ∈ candidates, ¬ t.HasFile directory q := by
  induction candidates with
  | nil => exact nofun
  | cons p later ih =>
      unfold firstFile at h
      split at h
      · cases h
      · cases h
      · next hfile =>
        intro q hq
        rcases List.mem_cons.1 hq with rfl | hq
        · exact not_hasFile_of_file? hfile
        · exact ih h q hq

/-- The search for a file fails only at a candidate that cannot be looked at. -/
theorem inaccessible_of_firstFile {candidates : List Path} {fault : SearchFault}
    (h : firstFile t directory candidates = .error fault) :
    ∃ q e, fault = .inaccessible q e := by
  induction candidates with
  | nil => cases h
  | cons p later ih =>
      unfold firstFile at h
      split at h
      · cases h
        exact ⟨_, _, rfl⟩
      · cases h
      · exact ih h

/-- A search ends at a first candidate that cannot be looked at. -/
theorem find_of_inaccessible {q : Path} {later : List Path} {fault : AccessFault}
    (hcandidates : s.candidates path includer = q :: later)
    (h : t.file? directory q = .error fault) :
    s.find t directory path includer = .error (.inaccessible q fault) := by
  unfold find
  dsimp only
  rw [hcandidates, firstFile, h]

/-- A text that is found is that of the first file among the candidates. -/
theorem exists_firstFile_of_find {text : String}
    (h : s.find t directory path includer = .ok text) :
    ∃ bytes, FirstFile t directory (s.candidates path includer) bytes ∧
      textOfBytes bytes = .ok text := by
  obtain ⟨place, before, after, bytes, hcandidates, hbefore, hplace, htext⟩ :=
    exists_finds_of_find (c := ⟨path, includer⟩) h
  exact ⟨bytes, ⟨before, place, after, hcandidates,
    fun q hq => not_hasFile_of_file? (hbefore q hq), hplace⟩, htext⟩

/-- Where nothing is said to be found, all candidates were tried and none is a file. -/
theorem no_file_of_notFound {path' : String} {tried : List Path}
    (h : s.find t directory path includer = .error (.notFound path' tried)) :
    path' = path ∧ tried = s.candidates path includer ∧
      ∀ q ∈ s.candidates path includer, ¬ t.HasFile directory q := by
  unfold find at h
  dsimp only at h
  split at h
  · next hfault =>
    cases h
    obtain ⟨q, e, hq⟩ := inaccessible_of_firstFile hfault
    cases hq
  · next hnone =>
    cases h
    exact ⟨rfl, rfl, no_file_of_firstFile hnone⟩
  · split at h <;> cases h

-- ============================================================== candidates that fit

namespace TriedFit

/-- If what is tried fits, so do all candidates in front of the first file. -/
theorem fits (hfit : s.TriedFit t directory path includer) {before after : List Path}
    (hcandidates : s.candidates path includer = before ++ after)
    (hbefore : ∀ q ∈ before, ¬ t.HasFile directory q) :
    ∀ q ∈ before, FileTree.Fits directory q := by
  intro q hq
  obtain ⟨front, back, rfl⟩ := List.append_of_mem hq
  rw [List.append_assoc, List.cons_append] at hcandidates
  exact hfit _ _ _ hcandidates fun a ha => hbefore a (List.mem_append_left _ ha)

/-- Candidates that are tried and are no files are seen not to be. -/
theorem file?_eq_none (hfit : s.TriedFit t directory path includer)
    {before after : List Path} (hcandidates : s.candidates path includer = before ++ after)
    (hbefore : ∀ q ∈ before, ¬ t.HasFile directory q) :
    ∀ q ∈ before, t.file? directory q = .ok none := fun q hq =>
  FileTree.file?_of_fits (hfit.fits hcandidates hbefore q hq) (hbefore q hq)

/-- The text of the first file is found, if all that is tried before it fits. -/
theorem find_of_firstFile (hfit : s.TriedFit t directory path includer)
    {bytes : List UInt8} {text : String}
    (h : FirstFile t directory (s.candidates path includer) bytes)
    (htext : textOfBytes bytes = .ok text) : s.find t directory path includer = .ok text := by
  obtain ⟨before, c, after, hcandidates, hbefore, hc⟩ := h
  have hfirst : firstFile t directory (s.candidates path includer) = .ok (some bytes) := by
    rw [hcandidates]
    exact firstFile_at (hfit.file?_eq_none hcandidates hbefore) hc
  rw [find_eq_of_firstFile hfirst, htext]
  rfl

/-- If no candidate is a file, all are tried, and nothing is found. -/
theorem notFound (hfit : s.TriedFit t directory path includer)
    (h : ∀ q ∈ s.candidates path includer, ¬ t.HasFile directory q) :
    s.find t directory path includer = .error (.notFound path (s.candidates path includer)) := by
  have hnone : firstFile t directory (s.candidates path includer) = .ok none := by
    have happend := firstFile_append [] (hfit.file?_eq_none (List.append_nil _).symm h)
    rw [List.append_nil] at happend
    exact happend
  unfold find
  dsimp only
  rw [hnone]

end TriedFit

-- ============================================================ what changes nothing

/-- More directories change no answer. -/
theorem find_extend {text : String} (more : List Path)
    (h : s.find t directory path includer = .ok text) :
    (s.extend more).find t directory path includer = .ok text := by
  obtain ⟨place, before, after, bytes, hcandidates, hbefore, hplace, htext⟩ :=
    exists_finds_of_find (c := ⟨path, includer⟩) h
  obtain ⟨later, hlater⟩ := s.candidates_prefix_extend path includer more
  have hfirst : firstFile t directory ((s.extend more).candidates path includer)
      = .ok (some bytes) := by
    rw [← hlater, hcandidates, List.append_assoc, List.cons_append]
    exact firstFile_at hbefore hplace
  rw [find_eq_of_firstFile hfirst, htext]
  rfl

/-- An earlier candidate spells no location of a file that is added for a later one. -/
theorem not_spelledLater {before after : List Path} {c b : Path}
    (hnodup : (before ++ c :: after).Nodup) (hb : b ∈ before) :
    ¬ SpelledLater directory before after (directory.spelled b) := by
  rintro ⟨q, hq, hspelled, hapart⟩
  have hanchor : b.anchor = q.anchor := by
    by_contra hne
    exact hapart b hb hne rfl
  have hsame : b = q := Path.eq_of_spelled hanchor hspelled.symm
  exact (List.nodup_append.1 hnodup).2.2 b hb q (List.mem_cons_of_mem _ hq) hsame

/-- Files that are added at later candidates change no answer. -/
theorem find_of_grows {before after : List Path} {c : Path}
    (hcandidates : s.candidates path includer = before ++ c :: after)
    (hbefore : ∀ q ∈ before, ¬ t.HasFile directory q) (hc : t.HasFile directory c)
    (hfit : s.TriedFit t directory path includer) (ht : t.Connected)
    (habove : ∀ q ∈ s.candidates path includer, Name.above ∉ directory.spelled q)
    (hgrows : t.Grows (SpelledLater directory before after) t') :
    s.find t' directory path includer = s.find t directory path includer := by
  obtain ⟨bytes, hbytes⟩ := hc
  have hfits := hfit.fits hcandidates hbefore
  have hnodup : (before ++ c :: after).Nodup :=
    hcandidates ▸ (s.candidates_holdsFirsts path includer).nodup
  have hstill : ∀ q ∈ before, t'.file? directory q = .ok none := by
    intro q hq
    have hdots : Name.above ∉ directory.spelled q := by
      refine habove q ?_
      rw [hcandidates]
      exact List.mem_append_left _ hq
    refine FileTree.file?_of_fits (hfits q hq) fun hfile => ?_
    rcases hgrows.hasFile ht (hfits q hq) hdots hfile with hold | hnew
    · exact hbefore q hq hold
    · exact not_spelledLater hnodup hq hnew
  have hold : firstFile t directory (s.candidates path includer) = .ok (some bytes) := by
    rw [hcandidates]
    exact firstFile_at (hfit.file?_eq_none hcandidates hbefore) hbytes
  have hnew : firstFile t' directory (s.candidates path includer) = .ok (some bytes) := by
    rw [hcandidates]
    exact firstFile_at hstill (hgrows.file? hbytes)
  rw [find_eq_of_firstFile hold, find_eq_of_firstFile hnew]

/-- The candidates of a path are its places without repetition. What is found is the text of
the first that is a file; a path that is not found is reported with all of them, none of which
is a file; and if those that are tried fit, the first file is found, or else the path is not
found. More directories add candidates at the end and change no answer. In a connected tree
and without double dots, neither do files that are added at later candidates, unless an
earlier candidate with another anchor spells their location. -/
theorem looks_up_in_order (s : Search) (t : FileTree) (directory : Path) (path : String)
    (includer : Option String) :
    Path.HoldsFirsts (s.candidates path includer) (s.places path includer) ∧
      (∀ text, s.find t directory path includer = .ok text →
        ∃ bytes, FirstFile t directory (s.candidates path includer) bytes ∧
          textOfBytes bytes = .ok text) ∧
      (∀ path' tried, s.find t directory path includer = .error (.notFound path' tried) →
        path' = path ∧ tried = s.candidates path includer ∧
          ∀ q ∈ s.candidates path includer, ¬ t.HasFile directory q) ∧
      (s.TriedFit t directory path includer →
        (∀ bytes text, FirstFile t directory (s.candidates path includer) bytes →
          textOfBytes bytes = .ok text → s.find t directory path includer = .ok text) ∧
        ((∀ q ∈ s.candidates path includer, ¬ t.HasFile directory q) →
          s.find t directory path includer
            = .error (.notFound path (s.candidates path includer)))) ∧
      (∀ more, s.candidates path includer <+: (s.extend more).candidates path includer ∧
        ∀ text, s.find t directory path includer = .ok text →
          (s.extend more).find t directory path includer = .ok text) ∧
      ∀ before c after t', s.candidates path includer = before ++ c :: after →
        (∀ q ∈ before, ¬ t.HasFile directory q) → t.HasFile directory c →
        s.TriedFit t directory path includer → t.Connected →
        (∀ q ∈ s.candidates path includer, Name.above ∉ directory.spelled q) →
        t.Grows (SpelledLater directory before after) t' →
        s.find t' directory path includer = s.find t directory path includer := by
  refine ⟨s.candidates_holdsFirsts path includer, ?_, ?_, ?_, ?_, ?_⟩
  · exact fun text h => exists_firstFile_of_find h
  · exact fun path' tried h => no_file_of_notFound h
  · exact fun hfit => ⟨fun bytes text hfirst htext => hfit.find_of_firstFile hfirst htext,
      hfit.notFound⟩
  · exact fun more => ⟨s.candidates_prefix_extend path includer more,
      fun text h => find_extend more h⟩
  · intro before c after t' hcandidates hbefore hc hfit ht habove hgrows
    exact find_of_grows hcandidates hbefore hc hfit ht habove hgrows

-- ==================================================== one place, two candidates

/-- The directory that the paths of the example are seen from. -/
def workplace : Path := Path.ofString "/w"

/-- A search in the directory. -/
def inPlace : Search := ⟨⟨.none, []⟩, []⟩

/-- A search in the directory, in one below it, in the directory by its absolute path, and in
another one below it. -/
def inLayers : Search := inPlace.extend (["lib", "/w", "more"].map Path.ofString)

/-- A tree in which only the second candidate is a file. -/
def stocked : FileTree :=
  FileTree.empty.write (Path.ofString "/w/lib/a").parts (Text.Utf8.encode "old")

/-- That tree with one more file. -/
def stockedAt (place : String) : FileTree :=
  stocked.write (Path.ofString place).parts (Text.Utf8.encode "new")

/-- The working directory, its part `lib`, then that same part under its full path, then another.
-/
theorem inLayers_candidates : inLayers.candidates "a" none
    = [Path.ofString "a"] ++ Path.ofString "lib/a" ::
      [Path.ofString "/w/a", Path.ofString "more/a"] := by
  decide +kernel

/-- Each entry of the tree stands in a directory. -/
theorem stocked_connected : stocked.Connected := by
  refine FileTree.Free.connected_write ⟨rfl, fun l' h => ?_⟩ FileTree.connected_empty _
  cases l' with
  | nil => exact .inr rfl
  | cons name l' => exact .inl rfl

/-- A place is free if nothing stands at it and no file in its way. -/
theorem stocked_free {place : String}
    (h : stocked.at? (Path.ofString place).parts = none)
    (hinits : ∀ l ∈ (Path.ofString place).parts.inits,
      stocked.at? l = none ∨ stocked.at? l = some .directory) :
    stocked.Free (Path.ofString place).parts :=
  ⟨h, fun l hl => hinits l ((List.mem_inits _ _).2 hl)⟩

/-- The first candidate is no file. -/
theorem first_not_stocked : ∀ q ∈ [Path.ofString "a"], ¬ stocked.HasFile workplace q := by
  intro q hq
  rw [List.mem_singleton.1 hq]
  exact not_hasFile_of_file? (by decide +kernel)

/-- The second candidate is the file that is found. -/
theorem second_stocked : stocked.HasFile workplace (Path.ofString "lib/a") :=
  ⟨Text.Utf8.encode "old", by decide +kernel⟩

/-- No candidate leads back up. -/
theorem inLayers_without_dots :
    ∀ q ∈ inLayers.candidates "a" none, Name.above ∉ workplace.spelled q := by
  rw [inLayers_candidates]
  decide +kernel

/-- All candidates fit, and a file that is added at the last of them changes nothing. -/
theorem inLayers_looked_up :
    inLayers.TriedFit stocked workplace "a" none ∧
      stocked.Grows (SpelledLater workplace [Path.ofString "a"]
        [Path.ofString "/w/a", Path.ofString "more/a"]) (stockedAt "/w/more/a") ∧
      inLayers.find (stockedAt "/w/more/a") workplace "a" none = .ok "old" := by
  have hfits : ∀ q ∈ inLayers.candidates "a" none, FileTree.Fits workplace q := by
    rw [inLayers_candidates]
    unfold FileTree.Fits
    decide +kernel
  have htried : inLayers.TriedFit stocked workplace "a" none := by
    intro before c after hsplit _
    exact hfits c (hsplit ▸ List.mem_append_right _ List.mem_cons_self)
  have hlater : SpelledLater workplace [Path.ofString "a"]
      [Path.ofString "/w/a", Path.ofString "more/a"] (Path.ofString "/w/more/a").parts :=
    ⟨Path.ofString "more/a", by decide +kernel, by decide +kernel, by decide +kernel⟩
  have hgrows : stocked.Grows (SpelledLater workplace [Path.ofString "a"]
      [Path.ofString "/w/a", Path.ofString "more/a"]) (stockedAt "/w/more/a") :=
    .write .refl hlater (stocked_free (by decide +kernel) (by decide +kernel)) _
  have hfound : inLayers.find stocked workplace "a" none = .ok "old" := by decide +kernel
  have hsame := (looks_up_in_order inLayers stocked workplace "a" none).2.2.2.2.2
    _ _ _ _ inLayers_candidates first_not_stocked second_stocked htried stocked_connected
    inLayers_without_dots hgrows
  exact ⟨htried, hgrows, hsame.trans hfound⟩

/-- A name that no file can have. -/
def longName : String := String.ofList (List.replicate 256 'x')

/-- The long name is a path of one part. -/
theorem ofString_longName :
    Path.ofString longName = ⟨.none, [List.replicate 256 (.char 'x')]⟩ := by
  unfold Path.ofString Text.Points.ofString longName
  rw [String.toList_ofList]
  decide +kernel

/-- A path that is too long is not reported as not found, although no candidate is a file. And
a file that is added at a later candidate, in the directory by its absolute path, is found for
the earlier one that leads to the same place. -/
theorem looked_up_out_of_order :
    ((∀ q ∈ inPlace.candidates longName none, ¬ stocked.HasFile workplace q) ∧
        inPlace.find stocked workplace longName none
          = .error (.inaccessible (Path.ofString longName) .nameTooLong)) ∧
      inLayers.candidates "a" none = [Path.ofString "a"] ++ Path.ofString "lib/a" ::
        [Path.ofString "/w/a", Path.ofString "more/a"] ∧
      (∀ q ∈ [Path.ofString "a"], ¬ stocked.HasFile workplace q) ∧
      stocked.HasFile workplace (Path.ofString "lib/a") ∧ stocked.Connected ∧
      (∀ q ∈ inLayers.candidates "a" none, Name.above ∉ workplace.spelled q) ∧
      workplace.spelled (Path.ofString "/w/a") = (Path.ofString "/w/a").parts ∧
      stocked.Free (Path.ofString "/w/a").parts ∧
      inLayers.find stocked workplace "a" none = .ok "old" ∧
      inLayers.find (stockedAt "/w/a") workplace "a" none = .ok "new" := by
  have hone : inPlace.candidates longName none = [Path.ofString longName] := by
    unfold candidates
    rw [ofString_longName]
    decide +kernel
  have hlong : stocked.file? workplace (Path.ofString longName) = .error .nameTooLong := by
    rw [ofString_longName]
    decide +kernel
  have hnone : ∀ q ∈ inPlace.candidates longName none, ¬ stocked.HasFile workplace q := by
    rw [hone]
    rintro q hq ⟨bytes, hbytes⟩
    rw [List.mem_singleton.1 hq, hlong] at hbytes
    cases hbytes
  have hfault : inPlace.find stocked workplace longName none
      = .error (.inaccessible (Path.ofString longName) .nameTooLong) :=
    find_of_inaccessible hone hlong
  exact ⟨⟨hnone, hfault⟩, inLayers_candidates, first_not_stocked, second_stocked,
    stocked_connected, inLayers_without_dots, by decide +kernel,
    stocked_free (by decide +kernel) (by decide +kernel), by decide +kernel, by decide +kernel⟩

end Search

end SystemMap
