/-
Which text a diagnosis is about. A reading breaks off at the first fault, be it of the file that
is read first or of a text that it includes, at any depth. The message tells a line and a
column, and what is there is a character, a token or the end of the text at fault
(`Outline.fault_standsIn`). But in front of the place the message names the file that was read
first, whichever text is at fault (`diagnosis_shown`). So the name is right for that file and
for its namesakes, and for no others (`included_fault_misnamed`).
-/
import SystemMap.Proofs.Files.Origins
import SystemMap.Proofs.Grammar.Stuck

namespace SystemMap

-- ========================================================== the text at fault

section Walk

variable {ε : Type} {lib : Library ε}

/-- A walk breaks off at the fault of its own text, or at that of a text that answers one of its
calls. The induction is on the walk; a fault in an included text is passed on as it is. -/
theorem Visits.fault_of_text {includer : Option String} {unopened : List String}
    {segments : List Segment} {fault : Option TextFault} {v : Visit ε}
    (h : Visits lib includer unopened segments fault v) {f : TextFault}
    (hf : v.fault = some (.text f)) :
    fault = some f ∨ ∃ c ∈ v.calls, ∃ text, lib.lookup c.path c.includer = .ok text ∧
      (Outline.ofText text).fault = some f := by
  induction h with
  | finished =>
      obtain ⟨g, hg, hsame⟩ := Option.map_eq_some_iff.1 hf
      cases hsame
      exact .inl hg
  | plain hs hv ih =>
      rw [meet_fault] at hf
      rw [meet_calls]
      exact ih hf
  | skipped hi hv ih => exact ih hf
  | missing hi hl => cases hf
  | @broken includer _ i _ _ text inner _ hi hl hv hinner ih =>
      rcases ih hf with hown | ⟨c, hc, hgiven⟩
      · exact .inr ⟨⟨i.path, includer⟩, List.mem_cons_self, text, hl, hown⟩
      · exact .inr ⟨c, List.mem_cons_of_mem _ hc, hgiven⟩
  | followed hi hl hv hinner hw ih ihouter =>
      rcases ihouter hf with hown | ⟨c, hc, hgiven⟩
      · exact .inl hown
      · exact .inr ⟨c, List.mem_cons_of_mem _ (List.mem_append_right _ hc), hgiven⟩

/-- A reading that fails has the fault of its first walk. -/
theorem fault_of_read_error {own : Option String} {text : String} {f : ReadFault ε}
    (h : (read (some lib) own text).result = .error f) :
    (firstVisit lib own text).fault = some f := by
  unfold read Outline.reading at h
  unfold firstVisit
  dsimp only at h
  split at h
  · next hfault =>
    cases h
    exact hfault
  · cases h

/-- The calls of a reading are those of its first walk. -/
theorem calls_of_read (lib : Library ε) (own : Option String) (text : String) :
    (read (some lib) own text).calls = (firstVisit lib own text).calls := rfl

end Walk

-- ============================================================ the file at fault

/-- What a fault is about stands in the text of the file at a location. -/
def FileTree.Shows (t : FileTree) (fault : TextFault) (l : Location) : Prop :=
  ∃ bytes text, t.at? l = some (.file bytes) ∧ textOfBytes bytes = .ok text ∧
    fault.StandsIn text

namespace Invocation

variable {i : Invocation} {t : FileTree} {directory : Path}

/-- Whether an outcome is free of faults of reading. -/
def IsPastReading (o : Outcome) : Prop := ∀ path fault, o.result ≠ .error (.reading path fault)

/-- What is made of a result is free of faults of reading, if neither the result is one nor what
is made of a value. -/
theorem isPastReading_ofResult {α : Type} {toOutcome : α → Outcome}
    {r : Except InvocationFault α} (hok : ∀ a, IsPastReading (toOutcome a))
    (herror : ∀ path fault, r ≠ .error (.reading path fault)) :
    IsPastReading (.ofResult toOutcome r) := by
  cases r with
  | ok a => exact hok a
  | error f =>
      intro path fault h
      cases h
      exact herror path fault rfl

/-- A fault that is named for what a task does is none of reading. -/
theorem mapError_ne_reading {α δ : Type} {r : Except δ α} {name : δ → InvocationFault}
    (hname : ∀ e path fault, name e ≠ .reading path fault) (path : Path)
    (fault : ReadFault SearchFault) : r.mapError name ≠ .error (.reading path fault) := by
  cases r with
  | ok a => nofun
  | error e =>
      intro h
      exact hname e path fault (Except.error.inj h)

/-- What is done with a drawing is past reading, if what is done with one that is made is. -/
theorem isPastReading_withDrawing {d : Document} {m : Metrics} {view : Option View}
    {use : Drawing Float → Outcome} (huse : ∀ g, IsPastReading (use g)) :
    IsPastReading (withDrawing d m view use) :=
  isPastReading_ofResult (fun g => huse g) (mapError_ne_reading fun _ _ _ h => nomatch h)

theorem isPastReading_ok {log : List LogRecord} {lines : List String} (p : Product) :
    IsPastReading ⟨log, lines, .ok p⟩ := fun _ _ h => nomatch h

theorem isPastReading_viewerOutcome (file : String) (g : Drawing Float) (port : Int)
    (host : String) : IsPastReading (viewerOutcome file g port host) := by
  unfold viewerOutcome
  cases g.page (some ("SADL: " ++ (Path.ofString file).name)) with
  | ok page => exact isPastReading_ok _
  | error e =>
      intro path fault h
      cases h

/-- Once there is a document, no task on it meets a fault of reading. -/
theorem isPastReading_perform (file : String) (d : Document) (m : Metrics) (task : Task) :
    IsPastReading (perform file d m task) := by
  have hnumeral : ∀ e path fault, InvocationFault.numeral e ≠ .reading path fault :=
    fun _ _ _ h => nomatch h
  cases task with
  | parse => exact isPastReading_ok _
  | check =>
      exact isPastReading_ofResult (fun r => isPastReading_ok _) (mapError_ne_reading hnumeral)
  | layout view => exact isPastReading_withDrawing fun g => isPastReading_ok _
  | chart view direction =>
      exact isPastReading_ofResult (fun t => isPastReading_ok _) (mapError_ne_reading hnumeral)
  | serve view port host =>
      exact isPastReading_withDrawing fun g => isPastReading_viewerOutcome file g port host

/-- An invocation that breaks off while reading has its file and its settings. -/
theorem readFile_of_run_error {path : Path} {fault : ReadFault SearchFault}
    (h : (i.run t directory).result = .error (.reading path fault)) :
    ∃ bytes s, t.file? directory (i.source directory) = .ok (some bytes) ∧
      i.loadSettings t directory = .ok s ∧ path = i.source directory ∧
      (readFile t directory (i.source directory) s bytes).result = .error fault := by
  unfold run at h
  dsimp only at h
  split at h
  · cases h
  split at h
  · cases h
  · cases h
  · next bytes hfile =>
    unfold runOn at h
    split at h
    · cases h
    · next s hs =>
      dsimp only at h
      split at h
      · next hread =>
        cases h
        exact ⟨bytes, s, hfile, hs, rfl, hread⟩
      · exact absurd h (isPastReading_perform _ _ _ _ _ _)

/-- The text at fault while a file is read is that of the file, which has the name of its path,
or one that answers a call. -/
theorem exists_origin_at_fault {s : Settings} {bytes : List UInt8} {f : TextFault}
    (hfile : t.file? directory (i.source directory) = .ok (some bytes))
    (h : (readFile t directory (i.source directory) s bytes).result = .error (.text f))
    (hf : ∀ n, f ≠ .numeral n) :
    ∃ o ∈ i.origins t directory s bytes, t.Shows f o.place ∧
      ((⟨.root, o.place⟩ : Path).name = (i.source directory).name ∨
        ∃ c ∈ (readFile t directory (i.source directory) s bytes).calls,
          (Search.mk s.root s.includePaths).origin? t directory c = some o) := by
  obtain ⟨l, hfollow⟩ := FileTree.exists_follow_of_file? hfile
  have hlocate := FileTree.locate?_eq_some_iff.2 ⟨bytes, hfollow⟩
  have hparts := FileTree.locate?_of_plain rfl (Path.above_not_mem_settleParts _) hlocate
  cases htext : textOfBytes bytes with
  | error fault =>
      unfold readFile at h
      rw [htext] at h
      cases h
  | ok text =>
      unfold origins Search.origins
      dsimp only
      rw [readFile_of_text htext] at h ⊢
      rw [hlocate, calls_of_read]
      rcases (visits_firstVisit _ _ text).fault_of_text (fault_of_read_error h) with
        hown | ⟨c, hc, body, hbody, hgiven⟩
      · have hshows : t.Shows f l := ⟨bytes, text, FileTree.at?_of_follow hfollow, htext,
          Outline.fault_standsIn hown hf⟩
        refine ⟨⟨(i.source directory).toString, l⟩, List.mem_append_left _ ?_, hshows, .inl ?_⟩
        · exact List.mem_singleton.2 rfl
        · rw [hparts]
          rfl
      · obtain ⟨place, found, hplace, hat, hfound⟩ := Search.exists_locate?_of_find hbody
        have horigin : (Search.mk s.root s.includePaths).origin? t directory c
            = some ⟨c.path, place⟩ := by
          unfold Search.origin?
          rw [hplace]
          rfl
        exact ⟨⟨c.path, place⟩, List.mem_append_right _ (List.mem_filterMap.2 ⟨c, hc, horigin⟩),
          ⟨found, body, hat, hfound, Outline.fault_standsIn hgiven hf⟩, .inr ⟨c, hc, horigin⟩⟩

/-- A fault that is told as one of a text has its place in a file of the reading, at whatever
depth it is included, and is told under the name of the file that was read first. That is the
name of the file at fault, unless it is an included one. -/
theorem diagnosis_shown {path : Path} {f : TextFault}
    (h : (i.run t directory).result = .error (.reading path (.text f)))
    (hf : ∀ n, f ≠ .numeral n) :
    (i.run t directory).errors = [(i.source directory).name ++ ": " ++ f.message] ∧
    ∃ bytes s, t.file? directory (i.source directory) = .ok (some bytes) ∧
      i.loadSettings t directory = .ok s ∧
      ∃ o ∈ i.origins t directory s bytes, t.Shows f o.place ∧
        ((⟨.root, o.place⟩ : Path).name = (i.source directory).name ∨
          ∃ c ∈ (readFile t directory (i.source directory) s bytes).calls,
            (Search.mk s.root s.includePaths).origin? t directory c = some o) := by
  obtain ⟨bytes, s, hfile, hsettings, rfl, hread⟩ := readFile_of_run_error h
  refine ⟨?_, bytes, s, hfile, hsettings, exists_origin_at_fault hfile hread hf⟩
  unfold Outcome.errors
  rw [h]
  cases f with
  | scan e => rfl
  | mismatch m => rfl
  | numeral n => exact absurd rfl (hf n)

-- ====================================================== a fault in an included file

/-- A file that includes another one, in which a stray sign stands. -/
def strayTree : FileTree :=
  (FileTree.empty.write (Path.ofString "/m").parts (Text.Utf8.encode "include \"a\"\n")).write
    (Path.ofString "/a").parts (Text.Utf8.encode "\n  $\n")

/-- The reading of that file from its own directory. -/
def parseStray : Invocation := ⟨false, .parse, "m", none⟩

/-- The stray sign, at its place in the included file. -/
def strayFault : TextFault := .scan ⟨.unexpected '$', ⟨2, 3⟩⟩

/-- The included file has a stray character, and the run ends with that fault under the main
file's path. -/
theorem strayTree_run : (parseStray.run strayTree ⟨.root, []⟩).result
    = .error (.reading (parseStray.source ⟨.root, []⟩) (.text strayFault)) := by
  have hfile : strayTree.file? ⟨.root, []⟩ (parseStray.source ⟨.root, []⟩)
      = .ok (some (Text.Utf8.encode "include \"a\"\n")) := by decide +kernel
  have hsettings : parseStray.loadSettings strayTree ⟨.root, []⟩ = .ok mirrorSettings := rfl
  have htext : textOfBytes (Text.Utf8.encode "include \"a\"\n") = .ok "include \"a\"\n" := by
    decide +kernel
  have hpath : (parseStray.source ⟨.root, []⟩).toString = "/m" := by decide +kernel
  have houtline : Outline.ofText "include \"a\"\n"
      = ⟨[.declared (.directive ⟨"a", some ⟨1, 1⟩⟩)], none⟩ := by decide +kernel
  have hincluded : Outline.ofText "\n  $\n" = ⟨[], some strayFault⟩ := by decide +kernel
  have hlookup : (Search.atRoot.library strayTree ⟨.root, []⟩).lookup "a" (some "/m")
      = .ok "\n  $\n" := by
    have hfind : Search.atRoot.find strayTree ⟨.root, []⟩ "a" (some "/m") = .ok "\n  $\n" := by
      decide +kernel
    exact hfind
  have hpaths : (Search.atRoot.library strayTree ⟨.root, []⟩).paths = ["a"] := by decide +kernel
  have hread : (readFile strayTree ⟨.root, []⟩ (parseStray.source ⟨.root, []⟩) mirrorSettings
      (Text.Utf8.encode "include \"a\"\n")).result = .error (.text strayFault) := by
    rw [readFile_of_text htext, hpath,
      show (Search.mk mirrorSettings.root mirrorSettings.includePaths) = Search.atRoot from rfl]
    simp [read, Outline.reading, houtline, unopenedAtStart, Outline.includePaths,
      Outline.declarations, hpaths, hlookup, hincluded, follow, without, Visit.ask, Visit.stop]
  unfold run
  rw [if_neg (by decide +kernel), hfile]
  unfold runOn
  dsimp only
  rw [hsettings]
  dsimp only
  rw [hread]

/-- The diagnosis of the stray sign has its place in a file of the reading. -/
theorem strayFault_shown :
    (parseStray.run strayTree ⟨.root, []⟩).result
      = .error (.reading (parseStray.source ⟨.root, []⟩) (.text strayFault)) ∧
    (∀ n, strayFault ≠ .numeral n) ∧
    ∃ bytes s, ∃ o ∈ parseStray.origins strayTree ⟨.root, []⟩ s bytes,
      strayTree.Shows strayFault o.place := by
  have hscan : ∀ n, strayFault ≠ .numeral n := fun _ h => nomatch h
  obtain ⟨-, bytes, s, -, -, o, ho, hshows, -⟩ := diagnosis_shown strayTree_run hscan
  exact ⟨strayTree_run, hscan, bytes, s, o, ho, hshows⟩

/-- It names the including file, but no file of that name has such a sign there. -/
theorem included_fault_misnamed :
    (parseStray.run strayTree ⟨.root, []⟩).errors
      = ["m: Line 2, column 3: Unexpected character: '$'"] ∧
    ∀ l, (⟨.root, l⟩ : Path).name = "m" → ¬ strayTree.Shows strayFault l := by
  have hentries : strayTree.entries
      = [((Path.ofString "/a").parts, .file (Text.Utf8.encode "\n  $\n")),
        ((Path.ofString "/m").parts, .file (Text.Utf8.encode "include \"a\"\n"))] := by
    decide +kernel
  constructor
  · unfold Outcome.errors
    rw [strayTree_run]
    decide +kernel
  · rintro l hname ⟨bytes, text, hat, htext, hstands⟩
    unfold FileTree.at? at hat
    rw [hentries] at hat
    split at hat
    · cases hat
    by_cases ha : (Path.ofString "/a").parts = l
    · have hother : (⟨.root, (Path.ofString "/a").parts⟩ : Path).name ≠ "m" := by decide +kernel
      exact hother (ha ▸ hname)
    rw [List.find?_cons_of_neg (by simpa using ha)] at hat
    by_cases hm : (Path.ofString "/m").parts = l
    · rw [List.find?_cons_of_pos (by simpa using hm)] at hat
      cases hat
      have hmain : textOfBytes (Text.Utf8.encode "include \"a\"\n") = .ok "include \"a\"\n" := by
        decide +kernel
      obtain rfl := Except.ok.inj (htext.symm.trans hmain)
      exact absurd hstands.mem_of_unexpected (by decide)
    · rw [List.find?_cons_of_neg (by simpa using hm)] at hat
      cases hat

end Invocation

end SystemMap
