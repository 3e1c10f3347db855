/-
Which files a reading merges. A text is entered under a name, the path of the directive that
asks for it, and comes from a file, which lies at a location of the tree. The walk through
includes keeps names apart, so that no name is entered twice. It knows nothing of locations: a
file that is entered under two names is merged twice, and its classes are gathered twice.

So the files of a reading are different exactly if none of them has two names
(`merged_once_iff_named_once`). Absolute paths in their plain spelling never name one file
twice; a relative path can, even that of the file read first (`main_merged_again`).
-/
import Mathlib.Data.List.Nodup
import SystemMap.Invocation.Outcome
import SystemMap.Proofs.Files.Beside

namespace SystemMap

-- ================================================================= locations

namespace FileTree

variable {t : FileTree} {directory : Path}

/-- The location of the file where a path leads, if it leads to a file. -/
def locate? (t : FileTree) (directory p : Path) : Option Location :=
  match t.follow directory p with
  | .ok (l, .file _) => some l
  | _ => none

/-- What the text of a file declares by itself; nothing if there is no such text. -/
def declaredAt (t : FileTree) (l : Location) : Document :=
  match t.at? l with
  | some (.file bytes) =>
    match textOfBytes bytes with
    | .ok text => .ofSegments (Outline.ofText text).segments
    | .error _ => .empty
  | _ => .empty

/-- A path is located where following it leads to a file. -/
theorem locate?_eq_some_iff {p : Path} {l : Location} :
    t.locate? directory p = some l ↔ ∃ bytes, t.follow directory p = .ok (l, .file bytes) := by
  unfold locate?
  constructor
  · intro h
    split at h
    · next found bytes hfollow =>
      cases h
      exact ⟨bytes, hfollow⟩
    · cases h
  · rintro ⟨bytes, hfollow⟩
    rw [hfollow]

/-- A file that is found is one that a path leads to. -/
theorem exists_follow_of_file? {p : Path} {bytes : List UInt8}
    (h : t.file? directory p = .ok (some bytes)) :
    ∃ l, t.follow directory p = .ok (l, .file bytes) := by
  unfold file? at h
  split at h
  · next l found hfollow =>
    cases h
    exact ⟨l, hfollow⟩
  · cases h
  · split at h <;> cases h

/-- Where nothing is found, nothing is located. -/
theorem locate?_of_no_file {p : Path} (h : t.file? directory p = .ok none) :
    t.locate? directory p = none := by
  rw [Option.eq_none_iff_forall_not_mem]
  intro l hl
  obtain ⟨bytes, hfollow⟩ := locate?_eq_some_iff.1 hl
  unfold file? at h
  rw [hfollow] at h
  cases h

/-- Names that end at a file end at what stands there. -/
theorem at?_of_walk {here l : Location} {names : List Name} {bytes : List UInt8}
    (h : t.walk here names = .ok (l, .file bytes)) : t.at? l = some (.file bytes) := by
  induction names generalizing here with
  | nil => cases h
  | cons name rest ih =>
      unfold walk at h
      split at h
      · exact ih h
      · split at h
        · cases h
        · split at h
          · cases h
          · exact ih h
          · next found hat =>
            split at h
            · cases h
              exact hat
            · cases h

/-- Names without double dots lead to the location that they spell. -/
theorem location_of_walk {here l : Location} {names : List Name} {e : Entry}
    (habove : Name.above ∉ names) (h : t.walk here names = .ok (l, e)) : l = here ++ names := by
  induction names generalizing here with
  | nil =>
      cases h
      rw [List.append_nil]
  | cons name rest ih =>
      have hname : name ≠ Name.above := fun hn => habove (hn ▸ List.mem_cons_self)
      have hrest : Name.above ∉ rest := fun hn => habove (List.mem_cons_of_mem _ hn)
      have hsplit : here ++ name :: rest = here ++ [name] ++ rest := by simp
      unfold walk at h
      rw [if_neg hname] at h
      split at h
      · cases h
      · split at h
        · cases h
        · rw [hsplit]
          exact ih hrest h
        · split at h
          · next hempty =>
            cases h
            rw [List.isEmpty_iff.1 hempty]
          · cases h

/-- A path is followed from the root, past the directory that it is relative to. -/
theorem walk_of_follow {p : Path} {l : Location} {e : Entry}
    (h : t.follow directory p = .ok (l, e)) : t.walk [] (directory.join p).parts = .ok (l, e) := by
  unfold follow at h
  split at h
  · cases h
  · split at h
    · cases h
    · exact h

/-- The file that a path leads to stands at the location where it ends. -/
theorem at?_of_follow {p : Path} {l : Location} {bytes : List UInt8}
    (h : t.follow directory p = .ok (l, .file bytes)) : t.at? l = some (.file bytes) :=
  at?_of_walk (walk_of_follow h)

/-- What is declared at a location is what the text there declares. -/
theorem declaredAt_of_text {l : Location} {bytes : List UInt8} {text : String}
    (hat : t.at? l = some (.file bytes)) (htext : textOfBytes bytes = .ok text) :
    t.declaredAt l = .ofSegments (Outline.ofText text).segments := by
  unfold declaredAt
  rw [hat]
  dsimp only
  rw [htext]

/-- An absolute path without double dots leads to the location that its parts spell. -/
theorem locate?_of_plain {p : Path} {l : Location} (habsolute : p.isAbsolute = true)
    (habove : Name.above ∉ p.parts) (h : t.locate? directory p = some l) : l = p.parts := by
  obtain ⟨bytes, hfollow⟩ := locate?_eq_some_iff.1 h
  have hwalk := walk_of_follow hfollow
  rw [show directory.join p = p from if_pos habsolute] at hwalk
  exact location_of_walk habove hwalk

end FileTree

namespace Path

/-- No dots are left in a path that is settled. -/
theorem above_not_mem_settleParts (parts : List Name) : Name.above ∉ settleParts parts := by
  unfold settleParts
  have hkept : ∀ done : List Name, Name.above ∉ done → Name.above ∉ parts.foldl
      (fun done part => if part = Name.above then done.dropLast else done ++ [part]) done := by
    induction parts with
    | nil => exact fun _ hdone => hdone
    | cons part later ih =>
        intro done hdone
        refine ih _ ?_
        dsimp only
        by_cases hpart : part = Name.above
        · rw [if_pos hpart]
          exact fun h => hdone ((List.dropLast_sublist done).subset h)
        · rw [if_neg hpart, List.mem_append, List.mem_singleton]
          rintro (h | h)
          · exact hdone h
          · exact hpart h.symm
  exact hkept [] List.not_mem_nil

/-- The name of a file is plain if it starts at the root, has no double dots, and spells no
part in vain. -/
structure IsPlainName (q : String) : Prop where
  root : (ofString q).anchor = .root
  settled : Name.above ∉ (ofString q).parts
  spelled : (ofString q).toString = q

end Path

-- ================================================================= parts

/-- The classes of a document are, up to order, those of some documents together. -/
structure Document.Gathers (d : Document) (parts : List Document) : Prop where
  nodeClasses : d.nodeClasses.Perm (parts.flatMap (·.nodeClasses))
  linkClasses : d.linkClasses.Perm (parts.flatMap (·.linkClasses))

-- ============================================================= names and places

/-- Where a text of a reading comes from: the name it is entered under, and the location of
its file. -/
structure Origin where
  name : String
  place : Location
deriving DecidableEq

namespace Search

variable (s : Search) (t : FileTree) (directory : Path)

/-- The location of the file whose text answers a call, if there is such a text. -/
def locate? (c : Call) : Option Location :=
  match s.find t directory c.path c.includer with
  | .error _ => none
  | .ok _ => (s.candidates c.path c.includer).findSome? (t.locate? directory)

/-- Where the text that answers a call comes from. -/
def origin? (c : Call) : Option Origin :=
  (s.locate? t directory c).map fun l => ⟨c.path, l⟩

/-- Where the texts of a reading come from: the text read first, if it is that of a file, and
the texts that answer the calls. -/
def origins (first : Option Origin) (calls : List Call) : List Origin :=
  first.toList ++ calls.filterMap (s.origin? t directory)

variable {s t directory}

/-- A call that is answered has a location, at which the file with the answer stands. -/
theorem exists_locate?_of_find {c : Call} {text : String}
    (h : s.find t directory c.path c.includer = .ok text) :
    ∃ l bytes, s.locate? t directory c = some l ∧ t.at? l = some (.file bytes) ∧
      textOfBytes bytes = .ok text := by
  obtain ⟨place, before, after, bytes, hcandidates, hbefore, hplace, htext⟩ :=
    exists_finds_of_find h
  obtain ⟨l, hfollow⟩ := FileTree.exists_follow_of_file? hplace
  have hskipped : before.findSome? (t.locate? directory) = none :=
    List.findSome?_eq_none_iff.2 fun q hq => FileTree.locate?_of_no_file (hbefore q hq)
  have hfound : t.locate? directory place = some l :=
    FileTree.locate?_eq_some_iff.2 ⟨bytes, hfollow⟩
  refine ⟨l, bytes, ?_, FileTree.at?_of_follow hfollow, htext⟩
  unfold locate?
  rw [h]
  dsimp only
  rw [hcandidates, List.findSome?_append, hskipped, Option.none_or,
    List.findSome?_cons_of_isSome (by rw [hfound]; rfl), hfound]

/-- An origin bears the name that was called for. -/
theorem name_of_origin? {c : Call} {o : Origin} (h : s.origin? t directory c = some o) :
    o.name = c.path := by
  obtain ⟨l, -, rfl⟩ := Option.map_eq_some_iff.1 h
  rfl

/-- Origins are in the order of the calls. -/
theorem origin_names_sublist (s : Search) (t : FileTree) (directory : Path)
    (calls : List Call) :
    ((calls.filterMap (s.origin? t directory)).map (·.name)).Sublist (calls.map (·.path)) := by
  induction calls with
  | nil => exact List.Sublist.refl _
  | cons c later ih =>
      cases h : s.origin? t directory c with
      | none =>
          rw [List.filterMap_cons_none h]
          exact ih.cons _
      | some o =>
          rw [List.filterMap_cons_some h, List.map_cons, List.map_cons, name_of_origin? h]
          exact ih.cons_cons _

/-- The file of a plain name lies where the name says. -/
theorem place_of_plain {c : Call} {o : Origin} (h : s.origin? t directory c = some o)
    (hplain : Path.IsPlainName o.name) : o.name = (⟨.root, o.place⟩ : Path).toString := by
  obtain ⟨l, hl, rfl⟩ := Option.map_eq_some_iff.1 h
  have habsolute : (Path.ofString c.path).isAbsolute = true := by
    unfold Path.isAbsolute
    rw [hplain.root]
    rfl
  have hone : s.candidates c.path c.includer = [Path.ofString c.path] := if_pos habsolute
  have hplace : t.locate? directory (Path.ofString c.path) = some l := by
    unfold locate? at hl
    split at hl
    · cases hl
    · rwa [hone, List.findSome?_singleton] at hl
  have hparts := FileTree.locate?_of_plain habsolute hplain.settled hplace
  calc c.path = (Path.ofString c.path).toString := hplain.spelled.symm
    _ = (⟨.root, l⟩ : Path).toString := by rw [hparts, ← hplain.root]

/-- What the origins of calls declare is what the calls declare. -/
theorem map_declaredAt {calls : List Call}
    (h : ∀ c ∈ calls, ∃ text, s.find t directory c.path c.includer = .ok text) :
    (calls.filterMap (s.origin? t directory)).map (fun o => t.declaredAt o.place)
      = calls.map (s.library t directory).declared := by
  induction calls with
  | nil => rfl
  | cons c later ih =>
      obtain ⟨text, htext⟩ := h c List.mem_cons_self
      obtain ⟨l, bytes, hl, hat, hbytes⟩ := exists_locate?_of_find htext
      have hlookup : (s.library t directory).lookup c.path c.includer = .ok text := htext
      have horigin : s.origin? t directory c = some ⟨c.path, l⟩ := by
        unfold origin?
        rw [hl]
        rfl
      rw [List.filterMap_cons_some horigin, List.map_cons, List.map_cons,
        ih fun a ha => h a (List.mem_cons_of_mem _ ha), declared_of_lookup hlookup,
        FileTree.declaredAt_of_text hat hbytes]

/-- In a reading that returns, each call was answered. -/
theorem answered_of_read_ok {own : Option String} {text : String} {d : Document}
    (h : (read (some (s.library t directory)) own text).result = .ok d) :
    ∀ c ∈ (read (some (s.library t directory)) own text).calls, ∃ body,
      s.find t directory c.path c.includer = .ok body := by
  intro c hc
  have hwalk := visits_firstVisit (s.library t directory) own text
  obtain ⟨-, -, hexhausted⟩ := hwalk.exhausts (read_ok_iff.1 h).1
  obtain ⟨body, hbody, -⟩ := hexhausted c hc
  exact ⟨body, hbody⟩

/-- A document gathers what the text read first declares, and what the files do that answer its
calls. -/
theorem gathers_of_read_ok {own : Option String} {text : String} {d : Document}
    (h : (read (some (s.library t directory)) own text).result = .ok d) :
    d.Gathers (.ofSegments (Outline.ofText text).segments ::
      ((read (some (s.library t directory)) own text).calls.filterMap
        (s.origin? t directory)).map fun o => t.declaredAt o.place) := by
  rw [map_declaredAt (answered_of_read_ok h)]
  obtain ⟨hfault, rfl⟩ := read_ok_iff.1 h
  obtain ⟨hnodes, hlinks⟩ := (visits_firstVisit (s.library t directory) own text).gathers hfault
  constructor
  · rw [List.flatMap_cons, List.flatMap_map]
    exact hnodes
  · rw [List.flatMap_cons, List.flatMap_map]
    exact hlinks

end Search

-- ================================================================= a file read

namespace Invocation

variable {i : Invocation} {t : FileTree} {directory : Path} {s : Settings} {bytes : List UInt8}

/-- Where the texts come from that are read for an invocation: its file, and what it
includes. -/
def origins (i : Invocation) (t : FileTree) (directory : Path) (s : Settings)
    (bytes : List UInt8) : List Origin :=
  let search : Search := ⟨s.root, s.includePaths⟩
  let path := i.source directory
  search.origins t directory ((t.locate? directory path).map fun l => ⟨path.toString, l⟩)
    (readFile t directory path s bytes).calls

/-- The name of a text is that of the file that is read first, or plain. -/
def NamesPlainly (i : Invocation) (directory : Path) (name : String) : Prop :=
  name = (i.source directory).toString ∨ Path.IsPlainName name

/-- Reading a file is reading its text, with its own path and a library of the files around it. -/
theorem readFile_of_text {path : Path} {text : String} (h : textOfBytes bytes = .ok text) :
    readFile t directory path s bytes
      = read (some ((Search.mk s.root s.includePaths).library t directory))
          (some path.toString) text := by
  unfold readFile
  rw [h]

/-- No path is entered twice, that of the file itself included. -/
theorem names_nodup (i : Invocation) (t : FileTree) (directory : Path) (s : Settings)
    (bytes : List UInt8) :
    ((i.source directory).toString ::
      (readFile t directory (i.source directory) s bytes).calls.map (·.path)).Nodup := by
  cases htext : textOfBytes bytes with
  | error fault =>
      unfold readFile
      rw [htext]
      exact List.nodup_singleton _
  | ok text =>
      rw [readFile_of_text htext]
      have hopens := (visits_firstVisit ((Search.mk s.root s.includePaths).library t directory)
        (some (i.source directory).toString) text).opens
      -- the path of the file itself is taken off before the walk begins
      refine List.nodup_cons.2 ⟨fun hown => ?_, hopens.once⟩
      exact (mem_unopenedAtStart.1 (hopens.before _ hown)).2 rfl

/-- No two origins have one name. -/
theorem origin_names_nodup (i : Invocation) (t : FileTree) (directory : Path) (s : Settings)
    (bytes : List UInt8) : ((i.origins t directory s bytes).map (·.name)).Nodup := by
  have hsublist : ((i.origins t directory s bytes).map (·.name)).Sublist
      ((i.source directory).toString ::
        (readFile t directory (i.source directory) s bytes).calls.map (·.path)) := by
    unfold origins Search.origins
    dsimp only
    rw [List.map_append]
    have hcalls := Search.origin_names_sublist ⟨s.root, s.includePaths⟩ t directory
      (readFile t directory (i.source directory) s bytes).calls
    cases t.locate? directory (i.source directory) with
    | none => exact hcalls.cons _
    | some l => exact hcalls.cons_cons _
  exact hsublist.nodup (names_nodup i t directory s bytes)

/-- The file of the command line has an absolute path, so it is known by where it stands. -/
theorem place_of_source {l : Location}
    (h : t.locate? directory (i.source directory) = some l) :
    (i.source directory).toString = (⟨.root, l⟩ : Path).toString := by
  have hparts := FileTree.locate?_of_plain rfl (Path.above_not_mem_settleParts _) h
  rw [hparts]
  rfl

/-- A text that is named plainly lies where its name says. -/
theorem name_of_namesPlainly {o : Origin} (ho : o ∈ i.origins t directory s bytes)
    (hplain : i.NamesPlainly directory o.name) :
    o.name = (⟨.root, o.place⟩ : Path).toString := by
  rcases List.mem_append.1 ho with hfirst | hcalled
  · obtain ⟨l, hl, rfl⟩ := Option.map_eq_some_iff.1 (Option.mem_toList.1 hfirst)
    exact place_of_source hl
  · obtain ⟨c, hc, horigin⟩ := List.mem_filterMap.1 hcalled
    rcases hplain with hown | hplain
    · have hpath : (i.source directory).toString = c.path :=
        hown.symm.trans (Search.name_of_origin? horigin)
      have hfresh := (List.nodup_cons.1 (names_nodup i t directory s bytes)).1
      rw [hpath] at hfresh
      exact absurd (List.mem_map_of_mem hc) hfresh
    · exact Search.place_of_plain horigin hplain

/-- A document that is read from a file gathers what its origins declare. -/
theorem gathers_origins {d : Document}
    (hfile : t.file? directory (i.source directory) = .ok (some bytes))
    (hread : (readFile t directory (i.source directory) s bytes).result = .ok d) :
    d.Gathers ((i.origins t directory s bytes).map fun o => t.declaredAt o.place) := by
  obtain ⟨l, hfollow⟩ := FileTree.exists_follow_of_file? hfile
  have hlocate := FileTree.locate?_eq_some_iff.2 ⟨bytes, hfollow⟩
  cases htext : textOfBytes bytes with
  | error fault =>
      unfold readFile at hread
      rw [htext] at hread
      cases hread
  | ok text =>
      have hown := FileTree.declaredAt_of_text (FileTree.at?_of_follow hfollow) htext
      unfold origins Search.origins
      dsimp only
      rw [readFile_of_text htext] at hread ⊢
      rw [hlocate, Option.map_some, Option.toList_some, List.singleton_append, List.map_cons, hown]
      exact Search.gathers_of_read_ok hread

/-- The texts that are read for a file come from different files exactly if no file goes by
two names among them. Those with plain names, the file itself included, always come from
different files. The document gathers what the files declare, once for each text. -/
theorem merged_once_iff_named_once
    (hfile : t.file? directory (i.source directory) = .ok (some bytes)) :
    (((i.origins t directory s bytes).map (·.place)).Nodup ↔
        ∀ o ∈ i.origins t directory s bytes, ∀ o' ∈ i.origins t directory s bytes,
          o.place = o'.place → o.name = o'.name) ∧
      (∀ o ∈ i.origins t directory s bytes, ∀ o' ∈ i.origins t directory s bytes,
        i.NamesPlainly directory o.name → i.NamesPlainly directory o'.name →
          o.place = o'.place → o = o') ∧
      (∃ l, t.follow directory (i.source directory) = .ok (l, .file bytes) ∧
        ⟨(i.source directory).toString, l⟩ ∈ i.origins t directory s bytes) ∧
      ∀ d, (readFile t directory (i.source directory) s bytes).result = .ok d →
        d.Gathers ((i.origins t directory s bytes).map fun o => t.declaredAt o.place) := by
  have hnames := origin_names_nodup i t directory s bytes
  have hsame : ∀ o ∈ i.origins t directory s bytes, ∀ o' ∈ i.origins t directory s bytes,
      o.name = o'.name → o = o' := fun o ho o' ho' => List.inj_on_of_nodup_map hnames ho ho'
  refine ⟨⟨fun hplaces o ho o' ho' hplace => ?_, fun hone => ?_⟩,
    fun o ho o' ho' hplain hplain' hplace => ?_, ?_, fun d hread => ?_⟩
  · rw [List.inj_on_of_nodup_map hplaces ho ho' hplace]
  · exact (hnames.of_map _).map_on fun o ho o' ho' hplace =>
      hsame o ho o' ho' (hone o ho o' ho' hplace)
  · refine hsame o ho o' ho' ?_
    rw [name_of_namesPlainly ho hplain, name_of_namesPlainly ho' hplain', hplace]
  · obtain ⟨l, hfollow⟩ := FileTree.exists_follow_of_file? hfile
    have hlocate := FileTree.locate?_eq_some_iff.2 ⟨bytes, hfollow⟩
    refine ⟨l, hfollow, List.mem_append_left _ ?_⟩
    rw [hlocate]
    exact List.mem_singleton.2 rfl
  · exact gathers_origins hfile hread

-- ========================================================== a file under two names

/-- The bytes of a file that includes itself by its relative path. -/
def mirrorBytes : List UInt8 := Text.Utf8.encode "include \"m\" #nodeclass A::"

/-- A tree with nothing but that file. -/
def mirror : FileTree := FileTree.empty.write (Path.ofString "/m").parts mirrorBytes

/-- The check of the file from its own directory. -/
def checkMirror : Invocation := ⟨false, .check, "m", none⟩

def mirrorSettings : Settings := ⟨⟨.root, []⟩, [], {}⟩

/-- The file is read to its end, and once more on account of its directive. -/
theorem mirror_read :
    (readFile mirror ⟨.root, []⟩ (checkMirror.source ⟨.root, []⟩) mirrorSettings
        mirrorBytes).calls = [⟨"m", some "/m"⟩] ∧
      ∃ d, (readFile mirror ⟨.root, []⟩ (checkMirror.source ⟨.root, []⟩) mirrorSettings
          mirrorBytes).result = .ok d ∧
        d.nodeClasses = [⟨"A", [], some ⟨1, 24⟩⟩, ⟨"A", [], some ⟨1, 24⟩⟩] := by
  have htext : textOfBytes mirrorBytes = .ok "include \"m\" #nodeclass A::" := by decide +kernel
  have hpath : (checkMirror.source ⟨.root, []⟩).toString = "/m" := by decide +kernel
  have houtline : Outline.ofText "include \"m\" #nodeclass A::"
      = ⟨[.declared (.directive ⟨"m", some ⟨1, 1⟩⟩), .marker .nodeClasses,
          .declared (.nodeClass ⟨"A", [], some ⟨1, 24⟩⟩)], none⟩ := by decide +kernel
  have hlookup : (Search.atRoot.library mirror ⟨.root, []⟩).lookup "m" (some "/m")
      = .ok "include \"m\" #nodeclass A::" := by
    have hfind : Search.atRoot.find mirror ⟨.root, []⟩ "m" (some "/m")
        = .ok "include \"m\" #nodeclass A::" := by decide +kernel
    exact hfind
  have hpaths : (Search.atRoot.library mirror ⟨.root, []⟩).paths = ["m"] := by decide +kernel
  rw [readFile_of_text htext, hpath,
    show (Search.mk mirrorSettings.root mirrorSettings.includePaths) = Search.atRoot from rfl]
  simp [read, Outline.reading, houtline, unopenedAtStart, Outline.includePaths,
    Outline.declarations, hpaths, hlookup, follow, without, Visit.join, Visit.gatherNode,
    Visit.report, Visit.stop]

/-- The reading of the file gathers what it declares once for each of its names. -/
theorem mirror_gathers_origins :
    mirror.file? ⟨.root, []⟩ (checkMirror.source ⟨.root, []⟩) = .ok (some mirrorBytes) ∧
      ∃ d, (readFile mirror ⟨.root, []⟩ (checkMirror.source ⟨.root, []⟩) mirrorSettings
          mirrorBytes).result = .ok d ∧
        d.Gathers ((checkMirror.origins mirror ⟨.root, []⟩ mirrorSettings mirrorBytes).map
          fun o => mirror.declaredAt o.place) := by
  have hfile : mirror.file? ⟨.root, []⟩ (checkMirror.source ⟨.root, []⟩)
      = .ok (some mirrorBytes) := by decide +kernel
  obtain ⟨-, d, hd, -⟩ := mirror_read
  exact ⟨hfile, d, hd, (merged_once_iff_named_once hfile).2.2.2 d hd⟩

/-- That file is among the texts of its own reading twice, as itself and as what its directive
leads to, and its class is in the document twice. -/
theorem main_merged_again :
    ∃ s, checkMirror.loadSettings mirror ⟨.root, []⟩ = .ok s ∧
      mirror.file? ⟨.root, []⟩ (checkMirror.source ⟨.root, []⟩) = .ok (some mirrorBytes) ∧
      ¬ ((checkMirror.origins mirror ⟨.root, []⟩ s mirrorBytes).map (·.place)).Nodup ∧
      ∃ d, (readFile mirror ⟨.root, []⟩ (checkMirror.source ⟨.root, []⟩) s
          mirrorBytes).result = .ok d ∧
        ¬ d.nodeClasses.Nodup := by
  obtain ⟨hcalls, d, hd, hclasses⟩ := mirror_read
  refine ⟨mirrorSettings, rfl, by decide +kernel, ?_, d, hd, ?_⟩
  · have hplaces : (checkMirror.origins mirror ⟨.root, []⟩ mirrorSettings mirrorBytes).map
        (·.place) = [(Path.ofString "/m").parts, (Path.ofString "/m").parts] := by
      unfold origins
      dsimp only
      rw [hcalls]
      decide +kernel
    rw [hplaces]
    decide
  · rw [hclasses]
    decide

end Invocation

end SystemMap
