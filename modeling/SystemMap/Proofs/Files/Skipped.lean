/-
What is lost when a directive is skipped. A walk skips a directive because it has entered its
path before, and does not ask which file the path leads to from here. The file is among those
entered if the path leads to the same file from both directives, as it does if it is absolute,
or if the files beside the two are the same or both missing (`keeps_skipped_seen_alike`).
Otherwise a namesake of a file that was entered is passed over, and what it declares is lost
(`namesake_lost`).
-/
import Mathlib.Data.List.Flatten
import SystemMap.Proofs.Files.Origins
import SystemMap.Proofs.Names
import SystemMap.Proofs.Reading.Moves

namespace SystemMap

/-- What gives nothing may be left out of a search. -/
theorem findSome?_filter_ne {α β : Type} [BEq α] [LawfulBEq α] {f : α → Option β} {a : α}
    (ha : f a = none) (l : List α) : (l.filter fun b => !b == a).findSome? f = l.findSome? f := by
  induction l with
  | nil => rfl
  | cons b later ih =>
      by_cases hb : b = a
      · subst hb
        rw [List.filter_cons_of_neg (by simp), ih, List.findSome?_cons, ha]
      · rw [List.filter_cons_of_pos (by simp [hb]), List.findSome?_cons, List.findSome?_cons, ih]

/-- Searching twice in one place finds nothing more. -/
theorem findSome?_eraseDups {α β : Type} [BEq α] [LawfulBEq α] (f : α → Option β)
    (l : List α) : l.eraseDups.findSome? f = l.findSome? f := by
  induction l using induction_without_copies with
  | nil => simp
  | cons a later ih =>
      rw [List.eraseDups_cons, List.findSome?_cons, List.findSome?_cons]
      cases ha : f a with
      | some b => rfl
      | none => rw [ih, findSome?_filter_ne ha]

/-- All classes of a part are among those of a document, each as often. -/
structure Document.HasPart (d part : Document) : Prop where
  nodeClasses : part.nodeClasses.Subperm d.nodeClasses
  linkClasses : part.linkClasses.Subperm d.linkClasses

/-- A document that gathers parts has each of them. -/
theorem Document.Gathers.hasPart {d part : Document} {parts : List Document}
    (h : d.Gathers parts) (hpart : part ∈ parts) : d.HasPart part := by
  have hsublist : ∀ {α : Type} (f : Document → List α), (f part).Sublist (parts.flatMap f) := by
    intro α f
    have hone := (List.singleton_sublist.2 hpart).flatMap f
    rwa [List.flatMap_singleton] at hone
  exact ⟨(hsublist _).subperm.trans h.nodeClasses.symm.subperm,
    (hsublist _).subperm.trans h.linkClasses.symm.subperm⟩

namespace Search

variable {s : Search} {t : FileTree} {directory : Path}

-- ================================================================= one path, twice

/-- The file beside the including one, where the search takes that to be. -/
def beside? (s : Search) (t : FileTree) (directory : Path) (c : Call) : Option Location :=
  c.includer.bind fun p => t.locate? directory
    ((s.root.join (Path.ofString p)).parent.join (Path.ofString c.path))

/-- A relative path leads to the file beside the including one, or else to one that does not
depend on the including file. -/
theorem findSome?_candidates {c : Call} (hrelative : (Path.ofString c.path).isAbsolute = false) :
    (s.candidates c.path c.includer).findSome? (t.locate? directory)
      = (s.beside? t directory c).or ((s.root :: s.directories).findSome?
          fun base => t.locate? directory (base.join (Path.ofString c.path))) := by
  unfold candidates
  dsimp only
  rw [if_neg (by simp [hrelative]), findSome?_eraseDups, List.findSome?_map]
  unfold bases beside?
  dsimp only
  rw [List.findSome?_append]
  cases c.includer with
  | none => rfl
  | some p =>
      rw [List.findSome?_singleton]
      rfl

/-- A call that is located is answered. -/
theorem exists_find_of_locate? {c : Call} {l : Location} (h : s.locate? t directory c = some l) :
    ∃ text, s.find t directory c.path c.includer = .ok text := by
  unfold locate? at h
  cases hfind : s.find t directory c.path c.includer with
  | error fault =>
      rw [hfind] at h
      cases h
  | ok text => exact ⟨text, rfl⟩

/-- Two answered calls for one path are answered by one file if the path does not depend on
where it is asked for, or if the files beside the including ones are the same or both
missing. -/
theorem locate?_eq_of_beside {a c : Call} {texta textc : String} (hpath : a.path = c.path)
    (ha : s.find t directory a.path a.includer = .ok texta)
    (hc : s.find t directory c.path c.includer = .ok textc)
    (hseen : (Path.ofString c.path).isAbsolute = true ∨
      s.beside? t directory a = s.beside? t directory c) :
    s.locate? t directory a = s.locate? t directory c := by
  unfold locate?
  rw [ha, hc]
  dsimp only
  by_cases habsolute : (Path.ofString c.path).isAbsolute = true
  · have hone : ∀ includer, s.candidates c.path includer = [Path.ofString c.path] :=
      fun _ => if_pos habsolute
    rw [hpath, hone, hone]
  · have hrelative : (Path.ofString c.path).isAbsolute = false := by simpa using habsolute
    rw [findSome?_candidates hrelative, findSome?_candidates (by rw [hpath]; exact hrelative),
      hseen.resolve_left habsolute, hpath]

-- ================================================================= what is kept

/-- The calls whose texts a reading has entered by some moves. The text read first counts as
asked for by its own path, from no other text. -/
def entered (own : Option String) (moves : List Move) : List Call :=
  own.toList.map (fun p => ⟨p, none⟩) ++ moves.filterMap Move.entered?

/-- The file that a call leads to is one that some of `calls` lead to, and all that it declares
is in the document. -/
def Keeps (s : Search) (t : FileTree) (directory : Path) (calls : List Call) (d : Document)
    (c : Call) : Prop :=
  ∀ l, s.locate? t directory c = some l →
    (∃ a ∈ calls, s.locate? t directory a = some l) ∧ d.HasPart (t.declaredAt l)

variable {own : Option String} {text : String} {d : Document} {moves : List Move}

/-- In a reading that returns, each path that was entered was answered. -/
theorem answered_of_entered (hown : ∀ p, own = some p → s.find t directory p none = .ok text)
    (hread : (read (some (s.library t directory)) own text).result = .ok d)
    (hmoves : History (s.library t directory) own text moves) {a : Call}
    (ha : a ∈ entered own moves) :
    ∃ body, s.find t directory a.path a.includer = .ok body := by
  rcases List.mem_append.1 ha with hfirst | hcalled
  · obtain ⟨p, hp, rfl⟩ := List.mem_map.1 hfirst
    exact ⟨text, hown p (Option.mem_toList.1 hp)⟩
  · rw [hmoves.of_reading.1] at hcalled
    exact answered_of_read_ok hread a hcalled

/-- In a reading that returns, the text of each path that was entered is a part of the document.
-/
theorem hasPart_of_entered (hown : ∀ p, own = some p → s.find t directory p none = .ok text)
    (hread : (read (some (s.library t directory)) own text).result = .ok d)
    (hmoves : History (s.library t directory) own text moves) {a : Call}
    (ha : a ∈ entered own moves) {l : Location} (hl : s.locate? t directory a = some l) :
    d.HasPart (t.declaredAt l) := by
  refine (gathers_of_read_ok hread).hasPart ?_
  rcases List.mem_append.1 ha with hfirst | hcalled
  · obtain ⟨p, hp, rfl⟩ := List.mem_map.1 hfirst
    obtain ⟨l', bytes, hl', hat, hbytes⟩ :=
      exists_locate?_of_find (c := ⟨p, none⟩) (hown p (Option.mem_toList.1 hp))
    have hplace : l' = l := Option.some.inj (hl'.symm.trans hl)
    subst hplace
    rw [FileTree.declaredAt_of_text hat hbytes]
    exact List.mem_cons_self
  · rw [hmoves.of_reading.1] at hcalled
    have horigin : s.origin? t directory a = some ⟨a.path, l⟩ := by
      unfold origin?
      rw [hl]
      rfl
    exact List.mem_cons_of_mem _
      (List.mem_map_of_mem (List.mem_filterMap.2 ⟨a, hcalled, horigin⟩))

/-- A reading that comes to a document skips a directive only if it has entered a call for the
same path. It loses nothing by that if the path is absolute, or if the files beside the two
including ones are the same or both missing: the file that the directive leads to is then one
that was entered before, and all that it declares is in the document. -/
theorem keeps_skipped_seen_alike
    (hown : ∀ p, own = some p → s.find t directory p none = .ok text)
    (hread : (read (some (s.library t directory)) own text).result = .ok d) :
    (∃ moves, History (s.library t directory) own text moves) ∧
      ∀ moves, History (s.library t directory) own text moves →
        (moves.filterMap Move.entered? = (read (some (s.library t directory)) own text).calls ∧
          (moves.filterMap Move.skipped?).map (·.path)
            = (read (some (s.library t directory)) own text).events.filterMap
              ReadingEvent.skipped?) ∧
        ∀ before c after, moves = before ++ .skipped c :: after →
          (∃ a ∈ entered own before, a.path = c.path) ∧
            ∀ a ∈ entered own before, a.path = c.path →
              ((Path.ofString c.path).isAbsolute = true ∨
                s.beside? t directory a = s.beside? t directory c) →
              s.Keeps t directory (entered own before) d c := by
  refine ⟨exists_history .., fun moves hmoves => ⟨hmoves.of_reading, ?_⟩⟩
  intro before c after hsplit
  refine ⟨?_, fun a ha hpath hseen l hl => ?_⟩
  · rcases hmoves.entered_before hsplit with hfirst | ⟨a, ha, hpath⟩
    · refine ⟨⟨c.path, none⟩, List.mem_append_left _ ?_, rfl⟩
      rw [hfirst]
      exact List.mem_singleton.2 rfl
    · exact ⟨a, List.mem_append_right _ ha, hpath⟩
  -- what was entered before is entered in the end, so its call was answered
  have hlater : a ∈ entered own moves := by
    unfold entered at ha ⊢
    rw [hsplit, List.filterMap_append, ← List.append_assoc]
    exact List.mem_append_left _ ha
  obtain ⟨texta, htexta⟩ := answered_of_entered hown hread hmoves hlater
  obtain ⟨textc, htextc⟩ := exists_find_of_locate? hl
  have hplace : s.locate? t directory a = some l :=
    (locate?_eq_of_beside hpath htexta htextc hseen).trans hl
  exact ⟨⟨a, ha, hplace⟩, hasPart_of_entered hown hread hmoves hlater hplace⟩

-- ================================================================= namesakes

/-- A text that includes one file twice, and another one. -/
def namesakesMain : String := "include \"a/x\" include \"a/x\" include \"b/y\""

/-- Each of the two includes a file beside it, by the same name. -/
def namesakes : FileTree :=
  [("/m", namesakesMain), ("/a/x", "include \"c\""), ("/b/y", "include \"c\""),
    ("/a/c", "#nodeclass A::"), ("/b/c", "#nodeclass B::")].foldl
    (fun t f => t.write (Path.ofString f.1).parts (Text.Utf8.encode f.2)) .empty

/-- The first file enters its neighbour, and is itself skipped when it is named again. The
second file skips its own neighbour, since the name has been entered. -/
theorem namesakes_moved (lib : Library SearchFault)
    (hx : lib.lookup "a/x" (some "/m") = .ok "include \"c\"")
    (hy : lib.lookup "b/y" (some "/m") = .ok "include \"c\"")
    (hA : lib.lookup "c" (some "a/x") = .ok "#nodeclass A::") :
    ∃ v, Moved lib (some "/m") ["a/x", "a/x", "b/y", "c", "c", "a/x", "a/x", "b/y"]
        [.declared (.directive ⟨"a/x", some ⟨1, 1⟩⟩), .declared (.directive ⟨"a/x", some ⟨1, 15⟩⟩),
          .declared (.directive ⟨"b/y", some ⟨1, 29⟩⟩)] none v
        [.entered ⟨"a/x", some "/m"⟩, .entered ⟨"c", some "a/x"⟩, .skipped ⟨"a/x", some "/m"⟩,
          .entered ⟨"b/y", some "/m"⟩, .skipped ⟨"c", some "b/y"⟩] ∧
      v.fault = none ∧ v.nodeClasses = [⟨"A", [], some ⟨1, 12⟩⟩] := by
  have hnamed : Outline.ofText "include \"c\""
      = ⟨[.declared (.directive ⟨"c", some ⟨1, 1⟩⟩)], none⟩ := by decide +kernel
  have hclass : Outline.ofText "#nodeclass A::"
      = ⟨[.marker .nodeClasses, .declared (.nodeClass ⟨"A", [], some ⟨1, 12⟩⟩)], none⟩ := by
    decide +kernel
  have hend : ∀ includer unopened, Moved lib includer unopened [] none (.stop unopened none) [] :=
    fun _ _ => .finished
  let start := ["a/x", "a/x", "b/y", "c", "c", "a/x", "a/x", "b/y"]
  have hopenx : "a/x" ∈ start := by decide
  have hopenA : "c" ∈ without "a/x" start := by decide
  have hshutx : "a/x" ∉ without "c" (without "a/x" start) := by decide
  have hopeny : "b/y" ∈ without "c" (without "a/x" start) := by decide
  have hshutB : "c" ∉ without "b/y" (without "c" (without "a/x" start)) := by decide
  -- the walk, from its last directive to its first
  have hthird := Moved.enter (i := ⟨"b/y", some ⟨1, 29⟩⟩) hnamed hopeny hy
    (.skipped hshutB (hend _ _)) rfl (hend _ _)
  have hsecond := Moved.skipped (i := ⟨"a/x", some ⟨1, 15⟩⟩) hshutx hthird
  have hwithin := Moved.enter (i := ⟨"c", some ⟨1, 1⟩⟩) hclass hopenA hA
    (.plain rfl (.plain rfl (hend _ _))) rfl (hend _ _)
  have hfirst := Moved.enter (i := ⟨"a/x", some ⟨1, 1⟩⟩) hnamed hopenx hx hwithin rfl hsecond
  exact ⟨_, hfirst, rfl, rfl⟩

/-- So does the reading with these files, which comes to a document all the same. -/
theorem namesakes_history :
    History (atRoot.library namesakes ⟨.root, []⟩) (some "/m") namesakesMain
        [.entered ⟨"a/x", some "/m"⟩, .entered ⟨"c", some "a/x"⟩, .skipped ⟨"a/x", some "/m"⟩,
          .entered ⟨"b/y", some "/m"⟩, .skipped ⟨"c", some "b/y"⟩] ∧
      ∃ d, (read (some (atRoot.library namesakes ⟨.root, []⟩)) (some "/m")
          namesakesMain).result = .ok d ∧
        d.nodeClasses = [⟨"A", [], some ⟨1, 12⟩⟩] := by
  have hx : atRoot.find namesakes ⟨.root, []⟩ "a/x" (some "/m") = .ok "include \"c\"" := by
    decide +kernel
  have hy : atRoot.find namesakes ⟨.root, []⟩ "b/y" (some "/m") = .ok "include \"c\"" := by
    decide +kernel
  have hA : atRoot.find namesakes ⟨.root, []⟩ "c" (some "a/x") = .ok "#nodeclass A::" := by
    decide +kernel
  obtain ⟨v, hmoved, hfault, hclasses⟩ :=
    namesakes_moved (atRoot.library namesakes ⟨.root, []⟩) hx hy hA
  have hmain : Outline.ofText namesakesMain
      = ⟨[.declared (.directive ⟨"a/x", some ⟨1, 1⟩⟩),
          .declared (.directive ⟨"a/x", some ⟨1, 15⟩⟩),
          .declared (.directive ⟨"b/y", some ⟨1, 29⟩⟩)], none⟩ := by decide +kernel
  have hunopened : unopenedAtStart (some (atRoot.library namesakes ⟨.root, []⟩)) (some "/m")
      (Outline.ofText namesakesMain)
        = ["a/x", "a/x", "b/y", "c", "c", "a/x", "a/x", "b/y"] := by decide +kernel
  have hwhole : Moved (atRoot.library namesakes ⟨.root, []⟩) (some "/m")
      (unopenedAtStart (some (atRoot.library namesakes ⟨.root, []⟩)) (some "/m")
        (Outline.ofText namesakesMain))
      (Outline.ofText namesakesMain).segments (Outline.ofText namesakesMain).fault v
      [.entered ⟨"a/x", some "/m"⟩, .entered ⟨"c", some "a/x"⟩, .skipped ⟨"a/x", some "/m"⟩,
        .entered ⟨"b/y", some "/m"⟩, .skipped ⟨"c", some "b/y"⟩] := by
    rw [hunopened, hmain]
    exact hmoved
  exact ⟨⟨v, hwhole⟩, _, hwhole.read_ok hfault, hclasses⟩

/-- The file that is named twice from one text is kept: it is skipped as one that was entered,
and its classes are in the document. -/
theorem named_twice_kept :
    (∀ p, some "/m" = some p → atRoot.find namesakes ⟨.root, []⟩ p none = .ok namesakesMain) ∧
      ∃ d, (read (some (atRoot.library namesakes ⟨.root, []⟩)) (some "/m")
          namesakesMain).result = .ok d ∧
        atRoot.Keeps namesakes ⟨.root, []⟩ (entered (some "/m")
          [.entered ⟨"a/x", some "/m"⟩, .entered ⟨"c", some "a/x"⟩]) d ⟨"a/x", some "/m"⟩ := by
  have hown : ∀ p, some "/m" = some p →
      atRoot.find namesakes ⟨.root, []⟩ p none = .ok namesakesMain := by
    rintro p ⟨⟩
    decide +kernel
  obtain ⟨hmoves, d, hd, -⟩ := namesakes_history
  have hkept := ((keeps_skipped_seen_alike hown hd).2 _ hmoves).2
    [.entered ⟨"a/x", some "/m"⟩, .entered ⟨"c", some "a/x"⟩] ⟨"a/x", some "/m"⟩ _ rfl
  exact ⟨hown, d, hd, hkept.2 ⟨"a/x", some "/m"⟩ (by decide) rfl (.inr rfl)⟩

/-- The file that is skipped within the other text lies where none of those that were entered
lies, and the class that it declares is not in the document. -/
theorem namesake_lost :
    atRoot.find namesakes ⟨.root, []⟩ "/m" none = .ok namesakesMain ∧
      ∃ d, (read (some (atRoot.library namesakes ⟨.root, []⟩)) (some "/m")
          namesakesMain).result = .ok d ∧
        ∃ moves, History (atRoot.library namesakes ⟨.root, []⟩) (some "/m") namesakesMain moves ∧
          ∃ before c after l, moves = before ++ .skipped c :: after ∧
            atRoot.locate? namesakes ⟨.root, []⟩ c = some l ∧
            (∀ a ∈ entered (some "/m") before, atRoot.locate? namesakes ⟨.root, []⟩ a ≠ some l) ∧
            ∃ k ∈ (namesakes.declaredAt l).nodeClasses, k ∉ d.nodeClasses := by
  obtain ⟨hmoves, d, hd, hclasses⟩ := namesakes_history
  have hplace : atRoot.locate? namesakes ⟨.root, []⟩ ⟨"c", some "b/y"⟩
      = some (Path.ofString "/b/c").parts := by decide +kernel
  have hdeclared : (namesakes.declaredAt (Path.ofString "/b/c").parts).nodeClasses
      = [⟨"B", [], some ⟨1, 12⟩⟩] := by decide +kernel
  refine ⟨by decide +kernel, d, hd, _, hmoves, [.entered ⟨"a/x", some "/m"⟩,
    .entered ⟨"c", some "a/x"⟩, .skipped ⟨"a/x", some "/m"⟩, .entered ⟨"b/y", some "/m"⟩],
    _, [], _, rfl, hplace, by decide +kernel, ⟨"B", [], some ⟨1, 12⟩⟩, ?_, ?_⟩
  · rw [hdeclared]
    exact List.mem_singleton.2 rfl
  · rw [hclasses]
    decide

end Search

end SystemMap
