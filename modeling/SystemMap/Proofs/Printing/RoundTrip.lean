/-
Printing and reading undo one another. A writable document, printed and read again, is what
it was up to its positions; and what is read from any text is writable. So printing loses
nothing that reading can yield.

The way back runs through the three layers one by one: the printed text is scanned into its
lexemes, these are split into the segments that were printed, and the segments collect to
the document.
-/
import SystemMap.Proofs.Printing.Readable
import SystemMap.Proofs.Printing.Respell
import SystemMap.Proofs.Printing.Spaced
import SystemMap.Proofs.Grammar.Split
import SystemMap.Proofs.Scan.Derivation

namespace SystemMap

-- ===================================================== documents as segments

/-- Segments of one section, before segments that may follow them. -/
theorem Orderly.append {current : Option Section} {segments later : List Segment}
    (h : ∀ s ∈ segments, s.Fits current ∧ s.Writable ∧ s.sectionAfter current = current)
    (hlater : Orderly current later) : Orderly current (segments ++ later) := by
  induction segments with
  | nil => exact hlater
  | cons s segments ih =>
      obtain ⟨hfits, hw, hsame⟩ := h s List.mem_cons_self
      refine ⟨hfits, hw, ?_⟩
      rw [hsame]
      exact ih fun s hs => h s (List.mem_cons_of_mem _ hs)

/-- Declarations of one section, before segments that may follow them. -/
theorem Orderly.declared {α : Type} {current : Option Section} (make : α → Declaration)
    (hfits : ∀ a, (Segment.declared (make a)).Fits current) {as : List α}
    (hw : ∀ a ∈ as, (make a).Writable) {later : List Segment} (hlater : Orderly current later) :
    Orderly current (as.map (.declared ∘ make) ++ later) := by
  refine Orderly.append (fun s hs => ?_) hlater
  obtain ⟨a, ha, rfl⟩ := List.mem_map.1 hs
  exact ⟨hfits a, hw a ha, rfl⟩

/-- The segments of a writable document stand in their sections. -/
theorem Document.Writable.orderly {d : Document} (h : d.Writable) : Orderly none d.segments := by
  have hconnections : Orderly (some .connections)
      (d.connections.map (.declared ∘ .connection)) := by
    rw [← List.append_nil (d.connections.map _)]
    exact Orderly.declared .connection (fun _ => rfl) h.connections trivial
  unfold Document.segments
  simp only [List.append_assoc, List.cons_append]
  exact Orderly.declared .directive (fun _ => trivial) h.includes ⟨trivial, trivial,
    Orderly.declared .nodeClass (fun _ => rfl) h.nodeClasses ⟨trivial, trivial,
    Orderly.declared .linkClass (fun _ => rfl) h.linkClasses ⟨trivial, trivial,
    Orderly.declared .instances (fun _ => rfl) h.instances ⟨trivial, trivial,
    Orderly.declared .translation (fun _ => rfl) h.translations ⟨trivial, trivial,
      hconnections⟩⟩⟩⟩⟩

/-- Segments that are printed in order can be written. -/
theorem Orderly.writable {current : Option Section} {segments : List Segment}
    (h : Orderly current segments) : ∀ s ∈ segments, s.Writable := by
  induction segments generalizing current with
  | nil => nofun
  | cons s segments ih =>
      intro s' hs
      rcases List.mem_cons.1 hs with rfl | hs
      · exact h.2.1
      · exact ih h.2.2 s' hs

/-- A document collects from its segments. -/
theorem ofSegments_segments (d : Document) : Document.ofSegments d.segments = d := by
  have hnone : ∀ {α β : Type} (as : List α), as.filterMap (fun _ => (none : Option β)) = [] :=
    fun as => List.filterMap_eq_nil_iff.2 fun _ _ => rfl
  unfold Document.ofSegments Document.segments
  simp only [List.filterMap_append, List.filterMap_cons, List.filterMap_map, Function.comp_def]
  dsimp only [Segment.directive?, Segment.nodeClass?, Segment.linkClass?, Segment.instances?,
    Segment.translation?, Segment.connection?]
  simp only [hnone, List.filterMap_some, List.append_nil, List.nil_append]

/-- Writable segments collect to a writable document. -/
theorem writable_ofSegments {segments : List Segment} (h : ∀ s ∈ segments, s.Writable) :
    (Document.ofSegments segments).Writable := by
  constructor
  all_goals
    intro a ha
    obtain ⟨s, hs, ha⟩ := List.mem_filterMap.1 ha
    have hw := h s hs
    cases s with
    | declared d =>
        cases d <;> cases ha
        exact hw
    | _ => cases ha

/-- Collecting one list of a document and leaving places out can be exchanged. -/
theorem filterMap_unplaced {α : Type} {project : Segment → Option α} {unplaced : α → α}
    (h : ∀ s, project s.unplaced = (project s).map unplaced) (segments : List Segment) :
    (segments.map Segment.unplaced).filterMap project
      = (segments.filterMap project).map unplaced := by
  rw [List.filterMap_map, List.map_filterMap]
  congr 1
  funext s
  exact h s

/-- Places do not tell what is put together. -/
theorem ofSegments_unplaced (segments : List Segment) :
    Document.ofSegments (segments.map Segment.unplaced)
      = (Document.ofSegments segments).unplaced := by
  unfold Document.ofSegments Document.unplaced
  congr 1
  all_goals
    refine filterMap_unplaced (fun s => ?_) segments
    cases s with
    | declared d => cases d <;> rfl
    | _ => rfl

-- ============================================================ the way back

/-- Segments in their order, read from any spaced layout of their lexemes. -/
theorem outline_of_layout {segments : List Segment} (h : Orderly none segments)
    {layout : Layout} (hspaced : layout.Spaced [])
    (hlexemes : layout.lexemes = segments.flatMap fun s => Layout.lexemes s.ink) :
    ∃ found, Outline.ofText (String.ofList layout.text) = ⟨found, none⟩ ∧
      found.map Segment.unplaced = segments.map Segment.unplaced := by
  obtain ⟨ts, hscan, htokens⟩ := scan_spaced hspaced (.gap .nil)
  rw [List.append_nil] at hscan
  obtain ⟨parts, hsplit, hparts⟩ := respell_segments h (htokens.trans hlexemes)
  refine ⟨parts.map Prod.fst, ?_, hparts⟩
  unfold Outline.ofText
  rw [hscan]
  exact hsplit.outline ts.finish

/-- The segments of a printed document, read again. -/
theorem outline_print {d : Document} (h : d.Writable) :
    ∃ segments, Outline.ofText d.print = ⟨segments, none⟩ ∧
      segments.map Segment.unplaced = d.segments.map Segment.unplaced := by
  refine outline_of_layout h.orderly (spaced_lines h.orderly.writable []) ?_
  rw [linesInk, lexemes_flatMap]
  congr 1
  funext s
  exact (Layout.lexemes_append ..).trans (List.append_nil _)

variable {ε : Type}

/-- A document that can be written is read back from its print, at other places. -/
theorem read_print {d : Document} (h : d.Writable) (path : Option String) :
    ∃ d', (read (none : Option (Library ε)) path d.print).result = .ok d' ∧
      d'.unplaced = d.unplaced := by
  obtain ⟨segments, houtline, hsegments⟩ := outline_print h
  refine ⟨.ofSegments segments, result_alone_ok_iff.2 ?_, ?_⟩
  · rw [houtline]
    exact ⟨rfl, rfl⟩
  · rw [← ofSegments_unplaced, hsegments, ofSegments_unplaced, ofSegments_segments]

/-- Whatever is read can be written. -/
theorem writable_of_read {text : String} {path : Option String} {d : Document}
    (h : (read (none : Option (Library ε)) path text).result = .ok d) : d.Writable := by
  obtain ⟨hfault, rfl⟩ := result_alone_ok_iff.1 h
  unfold Outline.ofText at hfault ⊢
  cases hscan : scan text with
  | error e =>
      rw [hscan] at hfault
      cases hfault
  | ok ts =>
      rw [hscan] at hfault
      obtain ⟨parts, hsplit⟩ := exists_split hfault
      have houtline : Outline.ofTokens ts = _ := hsplit.outline ts.finish
      dsimp only
      rw [houtline]
      exact writable_ofSegments (hsplit.writable (scans_of_scanFrom hscan).sound)

/-- A writable document is printed so that it is read again, up to its positions. Documents
that are read are writable, so printing what was read and reading it again is the identity
up to positions. -/
theorem read_print_identity (path : Option String) :
    (∀ d : Document, d.Writable →
      ∃ d', (read (none : Option (Library ε)) path d.print).result = .ok d' ∧
        d'.unplaced = d.unplaced) ∧
    (∀ text d, (read (none : Option (Library ε)) path text).result = .ok d → d.Writable) ∧
    ∀ text d, (read (none : Option (Library ε)) path text).result = .ok d →
      ∃ d', (read (none : Option (Library ε)) path d.print).result = .ok d' ∧
        d'.unplaced = d.unplaced :=
  ⟨fun _ h => read_print h path, fun _ _ h => writable_of_read h,
    fun _ _ h => read_print (writable_of_read h) path⟩

example : Document.print
    ⟨[⟨"lib", none⟩],
      [⟨"Web", [⟨"http", .server, [⟨.tcp, .range 80 81⟩, ⟨.udp, .single 53⟩], none⟩,
        ⟨"db", .client, [], none⟩], none⟩],
      [⟨⟨"Web", "db"⟩, ⟨"Db", "sql"⟩, none⟩],
      [⟨"Web", [⟨"w1", some "10.0.0.1", none⟩, ⟨"w2", none, none⟩], none⟩],
      [⟨"out", "1.2.3.4", "10.0.0.1", none⟩],
      [⟨"w1", "out", none⟩]⟩
    = "include \"lib\"\n#nodeclass\nWeb:: http (80-81, UDP(53)) *db\n#linkclass\n" ++
      "Web.db -> Db.sql\n#instances\nWeb w1(10.0.0.1), w2\n#nats\n" ++
      "@out (1.2.3.4, 10.0.0.1)\n#connections\nw1 -> out\n" := by decide +kernel

end SystemMap
