/-
What can go wrong on the way from a text to its views. A reading breaks off where some text has
a character or a token that it cannot have, where the library has no text, or where so many texts
include one another that the stack has no room for the next; that is all, if no number is too
long. What comes after a reading does not break off at all: its operations are partial, but each
is only used where it has a value. Of the two fields of ports one is filled
(`combine_stepFields`), an octet that is read as a number is a number of the text, and names
are looked up in layers and rows that have them all (`placeStrictly_eq`).

Memory is bounded by `FitsMemory`, and the stack by the room that a reading is given. No amount
of room is enough for all libraries (`deep_ladder_overflows`), but one text of room for each text
of a library is (`readWithin_of_few`).
-/
import SystemMap.Document.Json
import SystemMap.Proofs.Drawing.Edges
import SystemMap.Proofs.Graph.Numbering
import SystemMap.Proofs.Grammar.Uniform
import SystemMap.Proofs.Reading.Ladder
import SystemMap.Proofs.Reading.Returns

namespace SystemMap

variable {ε : Type}

-- ============================================================ where faults are

/-- A reading breaks off at a character or at a token that some text cannot have. -/
def ReadFault.InText (f : ReadFault ε) : Prop :=
  (∃ e, f = .text (.scan e)) ∨ ∃ m, f = .text (.mismatch m)

/-- If numbers can be read, a fault of a text is one of its characters or tokens. -/
theorem inText_of_readable {text : String} (h : ReadableNumbers text) {f : TextFault}
    (hf : (Outline.ofText text).fault = some f) : (ReadFault.text f : ReadFault ε).InText := by
  unfold Outline.ofText at hf
  cases hscan : scan text with
  | error e =>
      rw [hscan] at hf
      cases hf
      exact .inl ⟨e, rfl⟩
  | ok ts =>
      rw [hscan] at hf
      have halike : ts.Alike ts := ⟨List.forall₂_same.2 fun t _ => ⟨rfl, fun _ => rfl⟩, h ts hscan⟩
      have hfault : TextFault.Agree ts ts (some f) (some f) :=
        hf ▸ (Outline.agree_ofTokensFrom halike none).fault
      cases hfault
      exact .inr ⟨_, rfl⟩

/-- Where the fault of a walk comes from: the end of its own text, a text that the library gave,
or one that it does not have. -/
inductive FaultFrom (lib : Library ε) (fault : Option TextFault) : ReadFault ε → Prop
  | own {f} (h : fault = some f) : FaultFrom lib fault (.text f)
  | given {path includer text f} (hl : lib.lookup path includer = .ok text)
      (h : (Outline.ofText text).fault = some f) : FaultFrom lib fault (.text f)
  | missing {path includer e} (hl : lib.lookup path includer = .error e) :
      FaultFrom lib fault (.library e)

/-- Each fault of a walk comes from its own text, from one that was given, or from a missing one.
-/
theorem Visits.faultFrom {lib : Library ε} {includer : Option String} {unopened : List String}
    {segments : List Segment} {fault : Option TextFault} {v : Visit ε}
    (h : Visits lib includer unopened segments fault v) {f : ReadFault ε}
    (hf : v.fault = some f) : FaultFrom lib fault f := by
  induction h with
  | finished =>
      obtain ⟨e, he, rfl⟩ := Option.map_eq_some_iff.1 hf
      exact .own he
  | plain hs hv ih => exact ih ((meet_fault ..).symm.trans hf)
  | skipped hi hv ih => exact ih hf
  | missing hi hl =>
      cases hf
      exact .missing hl
  | broken hi hl hv hinner ih =>
      -- the end of the included text is one that the library gave
      cases ih hf with
      | own h => exact .given hl h
      | given hl' h => exact .given hl' h
      | missing hl' => exact .missing hl'
  | followed hi hl hv hinner hw ih ihouter => exact ihouter hf

-- ============================================================ ports as fields

namespace PortSpec

/-- Reads the fields of ports: a single port, or the first and the last one. -/
def stepFields : Step (Option Int × Option (Int × Int)) :=
  (Step.expect .number .port).bind fun first =>
  (Step.accept .dash).bind fun ranged =>
  if ranged then
    (Step.expect .number .lastPort).bind fun last =>
    (Step.numeral first).bind fun a =>
    (Step.numeral last).bind fun b => Step.pure (none, some (a, b))
  else (Step.numeral first).map fun n => (some n, none)

/-- The check of the fields accepts whatever was read into them. -/
theorem combine_stepFields (protocol : Protocol) :
    stepFields.map (fun f => combine protocol f.1 f.2)
      = stepPorts.map fun ports => some ⟨protocol, ports⟩ := by
  unfold stepFields stepPorts Step.map
  rw [Step.bind_assoc, Step.bind_assoc]
  congr 1
  funext first
  rw [Step.bind_assoc, Step.bind_assoc]
  congr 1
  funext ranged
  cases ranged with
  | true => simp only [if_true, Step.bind_assoc, Step.pure_bind, combine]
  | false => simp only [Bool.false_eq_true, if_false, Step.bind_assoc, Step.pure_bind, combine]

end PortSpec

-- =============================================================== placements

namespace Document

/-- The boxes of a view, if a layer and a row are found for each. -/
def placeStrictly (d : Document) (m : Metrics) (view : View) : Option (List (PlacedEntity Int)) :=
  let g := Graph.build ((d.nodesOf view).map (·.name)) (d.edgesOf view)
  let rows := g.rows fun name => g.layer name
  (d.nodesOf view).mapM fun n => do
    let layer ← g.layers.lookup n.name
    let row ← List.lookup n.name rows
    return n.place m view layer row

/-- If each item gives something, so do all. -/
theorem mapM_eq_some_map {α β : Type} {f : α → Option β} {g : α → β} {as : List α}
    (h : ∀ a ∈ as, f a = some (g a)) : as.mapM f = some (as.map g) := by
  induction as with
  | nil => rfl
  | cons a as ih =>
      obtain ⟨ha, has⟩ := List.forall_mem_cons.1 h
      rw [List.mapM_cons, ha, ih has]
      rfl

/-- Layers and rows are found for all boxes. -/
theorem placeStrictly_eq (d : Document) (m : Metrics) (view : View) :
    d.placeStrictly m view = some (d.place m view).entities := by
  rw [place_eq_ofNodes]
  refine mapM_eq_some_map fun n hn => ?_
  generalize hg : Graph.build ((d.nodesOf view).map (·.name)) (d.edgesOf view) = g
  have hproper : g.Proper := hg ▸ Graph.proper_build ..
  have hname : n.name ∈ g.names := by
    rw [← hg]
    exact List.mem_eraseDups.2 (List.mem_map_of_mem hn)
  have hdone : n.name ∈ Graph.namesOf g.layers := (Graph.settled_layers hproper).2.mem_iff.2 hname
  obtain ⟨layer, hlayer⟩ : ∃ layer, g.layers.lookup n.name = some layer :=
    Option.ne_none_iff_exists'.1 fun hnone => Graph.lookup_eq_none_iff.1 hnone hdone
  obtain ⟨row, hrow⟩ := Graph.isSome_lookup_rows hproper.nodup (fun name => g.layer name) hname
  have hlayerOf : g.layer n.name = layer := by
    unfold Graph.layer
    rw [hlayer]
    rfl
  show ((g.layers.lookup n.name).bind fun layer =>
      (List.lookup n.name (g.rows fun name => g.layer name)).bind fun row =>
        some (n.place m view layer row)) =
    some (n.place m view (g.layer n.name) ((g.rows fun name => g.layer name).row n.name))
  rw [hlayer, hrow, hlayerOf, Graph.Rows.row_of_lookup hrow]
  rfl

end Document

-- ================================================================== the whole

/-- A library that gives no other texts than these, each under its own path. -/
def Library.GivesAmong (texts : List (String × String)) (lib : Library ε) : Prop :=
  ∀ {path includer text}, lib.lookup path includer = .ok text → (path, text) ∈ texts

/-- A table of texts gives no others. -/
theorem Library.givesAmong_ofTexts (texts : List (String × String)) :
    (Library.ofTexts texts).GivesAmong texts := by
  intro path includer text h
  obtain ⟨before, after, rfl, -⟩ := List.lookup_eq_some_iff.1 (ofTexts_lookup_ok_iff.1 h)
  exact List.mem_append_right _ List.mem_cons_self

/-- Each text is included once at most, so the included ones fit into memory with all of them. -/
theorem Gathered.fitsMemory {library : Option (Library ε)} {text : String}
    {included texts : List (String × String)} {d : Document}
    (h : Gathered library text included d) (hgives : ∀ lib ∈ library, lib.GivesAmong texts)
    (hmemory : FitsMemory (text :: texts.map (·.2))) :
    FitsMemory (text :: included.map (·.2)) := by
  have hsub : included ⊆ texts := by
    intro entry hentry
    obtain ⟨lib, includer, hlib, hlookup⟩ := h.answers entry hentry
    exact hgives lib hlib hlookup
  obtain ⟨few, hperm, hfew⟩ := (List.Nodup.of_map _ h.once).subperm hsub
  have hsum : ((included.map (·.2)).map String.length).sum ≤
      ((texts.map (·.2)).map String.length).sum := by
    rw [((hperm.map (·.2)).map String.length).sum_nat.symm]
    exact ((hfew.map (·.2)).map String.length).sum_le_sum fun _ _ => Nat.zero_le _
  refine log2_lt_of_le ?_ hmemory
  rw [List.map_cons, List.map_cons, List.sum_cons, List.sum_cons]
  exact Nat.add_le_add_left hsum _

/-- A reading breaks off in some text, or where the library has none. -/
theorem fault_of_read {library : Option (Library ε)} {path : Option String} {text : String}
    (hnumbers : ReadableNumbers text)
    (hgiven : ∀ lib ∈ library, ∀ p includer t, lib.lookup p includer = .ok t → ReadableNumbers t)
    {f : ReadFault ε} (hf : (read library path text).result = .error f) :
    f.InText ∨
      ∃ lib ∈ library, ∃ p includer e, lib.lookup p includer = .error e ∧ f = .library e := by
  cases library with
  | none =>
      unfold read at hf
      rw [reading_alone] at hf
      dsimp only at hf
      split at hf
      · next e he =>
        cases hf
        exact .inl (inText_of_readable hnumbers he)
      · cases hf
  | some lib =>
      have hwalk := visits_follow lib path (unopenedAtStart (some lib) path (Outline.ofText text))
        (Outline.ofText text).segments (Outline.ofText text).fault
      unfold read Outline.reading at hf
      dsimp only at hf
      split at hf
      · next e he =>
        cases hf
        cases hwalk.faultFrom he with
        | own h => exact .inl (inText_of_readable hnumbers h)
        | given hl h => exact .inl (inText_of_readable (hgiven lib rfl _ _ _ hl) h)
        | missing hl => exact .inr ⟨lib, rfl, _, _, _, hl, rfl⟩
      · cases hf

/-- A reading on a bounded stack comes to what the reading without bounds comes to, or it runs out
of room in a chain of texts that is too long; without a library there is none. -/
theorem readWithin_eq_or_noRoom (room : Nat) (library : Option (Library ε)) (path : Option String)
    (text : String) :
    readWithin room library path text = (read library path text).bounded ∨
      ∃ lib ∈ library, (readWithin room library path text).result = .error (.library .noRoom) ∧
        ∃ chain, lib.HasChain path text chain ∧ room < chain.length := by
  cases library with
  | none => exact .inl (readWithin_alone room path text)
  | some lib => exact (readWithin_cases room lib path text).imp_right fun h => ⟨lib, rfl, h⟩

/-- No reading runs out of room if there is room for all texts of the library. -/
theorem readWithin_of_few {room : Nat} {library : Option (Library ε)}
    {texts : List (String × String)} (hgives : ∀ lib ∈ library, lib.GivesAmong texts)
    (hfew : texts.length ≤ room) (path : Option String) (text : String) :
    readWithin room library path text = (read library path text).bounded := by
  refine (readWithin_eq_or_noRoom room library path text).resolve_right ?_
  rintro ⟨lib, hlib, -, chain, hchain, hlong⟩
  have hlength := hchain.included.length_le (hgives lib hlib) hchain.distinct
  omega

/-- A bound that is not met changes no document. -/
theorem bounded_ok_iff {r : Reading ε} {d : Document} :
    r.bounded.result = .ok d ↔ r.result = .ok d := by
  unfold Reading.bounded
  cases r.result <;> simp [Except.mapError]

/-- A reading that comes to a document comes to the same one without bounds on the stack. -/
theorem read_of_readWithin {room : Nat} {library : Option (Library ε)} {path : Option String}
    {text : String} {d : Document} (h : (readWithin room library path text).result = .ok d) :
    (read library path text).result = .ok d := by
  rcases readWithin_eq_or_noRoom room library path text with hsame | ⟨-, -, hnone, -⟩
  · exact bounded_ok_iff.1 (hsame ▸ h)
  · cases hnone.symm.trans h

/-- A text is read, with a library or without, on a stack with room for `room` texts inside one
another, and no run of digits in it or in a text of the library is too long to be a number.
Reading comes to a document, or to a fault of some text at a character or at a token, or to an
error of the library itself; the check of ports by their fields refuses none. Or else it runs out
of room, which takes more than `room` different texts of the library, each of which includes the
next. Whatever document it comes to, its check returns and both views are drawn with the usual
measures, unless the texts are too large for any memory. Both views find a layer and a row for
each box and are written as flowcharts in every direction, and every octet of an address can be
read as a number. -/
theorem read_and_used_without_fault (room : Nat) {library : Option (Library ε)} {text : String}
    {texts : List (String × String)} (hgives : ∀ lib ∈ library, lib.GivesAmong texts)
    (hruns : ∀ t ∈ text :: texts.map (·.2), ShortRuns t.toList) (path : Option String) :
    ((∃ d, (readWithin room library path text).result = .ok d) ∨
      (∃ e, (readWithin room library path text).result = .error (.text (.scan e))) ∨
      (∃ m, (readWithin room library path text).result = .error (.text (.mismatch m))) ∨
      (∃ lib ∈ library, ∃ p includer e, lib.lookup p includer = .error e ∧
        (readWithin room library path text).result = .error (.library (.missing e))) ∨
      ∃ lib ∈ library, (readWithin room library path text).result = .error (.library .noRoom) ∧
        ∃ chain, lib.HasChain path text chain ∧ room < chain.length) ∧
    (∀ protocol, PortSpec.stepFields.map (fun f => PortSpec.combine protocol f.1 f.2)
      = PortSpec.stepPorts.map fun ports => some ⟨protocol, ports⟩) ∧
    ∀ d, (readWithin room library path text).result = .ok d →
      (FitsMemory (text :: texts.map (·.2)) →
        (∃ r, d.check = .ok r) ∧ ∀ view, ∃ g, d.draw {} view = .ok g) ∧
      (∀ view, d.placeStrictly {} view = some (d.place {} view).entities ∧
        ∀ direction, ∃ s, Flowchart.render d view direction = .ok s) ∧
      ∀ a ∈ d.addresses, ∀ o ∈ octets a.1, ∃ n, Text.Numeral.read (String.ofList o) = .ok n := by
  have hnumbers : ReadableNumbers text := (hruns text List.mem_cons_self).readableNumbers
  have hgiven : ∀ lib ∈ library, ∀ p includer t, lib.lookup p includer = .ok t →
      ReadableNumbers t := by
    intro lib hlib p includer t hl
    have hmem : t ∈ texts.map (·.2) := List.mem_map.2 ⟨_, hgives lib hlib hl, rfl⟩
    exact (hruns t (List.mem_cons_of_mem _ hmem)).readableNumbers
  refine ⟨?_, PortSpec.combine_stepFields, fun d hd => ?_⟩
  · rcases readWithin_eq_or_noRoom room library path text with hsame | hover
    · rw [hsame]
      unfold Reading.bounded
      cases hresult : (read library path text).result with
      | ok d => exact .inl ⟨d, rfl⟩
      | error f =>
          right
          rcases fault_of_read hnumbers hgiven hresult with (⟨e, rfl⟩ | ⟨m, rfl⟩) | hlibrary
          · exact .inl ⟨e, rfl⟩
          · exact .inr (.inl ⟨m, rfl⟩)
          · obtain ⟨lib, hlib, p, includer, e, hl, rfl⟩ := hlibrary
            exact .inr (.inr (.inl ⟨lib, hlib, p, includer, e, hl, rfl⟩))
    · exact .inr (.inr (.inr (.inr hover)))
  · obtain ⟨included, h⟩ := exists_gathered (read_of_readWithin hd)
    refine ⟨fun hmemory => ?_, fun view => ⟨d.placeStrictly_eq {} view, h.render_returns view⟩,
      h.octets_readable hnumbers⟩
    have hfits := h.fitsMemory hgives hmemory
    exact ⟨h.check_returns hnumbers hfits, h.draw_returns hfits⟩

/-- A text with a range of ports and an address, and the text that it includes. -/
def ranged : String := "include \"l\" #nodeclass A:: x (80-81) #instances A a (10.0.0.1)"
def laterClass : List (String × String) := [("l", "#nodeclass B:: *y (UDP(53))")]

/-- A text with a range and an include, read with room for one text and put to all uses. -/
theorem ranged_used : ∃ d,
    (readWithin 1 (some (Library.ofTexts laterClass)) none ranged).result = .ok d ∧
    d.nodeClasses.length = 2 ∧ (∃ r, d.check = .ok r) ∧
    (∃ g, d.draw {} .instances = .ok g) ∧
    ∃ s, Flowchart.render d .schema .leftToRight = .ok s := by
  have houter : Outline.ofText ranged =
      ⟨[.declared (.directive ⟨"l", some ⟨1, 1⟩⟩), .marker .nodeClasses,
        .declared (.nodeClass ⟨"A", [⟨"x", .server, [⟨.tcp, .range 80 81⟩], some ⟨1, 28⟩⟩],
          some ⟨1, 24⟩⟩), .marker .instances,
        .declared (.instances ⟨"A", [⟨"a", some "10.0.0.1", some ⟨1, 51⟩⟩], some ⟨1, 49⟩⟩)],
        none⟩ := by
    decide +kernel
  have hinner : Outline.ofText "#nodeclass B:: *y (UDP(53))" =
      ⟨[.marker .nodeClasses, .declared (.nodeClass ⟨"B",
        [⟨"y", .client, [⟨.udp, .single 53⟩], some ⟨1, 16⟩⟩], some ⟨1, 12⟩⟩)], none⟩ := by
    decide +kernel
  have hread : ∃ d, (read (some (Library.ofTexts laterClass)) none ranged).result = .ok d ∧
      d.nodeClasses.length = 2 := by
    simp [read, Outline.reading, houter, hinner, unopenedAtStart, Outline.includePaths,
      Outline.declarations, Library.ofTexts, Library.pathsOf, laterClass, follow, without,
      Visit.join, Visit.gatherNode, Visit.stop]
  obtain ⟨d, hd, hlength⟩ := hread
  have hgives : ∀ lib ∈ some (Library.ofTexts laterClass), lib.GivesAmong laterClass := by
    intro lib hlib
    cases hlib
    exact Library.givesAmong_ofTexts laterClass
  have hwithin : (readWithin 1 (some (Library.ofTexts laterClass)) none ranged).result = .ok d := by
    rw [readWithin_of_few hgives (Nat.le_refl 1)]
    exact bounded_ok_iff.2 hd
  have hruns : ∀ t ∈ ranged :: laterClass.map (·.2), ShortRuns t.toList := by
    intro t ht run hrun _
    have hshort : ∀ t ∈ ranged :: laterClass.map (·.2), t.toList.length ≤ 100 := by decide +kernel
    exact Nat.le_trans hrun.length_le (Nat.le_trans (hshort t ht) (by decide))
  obtain ⟨hmemory, hviews, -⟩ :=
    (read_and_used_without_fault 1 hgives hruns none).2.2 d hwithin
  obtain ⟨hcheck, hdraw⟩ := hmemory (show Nat.log2 _ < 1000 by decide +kernel)
  exact ⟨d, hwithin, hlength, hcheck, hdraw .instances, (hviews .schema).2 .leftToRight⟩

/-- There is no digit in a rung of a ladder. -/
theorem shortRuns_includeLine (k : Nat) : ShortRuns (includeLine (rung k)).toList := by
  have hfixed : ("include \"".toList ++ "\"\n".toList).all (!isDigit ·) = true := by decide
  have hletters : ∀ c ∈ (includeLine (rung k)).toList, isDigit c = false := by
    intro c hc
    simp only [includeLine, rung, String.toList_append, String.toList_ofList, List.mem_append] at hc
    rcases hc with (hstart | hrung) | hend
    · simpa using List.all_eq_true.1 hfixed c (List.mem_append_left _ hstart)
    · rw [List.eq_of_mem_replicate hrung]
      rfl
    · simpa using List.all_eq_true.1 hfixed c (List.mem_append_right _ hend)
  intro run hrun hdigits
  cases run with
  | nil => exact Nat.zero_le _
  | cons c run =>
      have hdigit := hdigits c List.mem_cons_self
      rw [hletters c (hrun.subset List.mem_cons_self)] at hdigit
      cases hdigit

/-- A thousand texts, none of which has a number, can include one another. The usual stack has no
room for them. -/
theorem deep_ladder_overflows :
    (∀ t ∈ includeLine (rung 0) :: (ladder 1000).map (·.2), ShortRuns t.toList) ∧
    (readWithin usualRoom (some (Library.ofTexts (ladder 1000))) none
      (includeLine (rung 0))).result = .error (.library .noRoom) := by
  refine ⟨List.forall_mem_cons.2 ⟨shortRuns_includeLine 0, fun t ht => ?_⟩,
    readWithin_ladder (by decide)⟩
  obtain ⟨entry, hentry, rfl⟩ := List.mem_map.1 ht
  obtain ⟨k, -, rfl⟩ := List.mem_map.1 hentry
  exact shortRuns_includeLine (k + 1)

end SystemMap
