/-
What the events of a reading account for. Every directive of a text that is read comes to one
event, which says either that a text was entered and read to its end, or that its path had been
entered before. Calls are made on the way into the included texts and events on the way out, so
that a text is reported after those that were entered from it, with all that they brought along.

`Visit.Ledger` puts beside each event the text whose directive it is about, and
`Visit.Balanced` says that the classes of a text are its own and those brought from the texts
entered from it. Both are kept by each step of the walk. What carries them over from an
included text to what comes after it is that the two walks share no text
(`Visits.texts_disjoint`): so no entry of the one is about a text of the other.
-/
import Mathlib.Algebra.Group.Nat.Defs
import Mathlib.Algebra.Group.Prod
import SystemMap.Proofs.Reading.Answers

namespace SystemMap

variable {ε : Type}

-- ======================================================== events of directives

namespace ReadingEvent

/-- The path of the directive that an event is about, if it is about one. -/
def path? : ReadingEvent → Option String
  | .notFollowed p _ => some p
  | .followed p _ _ _ => some p
  | .passed _ _ _ => none

/-- The call whose text an event reports as read. -/
def followed? : ReadingEvent → Option Call
  | .followed p includer _ _ => some ⟨p, includer⟩
  | _ => none

/-- The node classes and link classes that an event reports for a text that was entered from
the text of `u`. -/
def broughtTo (u : Option String) : ReadingEvent → Nat × Nat
  | .followed _ includer n k => if includer = u then (n, k) else (0, 0)
  | _ => (0, 0)

end ReadingEvent

/-- The classes that all texts entered from the text of `u` have brought to it. -/
def brought (u : Option String) (events : List ReadingEvent) : Nat × Nat :=
  events.foldr (fun e total => e.broughtTo u + total) (0, 0)

/-- The node classes and link classes of a document, counted. -/
def Document.tally (d : Document) : Nat × Nat := (d.nodeClasses.length, d.linkClasses.length)

/-- The paths of the directives of the text of `u` that some entries are about. -/
def reported (entries : List (Option String × ReadingEvent)) (u : Option String) :
    List String :=
  (entries.filter (·.1 = u)).filterMap (·.2.path?)

/-- Adding nothing to two counts. -/
theorem none_add (n : Nat × Nat) : (0, 0) + n = n := zero_add n

theorem add_none (n : Nat × Nat) : n + (0, 0) = n := add_zero n

/-- What the first event brings, and what the later ones bring. -/
theorem brought_cons (u : Option String) (e : ReadingEvent) (later : List ReadingEvent) :
    brought u (e :: later) = e.broughtTo u + brought u later := rfl

/-- What events bring adds up. -/
theorem brought_append (u : Option String) (a b : List ReadingEvent) :
    brought u (a ++ b) = brought u a + brought u b := by
  induction a with
  | nil => exact (none_add _).symm
  | cons e a ih => rw [List.cons_append, brought_cons, brought_cons, ih, add_assoc]

/-- Nothing is brought to a text from which no text is entered. -/
theorem brought_eq_none {u : Option String} {events : List ReadingEvent}
    (h : ∀ c ∈ events.filterMap ReadingEvent.followed?, c.includer ≠ u) :
    brought u events = (0, 0) := by
  induction events with
  | nil => rfl
  | cons e later ih =>
      have hlater : brought u later = (0, 0) := ih fun c hc => h c <| by
        cases hcall : e.followed? with
        | none => rwa [List.filterMap_cons_none hcall]
        | some b =>
            rw [List.filterMap_cons_some hcall]
            exact List.mem_cons_of_mem _ hc
      have hone : e.broughtTo u = (0, 0) := by
        cases e with
        | followed p includer n k => exact if_neg (h ⟨p, includer⟩ List.mem_cons_self)
        | _ => rfl
      rw [brought_cons, hone, hlater, add_none]

/-- Reports on one text stay in order when entries are put together. -/
theorem reported_append (a b : List (Option String × ReadingEvent)) (u : Option String) :
    reported (a ++ b) u = reported a u ++ reported b u := by
  unfold reported
  rw [List.filter_append, List.filterMap_append]

/-- An entry of the text in question reports its path. -/
theorem reported_cons_self {u : Option String} {e : ReadingEvent} {p : String}
    (he : e.path? = some p) (later : List (Option String × ReadingEvent)) :
    reported ((u, e) :: later) u = p :: reported later u := by
  unfold reported
  rw [List.filter_cons_of_pos (by simp)]
  exact List.filterMap_cons_some he

/-- An entry of another text reports nothing on this one. -/
theorem reported_cons_of_ne {u u' : Option String} (h : u ≠ u') (e : ReadingEvent)
    (later : List (Option String × ReadingEvent)) :
    reported ((u, e) :: later) u' = reported later u' := by
  unfold reported
  rw [List.filter_cons_of_neg (by simpa using h)]

/-- Nothing is reported on a text that no entry is of. -/
theorem reported_eq_nil {entries : List (Option String × ReadingEvent)} {u : Option String}
    (h : ∀ entry ∈ entries, entry.1 ≠ u) : reported entries u = [] := by
  unfold reported
  rw [List.filter_eq_nil_iff.2 fun entry hentry => by simpa using h entry hentry,
    List.filterMap_nil]

-- ============================================================ texts of a walk

/-- The texts of a visit by their paths: the one whose directives it follows, and those that it
opens. -/
def Visit.texts (asker : Option String) (v : Visit ε) : List (Option String) :=
  asker :: v.opened.map some

section Texts

variable {lib : Library ε} {asker : Option String} {unopened : List String}
  {segments : List Segment} {fault : Option TextFault} {v : Visit ε}

/-- The text that a call opened is among the texts of the walk. -/
theorem mem_texts_of_call {c : Call} (hc : c ∈ v.calls) : some c.path ∈ v.texts asker :=
  List.mem_cons_of_mem _ (List.mem_map_of_mem (List.mem_map_of_mem hc))

/-- A walk that opens a text has the texts of both its parts. -/
theorem mem_texts_join {p : String} {inner outer : Visit ε} {u : Option String} :
    u ∈ (inner.join ⟨p, asker⟩ outer).texts asker ↔
      u ∈ inner.texts (some p) ∨ u ∈ outer.texts asker := by
  have hopened : (inner.join ⟨p, asker⟩ outer).opened = p :: inner.opened ++ outer.opened := by
    simp [Visit.join, Visit.opened]
  unfold Visit.texts
  rw [hopened, List.map_append, List.map_cons]
  simp only [List.mem_cons, List.mem_append]
  tauto

/-- Calls are made from texts of the walk only. -/
theorem Visits.includer_mem_texts (h : Visits lib asker unopened segments fault v) {c : Call}
    (hc : c ∈ v.calls) : c.includer ∈ v.texts asker := by
  rcases h.asked c hc with ⟨hown, -⟩ | ⟨a, ha, hother, -⟩
  · rw [hown]
    exact List.mem_cons_self
  · rw [hother]
    exact mem_texts_of_call ha

/-- The walk through an included text and that through the rest of the including one have no
text in common. -/
theorem Visits.texts_disjoint {i : Include} {text : String} {later : List Segment}
    {inner outer : Visit ε} (hasker : ∀ p ∈ unopened, asker ≠ some p) (hi : i.path ∈ unopened)
    (hin : Visits lib (some i.path) (without i.path unopened) (Outline.ofText text).segments
      (Outline.ofText text).fault inner)
    (hout : Visits lib asker inner.unopened later fault outer) :
    ∀ u ∈ inner.texts (some i.path), ∀ u' ∈ outer.texts asker, u ≠ u' := by
  intro u hu u' hu'
  -- what the first walk reads was unopened, and is not any more when the second one begins
  have hfirst : ∃ p, u = some p ∧ p ∈ unopened ∧ p ∉ inner.unopened := by
    rcases List.mem_cons.1 hu with rfl | hopened
    · exact ⟨_, rfl, hi, fun hp => (mem_without.1 (hin.unopened_subset hp)).2 rfl⟩
    · obtain ⟨p, hp, rfl⟩ := List.mem_map.1 hopened
      exact ⟨p, rfl, (mem_without.1 (hin.opens.before p hp)).1,
        fun hleft => ((hin.opens.after p).1 hleft).2 hp⟩
  obtain ⟨p, rfl, hp, hshut⟩ := hfirst
  rcases List.mem_cons.1 hu' with rfl | hopened
  · exact (hasker p hp).symm
  · obtain ⟨q, hq, rfl⟩ := List.mem_map.1 hopened
    rintro ⟨rfl⟩
    exact hshut (hout.opens.before _ hq)

/-- A text that could not be entered still cannot be after a walk. -/
theorem Visits.asker_stays {q : String} {own : Option String} {inner : Visit ε}
    (hasker : ∀ p ∈ unopened, asker ≠ some p)
    (hin : Visits lib own (without q unopened) segments fault inner) :
    ∀ p ∈ inner.unopened, asker ≠ some p := fun p hp =>
  hasker p (mem_without.1 (hin.unopened_subset hp)).1

/-- A text that is included is not open to its own walk. -/
theorem some_ne_of_mem_without {p : String} :
    ∀ q ∈ without p unopened, (some p : Option String) ≠ some q := by
  rintro q hq ⟨rfl⟩
  exact (mem_without.1 hq).2 rfl

end Texts

/-- A segment by itself reports no more than that a token was passed over. -/
theorem meet_events (s : Segment) (v : Visit ε) :
    (v.meet s).events = v.events ∨
      ∃ current kind position, (v.meet s).events = .passed current kind position :: v.events := by
  cases s with
  | passed current kind position => exact .inr ⟨current, kind, position, rfl⟩
  | marker s => exact .inl rfl
  | declared d => cases d <;> exact .inl rfl

/-- A segment that is passed leaves no event of a directive. -/
theorem filterMap_meet_events {α : Type} {f : ReadingEvent → Option α} (s : Segment)
    (v : Visit ε) (hf : ∀ current kind position, f (.passed current kind position) = none) :
    (v.meet s).events.filterMap f = v.events.filterMap f := by
  rcases meet_events s v with h | ⟨current, kind, position, h⟩
  · rw [h]
  · rw [h, List.filterMap_cons_none (hf current kind position)]

/-- The calls that are told as followed are those inside, then the call itself, then those behind.
-/
theorem followed_join (call : Call) (inner outer : Visit ε) :
    (inner.join call outer).events.filterMap ReadingEvent.followed?
      = inner.events.filterMap ReadingEvent.followed? ++
        call :: outer.events.filterMap ReadingEvent.followed? := by
  unfold Visit.join
  rw [List.filterMap_append]
  rfl

-- ===================================================== calls in and events out

section Followed

variable {lib : Library ε} {asker : Option String} {unopened : List String}
  {segments : List Segment} {fault : Option TextFault} {v : Visit ε}

/-- A walk that ends without a fault reports every call, and no more. -/
theorem Visits.followed_perm (h : Visits lib asker unopened segments fault v)
    (hv : v.fault = none) : (v.events.filterMap ReadingEvent.followed?).Perm v.calls := by
  induction h with
  | finished => exact List.Perm.refl _
  | @plain _ _ s _ _ v hs hx ih =>
      rw [filterMap_meet_events s v fun _ _ _ => rfl, meet_calls]
      exact ih (by simpa using hv)
  | skipped hi hx ih => exact ih hv
  | missing hi hl => cases hv
  | broken hi hl hx hf ih => cases hf.symm.trans hv
  | @followed asker _ i _ _ _ inner outer hi hl hx hf hy ih ihouter =>
      rw [followed_join]
      calc (inner.events.filterMap ReadingEvent.followed? ++
            ⟨i.path, asker⟩ :: outer.events.filterMap ReadingEvent.followed?).Perm
            (inner.calls ++ ⟨i.path, asker⟩ :: outer.calls) :=
              (ih hf).append ((ihouter hv).cons _)
        _ |>.Perm (⟨i.path, asker⟩ :: inner.calls ++ outer.calls) := List.perm_middle

/-- What is reported as read was asked for by a text of the walk and is one itself. -/
theorem Visits.texts_of_followed (h : Visits lib asker unopened segments fault v)
    (hv : v.fault = none) : ∀ c ∈ v.events.filterMap ReadingEvent.followed?,
      c.includer ∈ v.texts asker ∧ some c.path ∈ v.texts asker := by
  intro c hc
  have hcall := (h.followed_perm hv).mem_iff.1 hc
  exact ⟨h.includer_mem_texts hcall, mem_texts_of_call hcall⟩

/-- No text is reported after the one from which it was entered. -/
theorem Visits.followed_pairwise (h : Visits lib asker unopened segments fault v)
    (hv : v.fault = none) (hasker : ∀ p ∈ unopened, asker ≠ some p) :
    (v.events.filterMap ReadingEvent.followed?).Pairwise
      fun a b => b.includer ≠ some a.path := by
  induction h with
  | finished => exact .nil
  | @plain _ _ s _ _ v hs hx ih =>
      rw [filterMap_meet_events s v fun _ _ _ => rfl]
      exact ih (by simpa using hv) hasker
  | skipped hi hx ih => exact ih hv hasker
  | missing hi hl => cases hv
  | broken hi hl hx hf ih => cases hf.symm.trans hv
  | @followed asker _ i _ _ _ inner outer hi hl hx hf hy ih ihouter =>
      have hleft := Visits.asker_stays hasker hx
      have happart := Visits.texts_disjoint hasker hi hx hy
      have hin := hx.texts_of_followed hf
      have hout := hy.texts_of_followed hv
      rw [followed_join]
      refine List.pairwise_append.2 ⟨ih hf some_ne_of_mem_without, List.pairwise_cons.2
        ⟨fun b hb => ?_, ihouter hv hleft⟩, fun a ha b hb => ?_⟩
      · exact (happart _ List.mem_cons_self _ (hout b hb).1).symm
      · rcases List.mem_cons.1 hb with rfl | hb
        · exact (happart _ (hin a ha).2 _ List.mem_cons_self).symm
        · exact (happart _ (hin a ha).2 _ (hout b hb).1).symm

/-- With a library at hand, a directive is not followed only if its path was entered before. -/
theorem Visits.alreadyEntered (h : Visits lib asker unopened segments fault v) {p : String}
    {reason : NotFollowed} (he : .notFollowed p reason ∈ v.events) :
    reason = .alreadyEntered := by
  induction h with
  | finished => cases he
  | @plain _ _ s _ _ v hs hx ih =>
      rcases meet_events s v with h | ⟨current, kind, position, h⟩
      · exact ih (h ▸ he)
      · rw [h] at he
        exact ih ((List.mem_cons.1 he).resolve_left nofun)
  | skipped hi hx ih =>
      rcases List.mem_cons.1 he with he | he
      · cases he
        rfl
      · exact ih he
  | missing hi hl => cases he
  | broken hi hl hx hf ih => exact ih he
  | followed hi hl hx hf hy ih ihouter =>
      rcases List.mem_append.1 he with he | he
      · exact ih he
      · exact ihouter ((List.mem_cons.1 he).resolve_left nofun)

end Followed

-- ================================================================== the ledger

/-- The events of a visit that are about directives, each with the text of its directive: those
of one text are about its directives, one for each, in their order. -/
structure Visit.Ledger (lib : Library ε) (asker : Option String) (segments : List Segment)
    (v : Visit ε) (entries : List (Option String × ReadingEvent)) : Prop where
  events : entries.map (·.2) = v.events.filter (·.path?.isSome)
  texts : ∀ entry ∈ entries, entry.1 ∈ v.texts asker
  includer : ∀ entry ∈ entries, ∀ c, entry.2.followed? = some c → c.includer = entry.1
  home : reported entries asker = (segments.filterMap Segment.directive?).map (·.path)
  entered : ∀ c ∈ v.calls, ∃ body, lib.lookup c.path c.includer = .ok body ∧
    reported entries (some c.path) = (Outline.ofText body).includePaths

namespace Visit.Ledger

variable {lib : Library ε} {asker : Option String} {later : List Segment} {v : Visit ε}
  {entries : List (Option String × ReadingEvent)}

/-- Where a walk stops, no directive is left and no event made. -/
theorem stop (unopened : List String) (fault : Option (ReadFault ε)) :
    (Visit.stop unopened fault).Ledger lib asker [] [] :=
  ⟨rfl, List.forall_mem_nil _, List.forall_mem_nil _, rfl, List.forall_mem_nil _⟩

/-- A segment that is no directive changes no account. -/
theorem meet {s : Segment} (hs : s.directive? = none) (h : v.Ledger lib asker later entries) :
    (v.meet s).Ledger lib asker (s :: later) entries := by
  constructor
  · rw [h.events]
    rcases meet_events s v with heq | ⟨current, kind, position, heq⟩
    · rw [heq]
    · rw [heq]
      rfl
  · unfold Visit.texts
    rw [meet_opened]
    exact h.texts
  · exact h.includer
  · rw [List.filterMap_cons_none hs]
    exact h.home
  · rw [meet_calls]
    exact h.entered

/-- A directive that was entered before has one entry, under the text that it stands in. -/
theorem skip {i : Include} (hasker : ∀ c ∈ v.calls, asker ≠ some c.path)
    (h : v.Ledger lib asker later entries) :
    (v.report (.notFollowed i.path .alreadyEntered)).Ledger lib asker
      (.declared (.directive i) :: later)
      ((asker, .notFollowed i.path .alreadyEntered) :: entries) := by
  constructor
  · exact congrArg (_ :: ·) h.events
  · exact List.forall_mem_cons.2 ⟨List.mem_cons_self, h.texts⟩
  · exact List.forall_mem_cons.2 ⟨nofun, h.includer⟩
  · rw [reported_cons_self rfl, h.home]
    rfl
  · intro c hc
    rw [reported_cons_of_ne (hasker c hc)]
    exact h.entered c hc

/-- The ledger of an included text, the event that reports it, and the ledger of what comes
after its directive. -/
theorem join {i : Include} {text : String} {inner outer : Visit ε}
    {within after : List (Option String × ReadingEvent)}
    (happart : ∀ u ∈ inner.texts (some i.path), ∀ u' ∈ outer.texts asker, u ≠ u')
    (hasker : ∀ c ∈ outer.calls, asker ≠ some c.path)
    (hl : lib.lookup i.path asker = .ok text)
    (hin : inner.Ledger lib (some i.path) (Outline.ofText text).segments within)
    (hout : outer.Ledger lib asker later after) :
    (inner.join ⟨i.path, asker⟩ outer).Ledger lib asker (.declared (.directive i) :: later)
      (within ++ (asker, .followed i.path asker inner.nodeClasses.length
        inner.linkClasses.length) :: after) := by
  -- the entries of a text that one of the walks reads are those that this walk has for it
  have hwithin : ∀ u ∈ outer.texts asker, reported within u = [] := fun u hu =>
    reported_eq_nil fun entry he => happart _ (hin.texts entry he) u hu
  have hafter : ∀ u ∈ inner.texts (some i.path), reported after u = [] := fun u hu =>
    reported_eq_nil fun entry he => (happart u hu _ (hout.texts entry he)).symm
  have hinner : ∀ u ∈ inner.texts (some i.path), ∀ e, reported (within ++ (asker, e) :: after) u
      = reported within u := by
    intro u hu e
    have hne : asker ≠ u := (happart u hu asker List.mem_cons_self).symm
    rw [reported_append, reported_cons_of_ne hne, hafter u hu, List.append_nil]
  constructor
  · show _ = (inner.events ++ _ :: outer.events).filter _
    rw [List.map_append, List.map_cons, hin.events, hout.events, List.filter_append,
      List.filter_cons_of_pos rfl]
  · refine List.forall_mem_append.2 ⟨fun entry he => mem_texts_join.2 (.inl (hin.texts entry he)),
      List.forall_mem_cons.2 ⟨List.mem_cons_self, fun entry he =>
        mem_texts_join.2 (.inr (hout.texts entry he))⟩⟩
  · refine List.forall_mem_append.2 ⟨hin.includer, List.forall_mem_cons.2 ⟨?_, hout.includer⟩⟩
    rintro c ⟨⟩
    rfl
  · rw [reported_append, hwithin asker List.mem_cons_self, List.nil_append,
      reported_cons_self rfl, hout.home]
    rfl
  · intro c hc
    rcases List.mem_append.1 hc with hc | hc
    · rcases List.mem_cons.1 hc with rfl | hc
      · refine ⟨text, hl, ?_⟩
        rw [hinner _ List.mem_cons_self, hin.home, includePaths_eq]
      · rw [hinner _ (mem_texts_of_call hc)]
        exact hin.entered c hc
    · rw [reported_append, hwithin _ (mem_texts_of_call hc), List.nil_append,
        reported_cons_of_ne (hasker c hc)]
      exact hout.entered c hc

end Visit.Ledger

section Run

variable {lib : Library ε} {asker : Option String} {unopened : List String}
  {segments : List Segment} {fault : Option TextFault} {v : Visit ε}

/-- A walk never opens the text that it was started for, since that is taken for opened. -/
theorem Visits.asker_ne_path (h : Visits lib asker unopened segments fault v)
    (hasker : ∀ p ∈ unopened, asker ≠ some p) : ∀ c ∈ v.calls, asker ≠ some c.path :=
  fun _ hc => hasker _ (h.opens.before _ (List.mem_map_of_mem hc))

/-- A walk that ends without a fault has a ledger. -/
theorem Visits.exists_ledger (h : Visits lib asker unopened segments fault v)
    (hv : v.fault = none) (hasker : ∀ p ∈ unopened, asker ≠ some p) :
    ∃ entries, v.Ledger lib asker segments entries := by
  induction h with
  | finished => exact ⟨[], .stop _ _⟩
  | plain hs hx ih =>
      obtain ⟨entries, h⟩ := ih (by simpa using hv) hasker
      exact ⟨entries, h.meet hs⟩
  | skipped hi hx ih =>
      obtain ⟨entries, h⟩ := ih hv hasker
      exact ⟨_, h.skip (hx.asker_ne_path hasker)⟩
  | missing hi hl => cases hv
  | broken hi hl hx hf ih => cases hf.symm.trans hv
  | followed hi hl hx hf hy ih ihouter =>
      have hleft := Visits.asker_stays hasker hx
      obtain ⟨within, hin⟩ := ih hf some_ne_of_mem_without
      obtain ⟨after, hout⟩ := ihouter hv hleft
      exact ⟨_, .join (Visits.texts_disjoint hasker hi hx hy) (hy.asker_ne_path hleft) hl hin hout⟩

end Run

-- ================================================================= the balance

/-- The classes of a text are those that it declares and those brought from the texts that were
entered from it: for the text whose directives a visit follows, and for each that is reported
as read. -/
structure Visit.Balanced (lib : Library ε) (asker : Option String) (segments : List Segment)
    (v : Visit ε) : Prop where
  home : (v.nodeClasses.length, v.linkClasses.length)
    = (Document.ofSegments segments).tally + brought asker v.events
  entered : ∀ p includer n k, .followed p includer n k ∈ v.events →
    ∃ body, lib.lookup p includer = .ok body ∧
      (n, k) = (Outline.ofText body).document.tally + brought (some p) v.events

namespace Visit.Balanced

variable {lib : Library ε} {asker : Option String} {later : List Segment} {v : Visit ε}

/-- A segment that is passed brings nothing. -/
theorem brought_meet (u : Option String) (s : Segment) (v : Visit ε) :
    brought u (v.meet s).events = brought u v.events := by
  rcases meet_events s v with h | ⟨current, kind, position, h⟩
  · rw [h]
  · rw [h, brought_cons]
    exact none_add _

/-- Classes are counted segment by segment. -/
theorem tally_cons (s : Segment) (later : List Segment) :
    (Document.ofSegments (s :: later)).tally
      = (s.nodeClass?.toList.length, s.linkClass?.toList.length)
        + (Document.ofSegments later).tally := by
  unfold Document.tally Document.ofSegments
  dsimp only
  rw [filterMap_cons_toList, filterMap_cons_toList, List.length_append, List.length_append]
  rfl

/-- A walk that stops has brought nothing. -/
theorem stop (unopened : List String) (fault : Option (ReadFault ε)) :
    (Visit.stop unopened fault).Balanced lib asker [] :=
  ⟨rfl, nofun⟩

/-- What a segment declares itself is in its own text's count. -/
theorem meet (s : Segment) (h : v.Balanced lib asker later) :
    (v.meet s).Balanced lib asker (s :: later) := by
  constructor
  · rw [brought_meet, tally_cons, add_assoc, ← h.home, meet_nodeClasses, meet_linkClasses,
      List.length_append, List.length_append]
    rfl
  · intro p includer n k he
    rw [brought_meet]
    refine h.entered p includer n k ?_
    rcases meet_events s v with heq | ⟨current, kind, position, heq⟩
    · exact heq ▸ he
    · rw [heq] at he
      exact (List.mem_cons.1 he).resolve_left nofun

/-- A directive that was entered before brings nothing. -/
theorem skip (i : Include) (h : v.Balanced lib asker later) :
    (v.report (.notFollowed i.path .alreadyEntered)).Balanced lib asker
      (.declared (.directive i) :: later) := by
  have hsame : ∀ u, brought u (v.report (.notFollowed i.path .alreadyEntered)).events
      = brought u v.events := fun u => none_add _
  constructor
  · rw [hsame, tally_cons, add_assoc, ← h.home]
    exact (none_add _).symm
  · intro p includer n k he
    rw [hsame]
    exact h.entered p includer n k ((List.mem_cons.1 he).resolve_left nofun)

/-- The balance of an included text and that of what comes after its directive. What the text
brought is told by the event that reports it. -/
theorem join {i : Include} {text : String} {inner outer : Visit ε}
    (happart : ∀ u ∈ inner.texts (some i.path), ∀ u' ∈ outer.texts asker, u ≠ u')
    (hasker : ∀ c ∈ outer.events.filterMap ReadingEvent.followed?, asker ≠ some c.path)
    (hinner : ∀ c ∈ inner.events.filterMap ReadingEvent.followed?,
      c.includer ∈ inner.texts (some i.path) ∧ some c.path ∈ inner.texts (some i.path))
    (houter : ∀ c ∈ outer.events.filterMap ReadingEvent.followed?,
      c.includer ∈ outer.texts asker ∧ some c.path ∈ outer.texts asker)
    (hl : lib.lookup i.path asker = .ok text)
    (hin : inner.Balanced lib (some i.path) (Outline.ofText text).segments)
    (hout : outer.Balanced lib asker later) :
    (inner.join ⟨i.path, asker⟩ outer).Balanced lib asker (.declared (.directive i) :: later) := by
  have hsum : ∀ u, brought u (inner.join ⟨i.path, asker⟩ outer).events
      = brought u inner.events +
        ((if asker = u then (inner.nodeClasses.length, inner.linkClasses.length) else (0, 0)) +
          brought u outer.events) := fun u => brought_append u _ _
  have hnone : ∀ u ∈ outer.texts asker, brought u inner.events = (0, 0) := fun u hu =>
    brought_eq_none fun c hc => happart _ (hinner c hc).1 u hu
  -- to a text of the first walk, nothing is brought behind it
  have hfirst : ∀ u ∈ inner.texts (some i.path),
      brought u (inner.join ⟨i.path, asker⟩ outer).events = brought u inner.events := by
    intro u hu
    have hlater : brought u outer.events = (0, 0) :=
      brought_eq_none fun c hc => (happart u hu _ (houter c hc).1).symm
    have hne : asker ≠ u := (happart u hu asker List.mem_cons_self).symm
    rw [hsum, if_neg hne, hlater, add_none, add_none]
  have hnodes : (inner.join ⟨i.path, asker⟩ outer).nodeClasses.length
      = inner.nodeClasses.length + outer.nodeClasses.length := List.length_append
  have hlinks : (inner.join ⟨i.path, asker⟩ outer).linkClasses.length
      = inner.linkClasses.length + outer.linkClasses.length := List.length_append
  constructor
  · rw [hsum, hnone asker List.mem_cons_self, if_pos rfl, none_add, tally_cons, add_assoc,
      add_left_comm (Document.tally _), ← hout.home, hnodes, hlinks]
    exact (none_add _).symm
  · intro p includer n k he
    rcases List.mem_append.1 he with he | he
    · have hp : some p ∈ inner.texts (some i.path) :=
        (hinner ⟨p, includer⟩ (List.mem_filterMap.2 ⟨_, he, rfl⟩)).2
      rw [hfirst _ hp]
      exact hin.entered p includer n k he
    rcases List.mem_cons.1 he with he | he
    · cases he
      refine ⟨text, hl, ?_⟩
      rw [hfirst _ List.mem_cons_self, document_eq_ofSegments]
      exact hin.home
    · have hcall : ⟨p, includer⟩ ∈ outer.events.filterMap ReadingEvent.followed? :=
        List.mem_filterMap.2 ⟨_, he, rfl⟩
      rw [hsum, hnone _ (houter _ hcall).2, if_neg (hasker _ hcall), none_add, none_add]
      exact hout.entered p includer n k he

end Visit.Balanced

section Run

variable {lib : Library ε} {asker : Option String} {unopened : List String}
  {segments : List Segment} {fault : Option TextFault} {v : Visit ε}

/-- A walk that ends without a fault is balanced. -/
theorem Visits.balanced (h : Visits lib asker unopened segments fault v)
    (hv : v.fault = none) (hasker : ∀ p ∈ unopened, asker ≠ some p) :
    v.Balanced lib asker segments := by
  induction h with
  | finished => exact .stop _ _
  | plain hs hx ih => exact (ih (by simpa using hv) hasker).meet _
  | skipped hi hx ih => exact (ih hv hasker).skip _
  | missing hi hl => cases hv
  | broken hi hl hx hf ih => cases hf.symm.trans hv
  | followed hi hl hx hf hy ih ihouter =>
      have hleft := Visits.asker_stays hasker hx
      exact .join (Visits.texts_disjoint hasker hi hx hy)
        (fun c hc => hy.asker_ne_path hleft c ((hy.followed_perm hv).mem_iff.1 hc))
        (hx.texts_of_followed hf) (hy.texts_of_followed hv) hl (ih hf some_ne_of_mem_without)
        (ihouter hv hleft)

end Run

-- ================================================================== the reading

/-- The texts of a reading by their paths: the one read first, which may have a path of its
own, and those that answered the calls. -/
inductive IsRead (lib : Library ε) (own : Option String) (text : String) (calls : List Call) :
    Option String → String → Prop
  | first : IsRead lib own text calls own text
  | included {c body} (hc : c ∈ calls) (hl : lib.lookup c.path c.includer = .ok body) :
      IsRead lib own text calls (some c.path) body

/-- If a reading comes to a document, the events of its directives are those of a ledger: each
is about a directive of a text that is read, those of one text are about its directives, one
for each, in their order, and a text is reported as read with the one it was entered from. A
directive that is not followed is one whose path was entered before. The texts reported as read
are those that were asked for, each once, and none after the one it was entered from. The
classes reported of a text are those that it declares and those reported of the texts entered
from it, and so it is for the document. -/
theorem directives_accounted {lib : Library ε} {own : Option String} {text : String}
    {d : Document} (h : (read (some lib) own text).result = .ok d) :
    (∃ entries : List (Option String × ReadingEvent),
        entries.map (·.2) = (read (some lib) own text).events.filter (·.path?.isSome) ∧
        (∀ entry ∈ entries,
          (∃ body, IsRead lib own text (read (some lib) own text).calls entry.1 body) ∧
          ∀ c, entry.2.followed? = some c → c.includer = entry.1) ∧
        ∀ u body, IsRead lib own text (read (some lib) own text).calls u body →
          reported entries u = (Outline.ofText body).includePaths) ∧
      (∀ p reason, .notFollowed p reason ∈ (read (some lib) own text).events →
        reason = .alreadyEntered) ∧
      ((read (some lib) own text).events.filterMap ReadingEvent.followed?).Perm
        (read (some lib) own text).calls ∧
      (read (some lib) own text).opened.Nodup ∧
      ((read (some lib) own text).events.filterMap ReadingEvent.followed?).Pairwise
        (fun a b => b.includer ≠ some a.path) ∧
      (∀ p includer n k, .followed p includer n k ∈ (read (some lib) own text).events →
        ∃ body, lib.lookup p includer = .ok body ∧
          (n, k) = (Outline.ofText body).document.tally +
            brought (some p) (read (some lib) own text).events) ∧
      d.tally = (Outline.ofText text).document.tally +
        brought own (read (some lib) own text).events := by
  obtain ⟨hv, rfl⟩ := read_ok_iff.1 h
  have hwalk := visits_firstVisit lib own text
  have hasker : ∀ p ∈ unopenedAtStart (some lib) own (Outline.ofText text), own ≠ some p :=
    fun p hp => (mem_unopenedAtStart.1 hp).2
  obtain ⟨entries, hledger⟩ := hwalk.exists_ledger hv hasker
  have hbalance := hwalk.balanced hv hasker
  refine ⟨⟨entries, hledger.events, fun entry he => ⟨?_, hledger.includer entry he⟩, ?_⟩,
    fun p reason he => hwalk.alreadyEntered he, hwalk.followed_perm hv, hwalk.opens.once,
    hwalk.followed_pairwise hv hasker, hbalance.entered, ?_⟩
  · rcases List.mem_cons.1 (hledger.texts entry he) with hown | hopened
    · exact ⟨text, hown ▸ .first⟩
    · obtain ⟨p, hp, hkey⟩ := List.mem_map.1 hopened
      obtain ⟨c, hc, rfl⟩ := List.mem_map.1 hp
      obtain ⟨body, hbody, -⟩ := hledger.entered c hc
      exact ⟨body, hkey ▸ .included hc hbody⟩
  · intro u body hread
    cases hread with
    | first => rw [hledger.home, includePaths_eq]
    | included hc hl =>
        obtain ⟨body', hbody', hnamed⟩ := hledger.entered _ hc
        cases hl.symm.trans hbody'
        exact hnamed
  · rw [document_eq_ofSegments]
    exact hbalance.home

/-- Two texts that include one another, and themselves. -/
def ring : List (String × String) :=
  [("a", "include \"b\" include \"a\" #nodeclass A::"), ("b", "include \"a\" #nodeclass B::")]

def ringMain : String := "include \"a\" include \"b\" #nodeclass C::"

/-- Three texts that include one another, as they are read and told. -/
theorem ring_read :
    ∃ d, (read (some (Library.ofTexts ring)) none ringMain).result = .ok d ∧
      (read (some (Library.ofTexts ring)) none ringMain).events
        = [.notFollowed "a" .alreadyEntered, .followed "b" (some "a") 1 0,
          .notFollowed "a" .alreadyEntered, .followed "a" none 2 0,
          .notFollowed "b" .alreadyEntered] := by
  have hmain : Outline.ofText ringMain
      = ⟨[.declared (.directive ⟨"a", some ⟨1, 1⟩⟩), .declared (.directive ⟨"b", some ⟨1, 13⟩⟩),
          .marker .nodeClasses, .declared (.nodeClass ⟨"C", [], some ⟨1, 36⟩⟩)], none⟩ := by
    decide +kernel
  have ha : Outline.ofText "include \"b\" include \"a\" #nodeclass A::"
      = ⟨[.declared (.directive ⟨"b", some ⟨1, 1⟩⟩), .declared (.directive ⟨"a", some ⟨1, 13⟩⟩),
          .marker .nodeClasses, .declared (.nodeClass ⟨"A", [], some ⟨1, 36⟩⟩)], none⟩ := by
    decide +kernel
  have hb : Outline.ofText "include \"a\" #nodeclass B::"
      = ⟨[.declared (.directive ⟨"a", some ⟨1, 1⟩⟩), .marker .nodeClasses,
          .declared (.nodeClass ⟨"B", [], some ⟨1, 24⟩⟩)], none⟩ := by decide +kernel
  simp [read, Outline.reading, hmain, ha, hb, unopenedAtStart, Outline.includePaths,
    Outline.declarations, Library.ofTexts, Library.pathsOf, ring, follow, without, Visit.join,
    Visit.gatherNode, Visit.report, Visit.stop]

/-- The classes of the reading are the one that its text declares and the two that the text
entered from it brought, one of which was brought to that text in turn. -/
theorem ring_accounted :
    ∃ d, (read (some (Library.ofTexts ring)) none ringMain).result = .ok d ∧
      ((read (some (Library.ofTexts ring)) none ringMain).events.filterMap
        ReadingEvent.followed?).Perm (read (some (Library.ofTexts ring)) none ringMain).calls ∧
      d.tally = (Outline.ofText ringMain).document.tally + (2, 0) := by
  obtain ⟨d, hd, hevents⟩ := ring_read
  obtain ⟨-, -, hcalls, -, -, -, htally⟩ := directives_accounted hd
  have hbrought : brought none [.notFollowed "a" .alreadyEntered, .followed "b" (some "a") 1 0,
      .notFollowed "a" .alreadyEntered, .followed "a" none 2 0,
      .notFollowed "b" .alreadyEntered] = (2, 0) := rfl
  refine ⟨d, hd, hcalls, ?_⟩
  rw [htally, hevents, hbrought]

end SystemMap
