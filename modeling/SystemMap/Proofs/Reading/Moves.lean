/-
The history of a walk through includes. At each directive the walk either enters the path or
skips it, and a history lists these moves in the order in which they happen, those within an
included text after the move that enters it. A visit tells which paths were entered and which
skipped, but not what had been entered before a path was skipped; a history does.

`Moved` is the derivation of a visit once more, with the moves beside it. Every visit has a
history and a walk has one visit (`Visits.exists_moved`, `Visits.unique`), so a history of a
text speaks of the visit that its reading is made of. What matters of a history is that a path
is skipped only after it was entered, unless the walk could not enter it from the start
(`Moved.closed_of_skipped`).
-/
import SystemMap.Proofs.Reading.Answers

namespace SystemMap

variable {ε : Type}

-- ================================================================== histories

/-- What a walk does at a directive. -/
inductive Move where
  | entered (c : Call)
  | skipped (c : Call)
deriving DecidableEq

/-- The call that a move makes. -/
def Move.entered? : Move → Option Call
  | .entered c => some c
  | .skipped _ => none

/-- The call that a move does without. -/
def Move.skipped? : Move → Option Call
  | .entered _ => none
  | .skipped c => some c

/-- The path that an event reports as entered before. -/
def ReadingEvent.skipped? : ReadingEvent → Option String
  | .notFollowed p .alreadyEntered => some p
  | _ => none

/-- `Moved lib includer unopened segments fault v moves`: following the directives among
`segments`, in the text of `includer` that ends with `fault`, comes to `v` by `moves`. -/
inductive Moved (lib : Library ε) : Option String → List String → List Segment →
    Option TextFault → Visit ε → List Move → Prop
  | finished {includer unopened fault} :
      Moved lib includer unopened [] fault (.stop unopened (fault.map .text)) []
  | plain {includer unopened s later fault v moves} (hs : s.directive? = none)
      (hv : Moved lib includer unopened later fault v moves) :
      Moved lib includer unopened (s :: later) fault (v.meet s) moves
  | skipped {includer unopened i later fault v moves} (hi : i.path ∉ unopened)
      (hv : Moved lib includer unopened later fault v moves) :
      Moved lib includer unopened (.declared (.directive i) :: later) fault
        (v.report (.notFollowed i.path .alreadyEntered)) (.skipped ⟨i.path, includer⟩ :: moves)
  | missing {includer unopened i later fault e} (hi : i.path ∈ unopened)
      (hl : lib.lookup i.path includer = .error e) :
      Moved lib includer unopened (.declared (.directive i) :: later) fault
        ((Visit.stop (without i.path unopened) (some (.library e))).ask ⟨i.path, includer⟩)
        [.entered ⟨i.path, includer⟩]
  | broken {includer unopened i later fault text inner f moves} (hi : i.path ∈ unopened)
      (hl : lib.lookup i.path includer = .ok text)
      (hv : Moved lib (some i.path) (without i.path unopened)
        (Outline.ofText text).segments (Outline.ofText text).fault inner moves)
      (hf : inner.fault = some f) :
      Moved lib includer unopened (.declared (.directive i) :: later) fault
        (inner.ask ⟨i.path, includer⟩) (.entered ⟨i.path, includer⟩ :: moves)
  | followed {includer unopened i later fault text inner outer within after}
      (hi : i.path ∈ unopened) (hl : lib.lookup i.path includer = .ok text)
      (hv : Moved lib (some i.path) (without i.path unopened)
        (Outline.ofText text).segments (Outline.ofText text).fault inner within)
      (hf : inner.fault = none)
      (hw : Moved lib includer inner.unopened later fault outer after) :
      Moved lib includer unopened (.declared (.directive i) :: later) fault
        (inner.join ⟨i.path, includer⟩ outer)
        (.entered ⟨i.path, includer⟩ :: (within ++ after))

/-- A directive followed into a text whose outline is known. -/
theorem Moved.enter {lib : Library ε} {includer : Option String} {unopened : List String}
    {i : Include} {later : List Segment} {fault : Option TextFault} {text : String}
    {o : Outline} {inner outer : Visit ε} {within after : List Move}
    (ho : Outline.ofText text = o) (hi : i.path ∈ unopened)
    (hl : lib.lookup i.path includer = .ok text)
    (hv : Moved lib (some i.path) (without i.path unopened) o.segments o.fault inner within)
    (hf : inner.fault = none) (hw : Moved lib includer inner.unopened later fault outer after) :
    Moved lib includer unopened (.declared (.directive i) :: later) fault
      (inner.join ⟨i.path, includer⟩ outer)
      (.entered ⟨i.path, includer⟩ :: (within ++ after)) := by
  subst ho
  exact .followed hi hl hv hf hw

section Histories

variable {lib : Library ε} {includer : Option String} {unopened : List String}
  {segments : List Segment} {fault : Option TextFault} {v : Visit ε} {moves : List Move}

/-- A walk with a history is a walk. -/
theorem Moved.visits (h : Moved lib includer unopened segments fault v moves) :
    Visits lib includer unopened segments fault v := by
  induction h with
  | finished => exact .finished
  | plain hs _ ih => exact .plain hs ih
  | skipped hi _ ih => exact .skipped hi ih
  | missing hi hl => exact .missing hi hl
  | broken hi hl _ hf ih => exact .broken hi hl ih hf
  | followed hi hl _ hf _ ih ihouter => exact .followed hi hl ih hf ihouter

/-- Each walk has a history. -/
theorem Visits.exists_moved (h : Visits lib includer unopened segments fault v) :
    ∃ moves, Moved lib includer unopened segments fault v moves := by
  induction h with
  | finished => exact ⟨_, .finished⟩
  | plain hs _ ih =>
      obtain ⟨moves, hv⟩ := ih
      exact ⟨moves, .plain hs hv⟩
  | skipped hi _ ih =>
      obtain ⟨moves, hv⟩ := ih
      exact ⟨_, .skipped hi hv⟩
  | missing hi hl => exact ⟨_, .missing hi hl⟩
  | broken hi hl _ hf ih =>
      obtain ⟨moves, hv⟩ := ih
      exact ⟨_, .broken hi hl hv hf⟩
  | followed hi hl _ hf _ ih ihouter =>
      obtain ⟨within, hv⟩ := ih
      obtain ⟨after, hw⟩ := ihouter
      exact ⟨_, .followed hi hl hv hf hw⟩

/-- A walk comes to one thing only. -/
theorem Visits.unique {w : Visit ε} (h : Visits lib includer unopened segments fault v)
    (h' : Visits lib includer unopened segments fault w) : v = w := by
  induction h generalizing w with
  | finished => cases h' with | finished => rfl
  | plain hs _ ih =>
      cases h' with
      | plain _ hw => rw [ih hw]
      | _ => cases hs
  | skipped hi _ ih =>
      cases h' with
      | plain hs => cases hs
      | skipped _ hw => rw [ih hw]
      | missing hi' | broken hi' | followed hi' => exact absurd hi' hi
  | missing hi hl =>
      cases h' with
      | plain hs => cases hs
      | skipped hi' => exact absurd hi hi'
      | missing _ hl' => cases hl.symm.trans hl'; rfl
      | broken _ hl' | followed _ hl' => cases hl.symm.trans hl'
  | broken hi hl _ hf ih =>
      cases h' with
      | plain hs => cases hs
      | skipped hi' => exact absurd hi hi'
      | missing _ hl' => cases hl.symm.trans hl'
      | broken _ hl' hw =>
        cases hl.symm.trans hl'
        rw [ih hw]
      | followed _ hl' hw hg =>
        cases hl.symm.trans hl'
        rw [ih hw, hg] at hf
        cases hf
  | followed hi hl _ hf _ ih ihouter =>
      cases h' with
      | plain hs => cases hs
      | skipped hi' => exact absurd hi hi'
      | missing _ hl' => cases hl.symm.trans hl'
      | broken _ hl' hw hg =>
        cases hl.symm.trans hl'
        rw [ih hw, hg] at hf
        cases hf
      | followed _ hl' hw _ hz =>
        cases hl.symm.trans hl'
        cases ih hw
        rw [ihouter hz]

/-- The calls of a visit are those that its history enters. -/
theorem Moved.entered (h : Moved lib includer unopened segments fault v moves) :
    moves.filterMap Move.entered? = v.calls := by
  induction h with
  | finished => rfl
  | plain _ _ ih => rw [ih, meet_calls]
  | skipped _ _ ih => exact ih
  | missing => rfl
  | broken _ _ _ _ ih => exact congrArg (_ :: ·) ih
  | followed _ _ _ _ _ ih ihouter =>
      show _ :: (_ ++ _ : List Move).filterMap Move.entered? = _
      rw [List.filterMap_append, ih, ihouter]
      rfl

/-- The paths that a visit reports as entered before are those that its history skips. -/
theorem Moved.skipped_paths (h : Moved lib includer unopened segments fault v moves) :
    (moves.filterMap Move.skipped?).map (·.path)
      = v.events.filterMap ReadingEvent.skipped? := by
  induction h with
  | finished => rfl
  | @plain _ _ s _ _ _ _ _ _ ih =>
      rw [ih]
      cases s with
      | declared d => cases d <;> rfl
      | _ => rfl
  | skipped _ _ ih => exact congrArg (_ :: ·) ih
  | missing => rfl
  | broken _ _ _ _ ih => exact ih
  | followed _ _ _ _ _ ih ihouter =>
      show ((_ ++ _ : List Move).filterMap Move.skipped?).map (·.path)
        = (_ ++ _ :: _ : List ReadingEvent).filterMap ReadingEvent.skipped?
      rw [List.filterMap_append, List.map_append, ih, ihouter, List.filterMap_append,
        List.filterMap_cons_none rfl]

/-- A place in two lists in a row is in the first or in the second. -/
theorem split_of_append {α : Type} {l m before after : List α} {a : α}
    (h : l ++ m = before ++ a :: after) :
    (∃ rest, l = before ++ a :: rest) ∨
      ∃ early, before = l ++ early ∧ m = early ++ a :: after := by
  rcases List.append_eq_append_iff.1 h with ⟨early, hbefore, hm⟩ | ⟨rest, hl, hafter⟩
  · exact .inr ⟨early, hbefore, hm⟩
  · cases rest with
    | nil => exact .inr ⟨[], by rw [hl, List.append_nil, List.append_nil], hafter.symm⟩
    | cons b rest =>
        cases hafter
        exact .inl ⟨rest, hl⟩

/-- After some moves a path cannot be entered any more: either it could not be from the start,
or one of the moves has entered it. -/
def Closed (unopened : List String) (before : List Move) (p : String) : Prop :=
  p ∉ unopened ∨ ∃ a ∈ before.filterMap Move.entered?, a.path = p

/-- What is closed within a text is closed as seen from the directive for the text. -/
theorem Closed.enter {i : Include} {before : List Move} {p : String}
    (h : Closed (without i.path unopened) before p) :
    Closed unopened (.entered ⟨i.path, includer⟩ :: before) p := by
  rcases h with hleft | ⟨a, ha, hpath⟩
  · by_cases hp : p = i.path
    · exact .inr ⟨_, List.mem_cons_self, hp.symm⟩
    · exact .inl fun h => hleft (mem_without.2 ⟨h, hp⟩)
  · exact .inr ⟨a, List.mem_cons_of_mem _ ha, hpath⟩

/-- What is closed after a walk that goes on from another is closed after both. -/
theorem Moved.closed_after (h : Moved lib includer unopened segments fault v moves)
    {later : List Move} {p : String} (hp : Closed v.unopened later p) :
    Closed unopened (moves ++ later) p := by
  unfold Closed
  rw [List.filterMap_append, h.entered]
  rcases hp with hleft | ⟨a, ha, hpath⟩
  · rw [h.visits.opens.after, not_and_or, not_not] at hleft
    refine hleft.imp_right fun hopened => ?_
    obtain ⟨a, ha, hpath⟩ := List.mem_map.1 hopened
    exact ⟨a, List.mem_append_left _ ha, hpath⟩
  · exact .inr ⟨a, List.mem_append_right _ ha, hpath⟩

/-- A path that is skipped is closed by then. -/
theorem Moved.closed_of_skipped (h : Moved lib includer unopened segments fault v moves)
    {before after : List Move} {c : Call} (hm : moves = before ++ .skipped c :: after) :
    Closed unopened before c.path := by
  induction h generalizing before after with
  | finished => cases before <;> cases hm
  | plain _ _ ih => exact ih hm
  | skipped hi _ ih =>
      cases before with
      | nil =>
          cases hm
          exact .inl hi
      | cons m early =>
          obtain ⟨rfl, hrest⟩ := List.cons.inj hm
          unfold Closed
          rw [List.filterMap_cons_none rfl]
          exact ih hrest
  | missing =>
      cases before with
      | nil => cases hm
      | cons m early =>
          obtain ⟨-, hnil⟩ := List.cons.inj hm
          cases early <;> cases hnil
  | broken _ _ _ _ ih =>
      cases before with
      | nil => cases hm
      | cons m early =>
          obtain ⟨rfl, hrest⟩ := List.cons.inj hm
          exact (ih hrest).enter
  | followed _ _ hv _ _ ih ihouter =>
      cases before with
      | nil => cases hm
      | cons m early =>
          obtain ⟨rfl, hrest⟩ := List.cons.inj hm
          -- the skip stands within the included text, or behind its directive
          rcases split_of_append hrest with ⟨rest, hin⟩ | ⟨late, rfl, hout⟩
          · exact (ih hin).enter
          · exact (hv.closed_after (ihouter hout)).enter

/-- What is skipped is named by a directive of the walk, or of a text of the library. -/
theorem Moved.named_of_skipped (h : Moved lib includer unopened segments fault v moves)
    {c : Call} (hc : .skipped c ∈ moves) :
    (∃ i ∈ segments.filterMap Segment.directive?, i.path = c.path) ∨ c.path ∈ lib.paths := by
  induction h with
  | finished => cases hc
  | plain hs _ ih =>
      rw [List.filterMap_cons_none hs]
      exact ih hc
  | skipped _ _ ih =>
      rcases List.mem_cons.1 hc with hc | hc
      · cases hc
        exact .inl ⟨_, List.mem_cons_self, rfl⟩
      · exact (ih hc).imp_left fun ⟨i, hi, hpath⟩ => ⟨i, List.mem_cons_of_mem _ hi, hpath⟩
  | missing => cases List.mem_singleton.1 hc
  | broken _ hl _ _ ih =>
      rcases List.mem_cons.1 hc with hc | hc
      · cases hc
      · rcases ih hc with ⟨i, hi, hpath⟩ | hlisted
        · exact .inr (lib.closed hl _ (hpath ▸ path_mem_includePaths hi))
        · exact .inr hlisted
  | followed _ hl _ _ _ ih ihouter =>
      rcases List.mem_cons.1 hc with hc | hc
      · cases hc
      rcases List.mem_append.1 hc with hc | hc
      · rcases ih hc with ⟨i, hi, hpath⟩ | hlisted
        · exact .inr (lib.closed hl _ (hpath ▸ path_mem_includePaths hi))
        · exact .inr hlisted
      · exact (ihouter hc).imp_left fun ⟨i, hi, hpath⟩ => ⟨i, List.mem_cons_of_mem _ hi, hpath⟩

end Histories

-- ========================================================= histories of readings

/-- The history of reading a text, which may have a path of its own. -/
def History (lib : Library ε) (own : Option String) (text : String) (moves : List Move) : Prop :=
  ∃ v, Moved lib own (unopenedAtStart (some lib) own (Outline.ofText text))
    (Outline.ofText text).segments (Outline.ofText text).fault v moves

section Readings

variable {lib : Library ε} {own : Option String} {text : String} {moves : List Move}

/-- Each reading has a history. -/
theorem exists_history (lib : Library ε) (own : Option String) (text : String) :
    ∃ moves, History lib own text moves := by
  obtain ⟨moves, h⟩ := (visits_firstVisit lib own text).exists_moved
  exact ⟨moves, _, h⟩

/-- A history enters the calls of the reading, and skips the paths that the reading reports. -/
theorem History.of_reading (h : History lib own text moves) :
    moves.filterMap Move.entered? = (read (some lib) own text).calls ∧
      (moves.filterMap Move.skipped?).map (·.path)
        = (read (some lib) own text).events.filterMap ReadingEvent.skipped? := by
  obtain ⟨v, hv⟩ := h
  have hvisit : v = firstVisit lib own text := hv.visits.unique (visits_firstVisit lib own text)
  subst hvisit
  exact ⟨hv.entered, hv.skipped_paths⟩

/-- A history without a fault is that of a reading that comes to a document. -/
theorem Moved.read_ok {v : Visit ε}
    (h : Moved lib own (unopenedAtStart (some lib) own (Outline.ofText text))
      (Outline.ofText text).segments (Outline.ofText text).fault v moves)
    (hv : v.fault = none) :
    (read (some lib) own text).result
      = .ok { Document.ofSegments (Outline.ofText text).segments with
          nodeClasses := v.nodeClasses
          linkClasses := v.linkClasses } := by
  have hvisit : v = firstVisit lib own text := h.visits.unique (visits_firstVisit lib own text)
  subst hvisit
  exact read_ok_iff.2 ⟨hv, rfl⟩

/-- Before a path is skipped it has been entered, unless it is the text's own. -/
theorem History.entered_before (h : History lib own text moves) {before after : List Move}
    {c : Call} (hm : moves = before ++ .skipped c :: after) :
    own = some c.path ∨ ∃ a ∈ before.filterMap Move.entered?, a.path = c.path := by
  obtain ⟨v, hv⟩ := h
  rcases hv.closed_of_skipped hm with hleft | hentered
  · have hnamed : c.path ∈ (Outline.ofText text).includePaths ∨ c.path ∈ lib.paths := by
      refine (hv.named_of_skipped (c := c) ?_).imp_left fun ⟨i, hi, hpath⟩ => ?_
      · rw [hm]
        exact List.mem_append_right _ List.mem_cons_self
      · exact hpath ▸ path_mem_includePaths hi
    rw [mem_unopenedAtStart, not_and, not_not] at hleft
    exact .inl (hleft hnamed)
  · exact .inr hentered

end Readings

end SystemMap
