/-
The walk through includes as a derivation. `Visits` lists what following a directive can come
to: it is skipped, its text is missing, its text breaks off, or its text is read to the end
and the walk goes on with what that reading left unopened. Every other segment only adds to
the visit of those after it (`Visit.meet`).

`visits_follow` is the one place where the recursion of the walk is opened. What holds of
every walk is proved by induction on the derivation, whose cases are these six.

Three facts of that kind stand here because others lean on them: a walk opens each path at most
once and only paths that were unopened (`Visits.opens`), whatever is passed on from a call to
the directives of its text holds of all calls (`Visits.calls_of_closed`), and each call is made
for a directive of the text or of one that answers another call (`Visits.asked`).
-/
import SystemMap.Proofs.Reading.Alone

namespace SystemMap

variable {ε : Type}

-- ========================================================= the derivation

/-- The visit of a segment that is no directive, before that of the later ones. -/
def Visit.meet (s : Segment) (v : Visit ε) : Visit ε :=
  match s with
  | .passed current kind position => v.report (.passed current kind position)
  | .declared (.nodeClass c) => v.gatherNode c
  | .declared (.linkClass l) => v.gatherLink l
  | _ => v

/-- The paths that a visit has opened, in order. -/
def Visit.opened (v : Visit ε) : List String := v.calls.map (·.path)

/-- The paths that a reading has opened, in order. -/
def Reading.opened (r : Reading ε) : List String := r.calls.map (·.path)

/-- `Visits lib includer unopened segments fault v`: following the directives among
`segments`, in the text of `includer` that ends with `fault`, comes to `v`. -/
inductive Visits (lib : Library ε) :
    Option String → List String → List Segment → Option TextFault → Visit ε → Prop
  | finished {includer unopened fault} :
      Visits lib includer unopened [] fault (.stop unopened (fault.map .text))
  | plain {includer unopened s later fault v} (hs : s.directive? = none)
      (hv : Visits lib includer unopened later fault v) :
      Visits lib includer unopened (s :: later) fault (v.meet s)
  | skipped {includer unopened i later fault v} (hi : i.path ∉ unopened)
      (hv : Visits lib includer unopened later fault v) :
      Visits lib includer unopened (.declared (.directive i) :: later) fault
        (v.report (.notFollowed i.path .alreadyEntered))
  | missing {includer unopened i later fault e} (hi : i.path ∈ unopened)
      (hl : lib.lookup i.path includer = .error e) :
      Visits lib includer unopened (.declared (.directive i) :: later) fault
        ((Visit.stop (without i.path unopened) (some (.library e))).ask ⟨i.path, includer⟩)
  | broken {includer unopened i later fault text inner f} (hi : i.path ∈ unopened)
      (hl : lib.lookup i.path includer = .ok text)
      (hv : Visits lib (some i.path) (without i.path unopened)
        (Outline.ofText text).segments (Outline.ofText text).fault inner)
      (hf : inner.fault = some f) :
      Visits lib includer unopened (.declared (.directive i) :: later) fault
        (inner.ask ⟨i.path, includer⟩)
  | followed {includer unopened i later fault text inner outer} (hi : i.path ∈ unopened)
      (hl : lib.lookup i.path includer = .ok text)
      (hv : Visits lib (some i.path) (without i.path unopened)
        (Outline.ofText text).segments (Outline.ofText text).fault inner)
      (hf : inner.fault = none)
      (hw : Visits lib includer inner.unopened later fault outer) :
      Visits lib includer unopened (.declared (.directive i) :: later) fault
        (inner.join ⟨i.path, includer⟩ outer)

/-- The walk comes to what the derivation says. -/
theorem visits_follow (lib : Library ε) (includer : Option String) (unopened : List String)
    (segments : List Segment) (fault : Option TextFault) :
    Visits lib includer unopened segments fault
      (follow (some lib) includer unopened segments fault).1 := by
  generalize hlib : some lib = library
  induction library, includer, unopened, segments, fault using follow.induct_unfolding with
  | case1 => exact .finished
  | case2 _ _ _ _ s _ ih => exact .plain (s := .marker s) rfl (ih hlib)
  | case3 _ _ _ _ c k p _ _ ih => exact .plain (s := .passed c k p) rfl (ih hlib)
  | case4 _ _ _ _ c _ _ ih => exact .plain (s := .declared (.nodeClass c)) rfl (ih hlib)
  | case5 _ _ _ _ l _ _ ih => exact .plain (s := .declared (.linkClass l)) rfl (ih hlib)
  | case6 => cases hlib
  | case7 _ _ _ _ _ _ hi _ _ _ e hl =>
      cases hlib
      exact .missing hi hl
  | case8 _ _ _ _ _ _ hi _ _ _ _ hl _ _ _ _ hf ih =>
      cases hlib
      exact .broken hi hl (ih rfl) hf
  | case9 _ _ _ _ _ _ hi _ _ _ _ hl _ _ _ hf _ ih _ ihouter =>
      cases hlib
      exact .followed hi hl (ih rfl) hf (ihouter rfl)
  | case10 _ _ _ _ _ _ hi _ ih =>
      cases hlib
      exact .skipped hi (ih rfl)
  | case11 _ _ _ _ d _ hn hl hd ih =>
      cases d with
      | nodeClass c => exact absurd rfl (hn c)
      | linkClass l => exact absurd rfl (hl l)
      | directive i => exact absurd rfl (hd i)
      | instances g => exact .plain (s := .declared (.instances g)) rfl (ih hlib)
      | translation t => exact .plain (s := .declared (.translation t)) rfl (ih hlib)
      | connection c => exact .plain (s := .declared (.connection c)) rfl (ih hlib)

-- ====================================================== what a segment adds

theorem filterMap_cons_toList {α β : Type} (f : α → Option β) (a : α) (l : List α) :
    (a :: l).filterMap f = (f a).toList ++ l.filterMap f := by
  cases hfa : f a with
  | none => exact List.filterMap_cons_none hfa
  | some b => exact List.filterMap_cons_some hfa

section Meet

variable (s : Segment) (v : Visit ε)

@[simp] theorem meet_unopened : (v.meet s).unopened = v.unopened := by
  cases s with
  | declared d => cases d <;> rfl
  | _ => rfl

@[simp] theorem meet_calls : (v.meet s).calls = v.calls := by
  cases s with
  | declared d => cases d <;> rfl
  | _ => rfl

@[simp] theorem meet_opened : (v.meet s).opened = v.opened :=
  congrArg (·.map (·.path)) (meet_calls s v)

@[simp] theorem meet_fault : (v.meet s).fault = v.fault := by
  cases s with
  | declared d => cases d <;> rfl
  | _ => rfl

@[simp] theorem meet_nodeClasses :
    (v.meet s).nodeClasses = s.nodeClass?.toList ++ v.nodeClasses := by
  cases s with
  | declared d => cases d <;> rfl
  | _ => rfl

@[simp] theorem meet_linkClasses :
    (v.meet s).linkClasses = s.linkClass?.toList ++ v.linkClasses := by
  cases s with
  | declared d => cases d <;> rfl
  | _ => rfl

end Meet

-- ======================================================= each path, once

theorem mem_without {p q : String} {paths : List String} :
    q ∈ without p paths ↔ q ∈ paths ∧ q ≠ p := by
  unfold without
  simp

/-- How a visit treats the paths unopened at its start: it opens some of them, each once,
and the others stay unopened. -/
structure Visit.Opens (unopened : List String) (v : Visit ε) : Prop where
  once : v.opened.Nodup
  before : ∀ p ∈ v.opened, p ∈ unopened
  after : ∀ p, p ∈ v.unopened ↔ p ∈ unopened ∧ p ∉ v.opened

/-- A walk that stops has opened nothing. -/
theorem opens_stop (unopened : List String) (fault : Option (ReadFault ε)) :
    (Visit.stop unopened fault).Opens unopened where
  once := List.nodup_nil
  before := by intro p hp; cases hp
  after := by
    intro p
    simp [Visit.stop, Visit.opened]

/-- Opening a path in front of a visit that finds it opened. -/
theorem Visit.Opens.ask {unopened : List String} {call : Call} {v : Visit ε}
    (hc : call.path ∈ unopened) (h : v.Opens (without call.path unopened)) :
    (v.ask call).Opens unopened := by
  have hfresh : call.path ∉ v.opened := fun hp =>
    (mem_without.1 (h.before _ hp)).2 rfl
  refine ⟨List.nodup_cons.2 ⟨hfresh, h.once⟩, ?_, ?_⟩
  · intro p hp
    rcases List.mem_cons.1 hp with rfl | hp
    · exact hc
    · exact (mem_without.1 (h.before p hp)).1
  · intro p
    have hopened : (v.ask call).opened = call.path :: v.opened := rfl
    have hleft : p ∈ (v.ask call).unopened ↔ p ∈ v.unopened := Iff.rfl
    rw [hopened, hleft, h.after, mem_without, List.mem_cons, not_or, and_assoc]

/-- One visit after another, each of what the one before it left. -/
theorem Visit.Opens.join {unopened : List String} {call : Call} {inner outer : Visit ε}
    (hc : call.path ∈ unopened) (hin : inner.Opens (without call.path unopened))
    (hout : outer.Opens inner.unopened) :
    (inner.join call outer).Opens unopened := by
  have hask := Visit.Opens.ask hc hin
  have hopened : (inner.join call outer).opened = (inner.ask call).opened ++ outer.opened := by
    simp [Visit.join, Visit.ask, Visit.opened]
  have hleft : ∀ p, p ∈ inner.unopened ↔ p ∈ unopened ∧ p ∉ (inner.ask call).opened :=
    hask.after
  refine ⟨?_, ?_, ?_⟩
  · rw [hopened]
    refine List.nodup_append.2 ⟨hask.once, hout.once, ?_⟩
    intro p hp q hq heq
    subst heq
    exact ((hleft p).1 (hout.before p hq)).2 hp
  · intro p hp
    rw [hopened] at hp
    rcases List.mem_append.1 hp with hp | hp
    · exact hask.before p hp
    · exact ((hleft p).1 (hout.before p hp)).1
  · intro p
    have houter : p ∈ (inner.join call outer).unopened ↔ p ∈ outer.unopened := Iff.rfl
    rw [houter, hout.after, hleft, hopened, List.mem_append, not_or, and_assoc]

/-- A walk opens each path at most once, and only paths that were unopened. -/
theorem Visits.opens {lib : Library ε} {includer : Option String} {unopened : List String}
    {segments : List Segment} {fault : Option TextFault} {v : Visit ε}
    (h : Visits lib includer unopened segments fault v) : v.Opens unopened := by
  induction h with
  | finished => exact opens_stop _ _
  | plain hs hv ih =>
      exact ⟨by simpa using ih.once, by simpa using ih.before, by simpa using ih.after⟩
  | skipped hi hv ih => exact ⟨ih.once, ih.before, ih.after⟩
  | missing hi hl => exact Visit.Opens.ask hi (opens_stop _ _)
  | broken hi hl hv hf ih => exact Visit.Opens.ask hi ih
  | followed hi hl hv hf hw ih ihouter => exact Visit.Opens.join hi ih ihouter

/-- Nothing is unopened after a walk that was opened before it. -/
theorem Visits.unopened_subset {lib : Library ε} {includer : Option String}
    {unopened : List String} {segments : List Segment} {fault : Option TextFault}
    {v : Visit ε} (h : Visits lib includer unopened segments fault v) {p : String}
    (hp : p ∈ v.unopened) : p ∈ unopened :=
  ((h.opens.after p).1 hp).1

-- ==================================================== what holds of all calls

/-- What holds of a call for each directive of the walk, and passes from a call to the
directives of its text, holds of every call of the walk. -/
theorem Visits.calls_of_closed {lib : Library ε} (R : Call → Prop) (bound : List String)
    (hR : ∀ c text, R c → lib.lookup c.path c.includer = .ok text →
      ∀ p ∈ (Outline.ofText text).includePaths, p ∈ bound → R ⟨p, some c.path⟩)
    {includer : Option String} {unopened : List String} {segments : List Segment}
    {fault : Option TextFault} {v : Visit ε}
    (h : Visits lib includer unopened segments fault v) (hsub : ∀ p ∈ unopened, p ∈ bound)
    (hseg : ∀ i ∈ segments.filterMap Segment.directive?, i.path ∈ bound →
      R ⟨i.path, includer⟩) :
    ∀ c ∈ v.calls, R c := by
  induction h with
  | finished => intro c hc; cases hc
  | plain hs hv ih =>
      rw [meet_calls]
      refine ih hsub fun i hi => hseg i ?_
      rw [List.filterMap_cons_none hs]
      exact hi
  | skipped hi hv ih =>
      exact ih hsub fun i hi => hseg i (List.mem_cons_of_mem _ hi)
  | missing hi hl =>
      intro c hc
      rw [show c = _ from List.mem_singleton.1 hc]
      exact hseg _ (List.mem_cons_self ..) (hsub _ hi)
  | broken hi hl hv hf ih =>
      have hhead := hseg _ (List.mem_cons_self ..) (hsub _ hi)
      intro c hc
      rcases List.mem_cons.1 hc with rfl | hc
      · exact hhead
      · refine ih (fun p hp => hsub p (mem_without.1 hp).1) (fun j hj => ?_) c hc
        exact hR _ _ hhead hl _ (path_mem_includePaths hj)
  | followed hi hl hv hf hw ih ihouter =>
      have hhead := hseg _ (List.mem_cons_self ..) (hsub _ hi)
      intro c hc
      rcases List.mem_cons.1 hc with rfl | hc
      · exact hhead
      rcases List.mem_append.1 hc with hc | hc
      · refine ih (fun p hp => hsub p (mem_without.1 hp).1) (fun j hj => ?_) c hc
        exact hR _ _ hhead hl _ (path_mem_includePaths hj)
      · refine ihouter (fun p hp => hsub p ?_) (fun j hj => ?_) c hc
        · exact (mem_without.1 (hv.unopened_subset hp)).1
        · exact hseg j (List.mem_cons_of_mem _ hj)

-- ============================================================ who asks for what

section Asked

variable {lib : Library ε}

/-- A call is made for a directive of a text: of the one whose segments are given, or of one
that answers another of some calls. -/
def Call.Asked (lib : Library ε) (includer : Option String) (segments : List Segment)
    (calls : List Call) (c : Call) : Prop :=
  (c.includer = includer ∧ ∃ i ∈ segments.filterMap Segment.directive?, i.path = c.path) ∨
    ∃ a ∈ calls, c.includer = some a.path ∧ ∃ text,
      lib.lookup a.path a.includer = .ok text ∧ c.path ∈ (Outline.ofText text).includePaths

/-- A call that is asked for is so among more directives and more calls. -/
theorem Call.Asked.mono {includer : Option String} {segments segments' : List Segment}
    {calls calls' : List Call} {c : Call} (h : c.Asked lib includer segments calls)
    (hsegments : ∀ i ∈ segments.filterMap Segment.directive?,
      i ∈ segments'.filterMap Segment.directive?)
    (hcalls : ∀ a ∈ calls, a ∈ calls') : c.Asked lib includer segments' calls' := by
  rcases h with ⟨hown, i, hi, hpath⟩ | ⟨a, ha, hother⟩
  · exact .inl ⟨hown, i, hsegments i hi, hpath⟩
  · exact .inr ⟨a, hcalls a ha, hother⟩

/-- What is asked within a text that answers a call is asked on account of that call. -/
theorem Call.Asked.within {call c : Call} {text : String} {includer : Option String}
    {segments : List Segment} {calls calls' : List Call}
    (h : c.Asked lib (some call.path) (Outline.ofText text).segments calls)
    (hl : lib.lookup call.path call.includer = .ok text) (hcall : call ∈ calls')
    (hcalls : ∀ a ∈ calls, a ∈ calls') : c.Asked lib includer segments calls' := by
  rcases h with ⟨hown, i, hi, hpath⟩ | ⟨a, ha, hother⟩
  · exact .inr ⟨call, hcall, hown, text, hl, hpath ▸ path_mem_includePaths hi⟩
  · exact .inr ⟨a, hcalls a ha, hother⟩

/-- All calls of a walk are asked for. -/
theorem Visits.asked {includer : Option String} {unopened : List String}
    {segments : List Segment} {fault : Option TextFault} {v : Visit ε}
    (h : Visits lib includer unopened segments fault v) :
    ∀ c ∈ v.calls, c.Asked lib includer segments v.calls := by
  induction h with
  | finished => intro c hc; cases hc
  | plain hs hx ih =>
      intro c hc
      rw [meet_calls] at hc ⊢
      refine (ih c hc).mono (fun i hi => ?_) fun a ha => ha
      rwa [List.filterMap_cons_none hs]
  | skipped hi hx ih =>
      exact fun c hc => (ih c hc).mono (fun i hi => List.mem_cons_of_mem _ hi) fun a ha => ha
  | missing hi hl =>
      intro c hc
      rw [show c = _ from List.mem_singleton.1 hc]
      exact .inl ⟨rfl, _, List.mem_cons_self, rfl⟩
  | broken hi hl hx hf ih =>
      intro c hc
      rcases List.mem_cons.1 hc with rfl | hc
      · exact .inl ⟨rfl, _, List.mem_cons_self, rfl⟩
      · exact (ih c hc).within hl List.mem_cons_self fun a ha => List.mem_cons_of_mem _ ha
  | followed hi hl hx hf hy ih ihouter =>
      intro c hc
      rcases List.mem_cons.1 hc with rfl | hc
      · exact .inl ⟨rfl, _, List.mem_cons_self, rfl⟩
      rcases List.mem_append.1 hc with hc | hc
      · exact (ih c hc).within hl List.mem_cons_self
          fun a ha => List.mem_cons_of_mem _ (List.mem_append_left _ ha)
      · exact (ihouter c hc).mono (fun i hi => List.mem_cons_of_mem _ hi)
          fun a ha => List.mem_cons_of_mem _ (List.mem_append_right _ ha)

end Asked

end SystemMap
