/-
The outline of tokens is their split. Where the reading of tokens comes to their end without
a fault, its segments split them, and where tokens can be split at all the reading comes to
the end with just those segments: the tokens of a text leave no choice.

So the split is unique, and the document and the events of a reading are functions of it.
-/
import SystemMap.Proofs.Grammar.Constructs
import SystemMap.Proofs.Reading.Alone
import SystemMap.Proofs.Text.Digits

namespace SystemMap

open Step (Reads)

-- ========================================================== one segment

/-- What a construct's step yields is that construct, spelled. -/
theorem spelled_of_step? {current : Option Section} {kind : TokenKind}
    {step : Step Declaration} (h : Declaration.step? current kind = some step)
    {ts rest : Tokens} {d : Declaration} (hs : step ts = .ok (d, rest)) :
    rest.finish = ts.finish ∧ ∃ run, ts.list = run ++ rest.list ∧
      (Segment.declared d).Spelled current run rest.list := by
  unfold Declaration.step? at h
  split at h
  · cases h
    obtain ⟨hfin, run, hts, i, rfl, hi⟩ := (reads_include.map Declaration.directive _ _ _).1 hs
    exact ⟨hfin, run, hts, .directive hi⟩
  · cases h
    obtain ⟨hfin, run, hts, c, rfl, hc⟩ := (reads_nodeClass.map Declaration.nodeClass _ _ _).1 hs
    exact ⟨hfin, run, hts, .nodeClass rfl hc⟩
  · cases h
    obtain ⟨hfin, run, hts, l, rfl, hl⟩ := (reads_linkClass.map Declaration.linkClass _ _ _).1 hs
    exact ⟨hfin, run, hts, .linkClass rfl hl⟩
  · cases h
    obtain ⟨hfin, run, hts, g, rfl, hg⟩ :=
      (reads_instanceGroup.map Declaration.instances _ _ _).1 hs
    exact ⟨hfin, run, hts, .instances rfl hg⟩
  · cases h
    obtain ⟨hfin, run, hts, t, rfl, ht⟩ :=
      (reads_translation.map Declaration.translation _ _ _).1 hs
    exact ⟨hfin, run, hts, .translation rfl ht⟩
  · cases h
    obtain ⟨hfin, run, hts, c, rfl, hc⟩ :=
      (reads_connection.map Declaration.connection _ _ _).1 hs
    exact ⟨hfin, run, hts, .connection rfl hc⟩
  · cases h

/-- A token that starts something is a marker or the start of a construct. -/
theorem starts_iff {current : Option Section} {kind : TokenKind} (hm : ∀ s, kind ≠ .marker s) :
    Starts current kind ↔ Declaration.step? current kind ≠ none := by
  unfold Starts Declaration.step?
  cases kind with
  | marker s => exact absurd rfl (hm s)
  | _ =>
      cases current with
      | none => simp
      | some s => cases s <;> simp

/-- The segment at a construct's first token is what its step yields. -/
theorem read_of_step? {current : Option Section} {t : Token} {tail : List Token}
    {finish : Position} {kind : TokenKind} {step : Step Declaration} (ht : t.kind = kind)
    (h : Declaration.step? current kind = some step) :
    Segment.read current t tail finish = (step.map .declared) ⟨t :: tail, finish⟩ := by
  unfold Segment.read
  split
  · next s hs =>
    rw [← ht, hs] at h
    cases current with
    | none => cases h
    | some c => cases c <;> cases h
  · rw [ht, h]

/-- The step of a construct, at the tokens that spell it. -/
private theorem read_of_reads {α : Type} {step : Step α} {shape : Shape α}
    {make : α → Declaration} (hreads : step.Reads shape) {current : Option Section} {t : Token}
    (run : List Token) {kind : TokenKind} {a : α} {rest : Tokens} (ht : t.kind = kind)
    (h : Declaration.step? current kind = some (step.map make))
    (ha : shape a (t :: run) rest.list) :
    Segment.read current t (run ++ rest.list) rest.finish
      = .ok (.declared (make a), rest) := by
  rw [read_of_step? ht h]
  exact Step.map_ok_iff.2 ⟨make a, Step.map_ok_iff.2 ⟨a,
    (hreads ..).2 ⟨rfl, t :: run, rfl, ha⟩, rfl⟩, rfl⟩

/-- Reading one segment takes just the tokens that spell it. -/
theorem segment_read_ok_iff {current : Option Section} {t : Token} {tail : List Token}
    {finish : Position} {s : Segment} {rest : Tokens} :
    Segment.read current t tail finish = .ok (s, rest)
      ↔ rest.finish = finish ∧ ∃ run, t :: tail = run ++ rest.list ∧
        s.Spelled current run rest.list := by
  constructor
  · intro h
    unfold Segment.read at h
    split at h
    · next m hm =>
      cases h
      exact ⟨rfl, [t], rfl, .marker hm⟩
    · next hm =>
      split at h
      · next step hstep =>
        obtain ⟨d, hd, rfl⟩ := Step.map_ok_iff.1 h
        exact spelled_of_step? hstep hd
      · next hstep =>
        cases h
        exact ⟨rfl, [t], rfl, .passed fun hs => (starts_iff hm).1 hs hstep⟩
  · intro h
    obtain ⟨rfl, run, hts, hs⟩ := h
    cases hs with
    | marker ht =>
        cases hts
        unfold Segment.read
        rw [ht]
        rfl
    | passed ht =>
        cases hts
        have hm : ∀ s, t.kind ≠ .marker s := by
          intro s hs
          rw [hs] at ht
          cases current with
          | none => exact ht trivial
          | some c => cases c <;> exact ht trivial
        have hnone : Declaration.step? current t.kind = none :=
          Decidable.not_not.1 fun h => ht ((starts_iff hm).2 h)
        unfold Segment.read
        split
        · next s hs => exact absurd hs (hm s)
        · rw [hnone]
          rfl
    | directive h =>
        cases h with
        | mk hw hp =>
            cases hts
            refine read_of_reads reads_include [_] hw ?_ (.mk hw hp)
            cases current with
            | none => rfl
            | some c => cases c <;> rfl
    | nodeClass hc h =>
        cases hc
        cases h with
        | mk ht hd hmany =>
            cases hts
            exact read_of_reads reads_nodeClass _ ht rfl (.mk ht hd hmany)
    | linkClass hc h =>
        cases hc
        cases h with
        | mk hsource hw htarget =>
            cases hts
            have hsource' := hsource
            cases hsource' with
            | mk hn hd hm => exact read_of_reads reads_linkClass _ hn rfl (.mk hsource hw htarget)
    | instances hc h =>
        cases hc
        cases h with
        | mk ht he =>
            cases hts
            exact read_of_reads reads_instanceGroup _ ht rfl (.mk ht he)
    | translation hc h =>
        cases hc
        cases h with
        | mk ha hn hl he hcomma hi hr =>
            cases hts
            exact read_of_reads reads_translation _ ha rfl (.mk ha hn hl he hcomma hi hr)
    | connection hc h =>
        cases hc
        cases h with
        | mk hsource hw htarget =>
            cases hts
            exact read_of_reads reads_connection [_, _] hsource rfl
              (.mk hsource hw htarget)

/-- A segment has a first token. -/
theorem Segment.Spelled.exists_cons {current : Option Section} {s : Segment}
    {run rest : List Token} (h : s.Spelled current run rest) : ∃ t later, run = t :: later := by
  cases h with
  | marker ht => exact ⟨_, _, rfl⟩
  | passed ht => exact ⟨_, _, rfl⟩
  | directive h =>
      cases h
      exact ⟨_, _, rfl⟩
  | nodeClass hc h =>
      cases h
      exact ⟨_, _, rfl⟩
  | linkClass hc h =>
      cases h
      exact ⟨_, _, rfl⟩
  | instances hc h =>
      cases h
      exact ⟨_, _, rfl⟩
  | translation hc h =>
      cases h
      exact ⟨_, _, rfl⟩
  | connection hc h =>
      cases h
      exact ⟨_, _, rfl⟩

/-- Tokens leave no choice what their first segment is and where it ends. -/
theorem Segment.Spelled.unique {current : Option Section} {s s' : Segment}
    {run run' rest rest' : List Token} (h : s.Spelled current run rest)
    (h' : s'.Spelled current run' rest') (heq : run ++ rest = run' ++ rest') :
    s = s' ∧ run = run' ∧ rest = rest' := by
  obtain ⟨t, later, rfl⟩ := h.exists_cons
  have hread : Segment.read current t (later ++ rest) .origin = .ok (s, ⟨rest, .origin⟩) :=
    segment_read_ok_iff.2 ⟨rfl, _, rfl, h⟩
  have hread' : Segment.read current t (later ++ rest) .origin = .ok (s', ⟨rest', .origin⟩) :=
    segment_read_ok_iff.2 ⟨rfl, run', heq, h'⟩
  cases hread.symm.trans hread'
  exact ⟨rfl, List.append_cancel_right heq, rfl⟩

-- ================================================================ splits

/-- The runs of a split are the tokens, all of them and in their order. -/
theorem Split.flatten {current : Option Section} {ts : List Token}
    {parts : List (Segment × List Token)} (h : Split current ts parts) :
    (parts.map Prod.snd).flatten = ts := by
  induction h with
  | nil => rfl
  | cons hs hp ih => rw [List.map_cons, List.flatten_cons, ih]

/-- Tokens split in one way, by induction along the first of two splits. -/
theorem Split.unique {current : Option Section} {ts : List Token}
    {parts parts' : List (Segment × List Token)} (h : Split current ts parts)
    (h' : Split current ts parts') : parts' = parts := by
  induction h generalizing parts' with
  | nil =>
      generalize hts : ([] : List Token) = ts at h'
      cases h' with
      | nil => rfl
      | cons hs hp =>
          obtain ⟨t, later, rfl⟩ := hs.exists_cons
          cases hts
  | @cons current s run rest parts hs hp ih =>
      generalize hts : run ++ rest = ts at h'
      cases h' with
      | nil =>
          obtain ⟨t, later, rfl⟩ := hs.exists_cons
          cases hts
      | cons hs' hp' =>
          obtain ⟨rfl, rfl, rfl⟩ := hs.unique hs' hts
          rw [ih hp']

/-- The outline of a text that can be cut into tokens. -/
theorem Outline.ofText_scanned {text : String} {ts : Tokens} (h : scan text = .ok ts) :
    ofText text = ofTokensFrom none ts := by
  unfold ofText
  rw [h]
  rfl

/-- A text that cannot be cut into tokens has no segments. -/
theorem Outline.ofText_uncut {text : String} {e : ScanError} (h : scan text = .error e) :
    ofText text = ⟨[], some (.scan e)⟩ := by
  unfold ofText
  rw [h]

/-- A text without a fault can be cut into tokens. -/
theorem Outline.exists_scan {text : String} (h : (ofText text).fault = none) :
    ∃ ts, scan text = .ok ts := by
  cases hscan : scan text with
  | ok ts => exact ⟨ts, rfl⟩
  | error e =>
      rw [ofText_uncut hscan] at h
      cases h

/-- Where no token is left, the outline is complete. -/
theorem Outline.ofTokensFrom_nil {ts : Tokens} (h : ts.list = []) (current : Option Section) :
    ofTokensFrom current ts = ⟨[], none⟩ := by
  rw [ofTokensFrom]
  split
  · rfl
  · next hts => cases h.symm.trans hts

/-- An outline has the segment that comes first, and then the outline of what is left. -/
theorem Outline.ofTokensFrom_cons {ts : Tokens} {t : Token} {tail : List Token}
    (h : ts.list = t :: tail) (current : Option Section) :
    ofTokensFrom current ts = match Segment.read current t tail ts.finish with
      | .error fault => ⟨[], some fault⟩
      | .ok (seg, rest) =>
        ⟨seg :: (ofTokensFrom (seg.sectionAfter current) rest).segments,
          (ofTokensFrom (seg.sectionAfter current) rest).fault⟩ := by
  rw [ofTokensFrom]
  split
  · next hts => cases h.symm.trans hts
  · next hts =>
    cases h.symm.trans hts
    cases Segment.read current t tail ts.finish with
    | error fault => rfl
    | ok r => rfl

/-- The segment at a run that spells it, and the segments after it. -/
theorem Segment.Spelled.outline {current : Option Section} {s : Segment} {run rest : List Token}
    (h : s.Spelled current run rest) (finish : Position) :
    Outline.ofTokensFrom current ⟨run ++ rest, finish⟩ =
      ⟨s :: (Outline.ofTokensFrom (s.sectionAfter current) ⟨rest, finish⟩).segments,
        (Outline.ofTokensFrom (s.sectionAfter current) ⟨rest, finish⟩).fault⟩ := by
  obtain ⟨t, later, rfl⟩ := h.exists_cons
  have hread : Segment.read current t (later ++ rest) finish = .ok (s, ⟨rest, finish⟩) :=
    segment_read_ok_iff.2 ⟨rfl, _, rfl, h⟩
  rw [Outline.ofTokensFrom_cons (List.cons_append ..), hread]

/-- Where tokens can be split, the outline comes to their end with the segments of the
split. -/
theorem Split.outline {current : Option Section} {ts : List Token}
    {parts : List (Segment × List Token)} (h : Split current ts parts) (finish : Position) :
    Outline.ofTokensFrom current ⟨ts, finish⟩ = ⟨parts.map Prod.fst, none⟩ := by
  induction h with
  | nil => exact Outline.ofTokensFrom_nil rfl _
  | cons hs hp ih =>
      rw [hs.outline, ih]
      rfl

/-- An outline without a fault is a split, by the induction of the reading. -/
theorem exists_split {current : Option Section} {ts : Tokens}
    (h : (Outline.ofTokensFrom current ts).fault = none) :
    ∃ parts, Split current ts.list parts := by
  induction hn : ts.list.length using Nat.strongRecOn generalizing current ts with
  | ind n ih =>
      obtain ⟨list, finish⟩ := ts
      cases list with
      | nil => exact ⟨[], .nil⟩
      | cons t tail =>
          rw [Outline.ofTokensFrom_cons rfl] at h
          split at h
          · cases h
          · next seg rest hseg =>
            have hless := Segment.read_shorter hseg
            obtain ⟨-, run, hts, hs⟩ := segment_read_ok_iff.1 hseg
            obtain ⟨parts, hp⟩ := ih _ (hn ▸ hless) h rfl
            exact ⟨(seg, run) :: parts, hts ▸ .cons hs hp⟩

-- ================================================================ readings

/-- The segment of a token that was reported as passed over. -/
def ReadingEvent.passed? : ReadingEvent → Option Segment
  | .passed current kind position => some (.passed current kind position)
  | _ => none

/-- Whether a segment is a token passed over. -/
def Segment.isPassed : Segment → Bool
  | .passed .. => true
  | _ => false

/-- What is reported as passed over of the segments of a text read alone. -/
theorem passed_events (segments : List Segment) :
    (segments.filterMap Segment.event?).filterMap ReadingEvent.passed?
      = segments.filter Segment.isPassed := by
  induction segments with
  | nil => rfl
  | cons s later ih =>
      cases s with
      | marker s => exact ih
      | passed current kind position => exact congrArg _ ih
      | declared d => cases d <;> exact ih

variable {ε : Type}

/-- Tokens read without a library. -/
def Tokens.readAlone (ts : Tokens) (path : Option String) : Reading ε :=
  (Outline.ofTokens ts).reading none path

/-- Tokens read alone have a document just if they can be split. The split is then the only
one, it leaves no token out and takes none twice, the document has the constructs among its
segments, and the tokens reported as passed over are the others among them. A number of at
most so many digits as can be read is the number that its digits write. -/
theorem reading_alone_iff_split (ts : Tokens) (path : Option String) :
    ((∃ d, (ts.readAlone path : Reading ε).result = .ok d)
      ↔ ∃ parts, Split none ts.list parts) ∧
    (∀ parts, Split none ts.list parts →
      (∀ parts', Split none ts.list parts' → parts' = parts) ∧
      (parts.map Prod.snd).flatten = ts.list ∧
      (ts.readAlone path : Reading ε).result = .ok (.ofSegments (parts.map Prod.fst)) ∧
      (ts.readAlone path : Reading ε).events.filterMap ReadingEvent.passed?
        = (parts.map Prod.fst).filter Segment.isPassed) ∧
    ∀ t ∈ ts.list, t.kind = .number → IsDigits t.value.toList →
      t.value.toList.length ≤ Text.Numeral.digitLimit →
      ∀ n, t.Writes n ↔ n = Nat.ofDigitChars 10 t.value.toList 0 := by
  have hsplit : ∀ parts, Split none ts.list parts →
      Outline.ofTokens ts = ⟨parts.map Prod.fst, none⟩ := fun parts h => h.outline ts.finish
  refine ⟨⟨?_, ?_⟩, ?_, ?_⟩
  · intro h
    obtain ⟨d, hd⟩ := h
    exact exists_split (result_alone_ok_iff.1 hd).1
  · intro hall
    obtain ⟨parts, h⟩ := hall
    exact ⟨_, result_alone_ok_iff.2 ⟨congrArg Outline.fault (hsplit parts h), rfl⟩⟩
  · intro parts h
    have hr : (ts.readAlone path : Reading ε) = _ := reading_alone path (Outline.ofTokens ts)
    rw [hsplit parts h] at hr
    refine ⟨fun parts' h' => h.unique h', h.flatten, ?_, ?_⟩
    · rw [hr]
    · rw [hr]
      exact passed_events _
  · intro t _ hkind hdigits hlen n
    have hread := Text.Numeral.read_of_isDigits hdigits
    rw [String.ofList_toList, if_neg (Nat.not_lt.2 hlen)] at hread
    constructor
    · intro h
      cases hread.symm.trans h.2
      rfl
    · intro hn
      subst hn
      exact ⟨hkind, hread⟩

end SystemMap
