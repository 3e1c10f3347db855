/-
What a text says does not depend on how it is laid out. Each construct, read off token lists
that are alike, comes to values that differ at most in their places, or stops at the same
token. So do segments, one after the other, and with them the whole outline: it has the same
segments up to places, and where it breaks off it does so at the same token.
-/
import SystemMap.Outline
import SystemMap.Proofs.Grammar.Alike
import SystemMap.Proofs.Printing.RoundTrip

namespace SystemMap

open Step (Uniform Match match_pure match_expect match_accept match_here match_numeral
  uniform_separated uniform_manyWhile)

-- ============================================================= constructs

theorem PortSpec.match_stepPorts : Match Eq stepPorts stepPorts := by
  refine Match.bind (match_expect _ _) fun first first' hfirst => ?_
  refine Match.bind (match_accept _) fun ranged ranged' hranged => ?_
  subst hranged
  split
  · refine Match.bind (match_expect _ _) fun last last' hlast => ?_
    refine Match.bind (match_numeral hfirst) fun a a' ha => ?_
    refine Match.bind (match_numeral hlast) fun b b' hb => ?_
    exact match_pure (congrArg₂ Ports.range ha hb)
  · exact Match.map (match_numeral hfirst) fun a a' ha => congrArg Ports.single ha

/-- Alike tokens spell the same ports, or are refused alike. -/
theorem PortSpec.match_step : Match Eq step step := by
  refine Match.bind (match_accept _) fun udp udp' hudp => ?_
  subst hudp
  split
  · refine Match.bind (match_expect _ _) fun _ _ _ => ?_
    refine Match.bind match_stepPorts fun ports ports' hports => ?_
    refine Match.bind (match_expect _ _) fun _ _ _ => ?_
    exact match_pure (congrArg _ hports)
  · exact Match.map match_stepPorts fun ports ports' hports => congrArg _ hports

theorem Connector.match_stepPortList : Match Eq stepPortList stepPortList := by
  refine Match.bind (match_accept _) fun listed listed' hlisted => ?_
  subst hlisted
  split
  · refine Match.bind (uniform_separated (f := id) PortSpec.match_step) fun ports ports' hports => ?_
    refine Match.bind (match_expect _ _) fun _ _ _ => ?_
    rw [List.map_id, List.map_id] at hports
    exact match_pure hports
  · exact match_pure rfl

/-- A connector is the same up to places. -/
theorem Connector.uniform_step : Uniform unplaced step := by
  refine Match.bind match_here fun position position' _ => ?_
  refine Match.bind (match_accept _) fun starred starred' hstarred => ?_
  refine Match.bind (match_expect _ _) fun name name' hname => ?_
  refine Match.bind match_stepPortList fun ports ports' hports => ?_
  refine match_pure ?_
  subst hstarred
  unfold unplaced
  rw [hname.value (by simp), hports]

/-- Whether another connector starts is told by the kinds of two tokens. -/
theorem NodeClass.moreConnectors_eq {ts us : Tokens} (h : ts.Alike us) :
    moreConnectors ts = moreConnectors us := by
  unfold moreConnectors
  rw [h.headKind?_eq, h.secondKind?_eq]

/-- A node class is the same up to places. -/
theorem NodeClass.uniform_step : Uniform unplaced step := by
  refine Match.bind (match_expect _ _) fun name name' hname => ?_
  refine Match.bind (match_expect _ _) fun _ _ _ => ?_
  refine Match.map (uniform_manyWhile Connector.uniform_step fun ts us h => moreConnectors_eq h)
    fun connectors connectors' hconnectors => ?_
  unfold unplaced
  rw [hname.value (by simp), hconnectors]

/-- A reference keeps no place, so it is the same. -/
theorem ConnectorRef.match_step (nodeClass connector : Want) :
    Match Eq (step nodeClass connector) (step nodeClass connector) := by
  refine Match.bind (match_expect _ _) fun c c' hc => ?_
  refine Match.bind (match_expect _ _) fun _ _ _ => ?_
  refine Match.map (match_expect _ _) fun n n' hn => ?_
  rw [hc.value (by simp), hn.value (by simp)]

theorem LinkClass.uniform_step : Uniform unplaced step := by
  refine Match.bind match_here fun position position' _ => ?_
  refine Match.bind (ConnectorRef.match_step _ _) fun source source' hsource => ?_
  refine Match.bind (match_expect _ _) fun _ _ _ => ?_
  refine Match.map (ConnectorRef.match_step _ _) fun target target' htarget => ?_
  unfold unplaced
  rw [hsource, htarget]

/-- So is an address. -/
theorem match_stepAddress : Match Eq stepAddress stepAddress := by
  refine Match.map (uniform_separated (f := fun t => t.value) ?_) fun octets octets' h => ?_
  · exact fun ts us h => (match_expect _ _ ts us h).imp fun t t' ht => ht.value (by simp)
  · rw [h]

theorem InstanceEntry.match_stepAddress? : Match Eq stepAddress? stepAddress? := by
  refine Match.bind (match_accept _) fun opened opened' hopened => ?_
  subst hopened
  split
  · refine Match.bind match_stepAddress fun address address' haddress => ?_
    refine Match.bind (match_expect _ _) fun _ _ _ => ?_
    exact match_pure (congrArg some haddress)
  · exact match_pure rfl

theorem InstanceEntry.uniform_step : Uniform unplaced step := by
  refine Match.bind (match_expect _ _) fun name name' hname => ?_
  refine Match.map match_stepAddress? fun address address' haddress => ?_
  unfold unplaced
  rw [hname.value (by simp), haddress]

/-- A group is the same up to places. -/
theorem InstanceGroup.uniform_step : Uniform unplaced step := by
  refine Match.bind (match_expect _ _) fun nodeClass nodeClass' hclass => ?_
  refine Match.map (uniform_separated InstanceEntry.uniform_step) fun entries entries' h => ?_
  unfold unplaced
  rw [hclass.value (by simp), h]

theorem Translation.uniform_step : Uniform unplaced step := by
  refine Match.bind (match_expect _ _) fun mark mark' _ => ?_
  refine Match.bind (match_expect _ _) fun name name' hname => ?_
  refine Match.bind (match_expect _ _) fun _ _ _ => ?_
  refine Match.bind match_stepAddress fun external external' hexternal => ?_
  refine Match.bind (match_expect _ _) fun _ _ _ => ?_
  refine Match.bind match_stepAddress fun internal internal' hinternal => ?_
  refine Match.map (match_expect _ _) fun _ _ _ => ?_
  unfold unplaced
  rw [hname.value (by simp), hexternal, hinternal]

theorem Connection.uniform_step : Uniform unplaced step := by
  refine Match.bind (match_expect _ _) fun source source' hsource => ?_
  refine Match.bind (match_expect _ _) fun _ _ _ => ?_
  refine Match.map (match_expect _ _) fun target target' htarget => ?_
  unfold unplaced
  rw [hsource.value (by simp), htarget.value (by simp)]

theorem Include.uniform_step : Uniform unplaced step := by
  refine Match.bind (match_expect _ _) fun word word' _ => ?_
  refine Match.map (match_expect _ _) fun path path' hpath => ?_
  unfold unplaced
  rw [hpath.value (by simp)]

/-- Whatever a section declares, its step makes the same of alike tokens, up to places. -/
theorem Declaration.uniform_of_step? {current : Option Section} {kind : TokenKind}
    {s : Step Declaration} (h : step? current kind = some s) : Uniform unplaced s := by
  unfold step? at h
  split at h <;> cases h
  · exact Match.map Include.uniform_step fun _ _ h => congrArg directive h
  · exact Match.map NodeClass.uniform_step fun _ _ h => congrArg nodeClass h
  · exact Match.map LinkClass.uniform_step fun _ _ h => congrArg linkClass h
  · exact Match.map InstanceGroup.uniform_step fun _ _ h => congrArg instances h
  · exact Match.map Translation.uniform_step fun _ _ h => congrArg translation h
  · exact Match.map Connection.uniform_step fun _ _ h => congrArg connection h

-- ================================================================ segments

/-- Two segments that differ at most in places. -/
inductive Segment.Alike : Segment → Segment → Prop
  | marker (s : Section) : Alike (.marker s) (.marker s)
  | declared {d d' : Declaration} (h : d.unplaced = d'.unplaced) :
      Alike (.declared d) (.declared d')
  | passed (current : Option Section) (kind : TokenKind) (p q : Position) :
      Alike (.passed current kind p) (.passed current kind q)

/-- Alike segments lead to the same section. -/
theorem Segment.Alike.sectionAfter_eq {s s' : Segment} (h : s.Alike s')
    (current : Option Section) : s.sectionAfter current = s'.sectionAfter current := by
  cases h <;> rfl

/-- Alike tokens start alike segments, or faults of one kind. -/
theorem Segment.agree_read {ts us : Tokens} (h : ts.Alike us) {t u : Token}
    {tail tail' : List Token} (hts : ts.list = t :: tail) (hus : us.list = u :: tail')
    (htu : t.Alike u) (current : Option Section) :
    Step.Agree Segment.Alike ts us (Segment.read current t tail ts.finish)
      (Segment.read current u tail' us.finish) := by
  have hall : (⟨t :: tail, ts.finish⟩ : Tokens) = ts := by rw [← hts]
  have hall' : (⟨u :: tail', us.finish⟩ : Tokens) = us := by rw [← hus]
  unfold Segment.read
  rw [← htu.kind, hall, hall']
  -- a marker and a token passed over take one token each
  have hone : ts.drop 1 = ⟨tail, ts.finish⟩ := Tokens.drop_one hts
  have hone' : us.drop 1 = ⟨tail', us.finish⟩ := Tokens.drop_one hus
  split
  · rw [← hone, ← hone']
    exact .done 1 (.marker _)
  · split
    · next step hstep =>
      exact Match.map (Declaration.uniform_of_step? hstep) (fun _ _ h => .declared h) ts us h
    · rw [← hone, ← hone']
      exact .done 1 (.passed ..)

-- ================================================================ outlines

/-- Faults of two texts: none, or a token that was not wanted, at the same place in both. -/
inductive TextFault.Agree (ts us : Tokens) : Option TextFault → Option TextFault → Prop
  | none : Agree ts us none none
  | stuck (k : Nat) (want : Want) (found : Option TokenKind) :
      Agree ts us (some (.mismatch ⟨want, found, (ts.drop k).position⟩))
        (some (.mismatch ⟨want, found, (us.drop k).position⟩))

/-- Faults that agree on what is left agree on all tokens. -/
theorem TextFault.Agree.of_drop {ts us : Tokens} {k : Nat} {f f' : Option TextFault}
    (h : Agree (ts.drop k) (us.drop k) f f') : Agree ts us f f' := by
  cases h with
  | none => exact .none
  | stuck l want found =>
      rw [Tokens.drop_drop, Tokens.drop_drop]
      exact .stuck (k + l) want found

/-- Outlines that differ at most in places. -/
structure Outline.Agree (ts us : Tokens) (o o' : Outline) : Prop where
  segments : List.Forall₂ Segment.Alike o.segments o'.segments
  fault : TextFault.Agree ts us o.fault o'.fault

/-- Alike token lists have outlines that differ at most in places. The induction is on what
is left to read; a segment leaves less of it. -/
theorem Outline.agree_ofTokensFrom {ts us : Tokens} (h : ts.Alike us)
    (current : Option Section) :
    Agree ts us (ofTokensFrom current ts) (ofTokensFrom current us) := by
  induction hn : ts.list.length using Nat.strongRecOn generalizing current ts us with
  | ind n ih =>
      rcases h.nil_or_cons with ⟨hts, hus⟩ | ⟨t, u, tail, tail', hts, hus, htu⟩
      · rw [ofTokensFrom_nil hts, ofTokensFrom_nil hus]
        exact ⟨.nil, .none⟩
      · rw [ofTokensFrom_cons hts, ofTokensFrom_cons hus]
        have hread := Segment.agree_read h hts hus htu current
        generalize hr : Segment.read current t tail ts.finish = r at hread
        generalize Segment.read current u tail' us.finish = r' at hread
        cases hread with
        | stuck k want found => exact ⟨.nil, .stuck k want found⟩
        | @done s s' k hs =>
            have hless : (ts.drop k).list.length < n := hn ▸ hts ▸ Segment.read_shorter hr
            have hlater := ih _ hless (h.drop k) (s.sectionAfter current) rfl
            dsimp only
            rw [← hs.sectionAfter_eq current]
            exact ⟨.cons hs hlater.segments, hlater.fault.of_drop⟩

/-- Segments that differ at most in places declare what differs at most in places. -/
theorem ofSegments_unplaced_eq {segments segments' : List Segment}
    (h : List.Forall₂ Segment.Alike segments segments') :
    (Document.ofSegments segments).unplaced = (Document.ofSegments segments').unplaced := by
  rw [← ofSegments_unplaced, ← ofSegments_unplaced]
  induction h with
  | nil => rfl
  | cons hs hlater ih =>
      rw [List.map_cons, List.map_cons]
      cases hs with
      | marker s => exact ih
      | @declared d d' hd =>
          show Document.ofSegments (.declared d.unplaced :: _) =
            Document.ofSegments (.declared d'.unplaced :: _)
          rw [ofSegments_declared, ofSegments_declared, hd, ih]
      | passed current kind p q => exact ih

end SystemMap
