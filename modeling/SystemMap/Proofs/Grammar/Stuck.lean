/-
Faults stand where they are told to stand. A step of reading stops at one of the tokens that it
was given, or at their end, and names the kind and the place of that token (`Step.Stops`). There
is one lemma for each way of putting steps together and one for each construct; what is left
after a step is always an end part of the tokens, so a fault in a later step is one among the
same tokens.

A text that cannot be cut into tokens has its fault at the character where no piece starts. So
the fault of a text tells a character, a token or the end of that text, each at its own place
(`Outline.fault_standsIn`).
-/
import SystemMap.Proofs.Grammar.Uniform
import SystemMap.Proofs.Scan.Breaks

namespace SystemMap

open Step (manyWhile_eq manyAfter_eq length_lt_of_accept)

-- ============================================================== single steps

/-- A fault among tokens: at one of them, or at their end, or at a number that is too long. -/
inductive Tokens.StuckAt (ts : Tokens) : TextFault → Prop
  | mismatch (k : Nat) (want : Want) :
      StuckAt ts (.mismatch ⟨want, (ts.drop k).headKind?, (ts.drop k).position⟩)
  | numeral (f : Text.Numeral.Fault) : StuckAt ts (.numeral f)

/-- A fault at tokens that are left is one at the tokens there were. -/
theorem Tokens.StuckAt.of_drop {ts : Tokens} {k : Nat} {f : TextFault}
    (h : (ts.drop k).StuckAt f) : ts.StuckAt f := by
  cases h with
  | mismatch l want =>
      rw [Tokens.drop_drop]
      exact .mismatch (k + l) want
  | numeral f => exact .numeral f

namespace Step

variable {α β : Type}

/-- An outcome that leaves an end part of the tokens, or a fault among them. -/
inductive Ends (ts : Tokens) : Except TextFault (α × Tokens) → Prop
  | done (a : α) (k : Nat) : Ends ts (.ok (a, ts.drop k))
  | stuck {f : TextFault} (h : ts.StuckAt f) : Ends ts (.error f)

/-- Whether a step stops only at tokens that it was given. -/
def Stops (s : Step α) : Prop := ∀ ts, Ends ts (s ts)

/-- A step ends at given tokens if another one did and it goes on from what that one left. -/
theorem Ends.bind {ts : Tokens} {r : Except TextFault (α × Tokens)} {f : α → Step β}
    (h : Ends ts r) (hf : ∀ a k, r = .ok (a, ts.drop k) → Ends (ts.drop k) (f a (ts.drop k))) :
    Ends ts (match r with
      | .ok (a, rest) => f a rest
      | .error e => .error e) := by
  cases h with
  | done a k =>
      have hlater := hf a k rfl
      dsimp only
      generalize f a (ts.drop k) = r at hlater
      cases hlater with
      | done b l =>
          rw [Tokens.drop_drop]
          exact .done b (k + l)
      | stuck h => exact .stuck h.of_drop
  | stuck h => exact .stuck h

/-- A step that takes nothing does not stop. -/
theorem stops_pure (a : α) : (Step.pure a).Stops := fun _ => .done a 0

/-- Two steps stop at given tokens if each of them does. -/
theorem Stops.bind {s : Step α} {f : α → Step β} (hs : s.Stops) (hf : ∀ a, (f a).Stops) :
    (s.bind f).Stops :=
  fun ts => (hs ts).bind fun a k _ => hf a (ts.drop k)

/-- Whatever is made of the value, a step stops where it did. -/
theorem Stops.map {s : Step α} (hs : s.Stops) (f : α → β) : (s.map f).Stops :=
  hs.bind fun _ => stops_pure _

/-- A token that is not the wanted one is the one at which the step stops. -/
theorem stops_expect (kind : TokenKind) (want : Want) : (expect kind want).Stops := by
  intro ts
  have hstuck : ts.StuckAt (.mismatch ⟨want, ts.headKind?, ts.position⟩) := .mismatch 0 want
  unfold Tokens.headKind? Tokens.position at hstuck
  unfold expect
  cases hts : ts.list with
  | nil =>
      rw [hts] at hstuck
      exact .stuck hstuck
  | cons t tail =>
      rw [hts] at hstuck
      dsimp only
      split
      · rw [← Tokens.drop_one hts]
        exact .done t 1
      · exact .stuck hstuck

/-- An optional token stops nothing. -/
theorem stops_accept (kind : TokenKind) : (accept kind).Stops := by
  intro ts
  unfold accept
  cases hts : ts.list with
  | nil => exact .done false 0
  | cons t tail =>
      dsimp only
      split
      · rw [← Tokens.drop_one hts]
        exact .done true 1
      · exact .done false 0

/-- Looking where one is stops nothing. -/
theorem stops_here : here.Stops := fun ts => .done ts.position 0

/-- A number that is too long stops the step at itself. -/
theorem stops_numeral (t : Token) : (numeral t).Stops := by
  intro ts
  unfold numeral
  split
  · exact .done _ 0
  · exact .stuck (.numeral _)

-- ================================================================== lists

section Lists

variable {item : Step α}

/-- A list that goes on while the tokens ahead say so stops where an item does. -/
theorem stops_manyWhile {ahead : Tokens → Bool} {h : item.Shrinks} (hitem : item.Stops) :
    Stops (manyWhile ahead item h) := by
  intro ts
  induction hn : ts.list.length using Nat.strongRecOn generalizing ts with
  | ind n ih =>
      rw [manyWhile_eq]
      split
      · refine (hitem ts).bind fun a k hs => ?_
        have hshorter := hn ▸ h _ _ _ hs
        exact (ih _ hshorter _ rfl).bind fun as l _ => .done _ 0
      · exact .done [] 0

/-- A list that goes on after each sign stops where an item does. -/
theorem stops_manyAfter {sign : TokenKind} {h : item.Keeps} (hitem : item.Stops) :
    Stops (manyAfter sign item h) := by
  intro ts
  induction hn : ts.list.length using Nat.strongRecOn generalizing ts with
  | ind n ih =>
      rw [manyAfter_eq]
      refine (stops_accept sign ts).bind fun more k hs => ?_
      split
      · next hmore =>
        refine (hitem _).bind fun a l hitem => ?_
        have hshorter : ((ts.drop k).drop l).list.length < n := by
          rw [hmore] at hs
          exact hn ▸ Nat.lt_of_le_of_lt (h _ _ _ hitem) (length_lt_of_accept hs)
        exact (ih _ hshorter _ rfl).bind fun as m _ => .done _ 0
      · exact .done [] 0

/-- A list with signs between its items stops where an item does. -/
theorem stops_separated {sign : TokenKind} {h : item.Shrinks} (hitem : item.Stops) :
    (separated sign item h).Stops :=
  hitem.bind fun _ => (stops_manyAfter hitem).map _

end Lists

end Step

open Step (Stops stops_pure stops_expect stops_accept stops_here stops_numeral stops_manyWhile
  stops_separated)

-- ============================================================== constructs

theorem PortSpec.stops_stepPorts : stepPorts.Stops := by
  refine (stops_expect _ _).bind fun first => (stops_accept _).bind fun ranged => ?_
  split
  · refine (stops_expect _ _).bind fun last => ?_
    exact (stops_numeral _).bind fun a => (stops_numeral _).bind fun b => stops_pure _
  · exact (stops_numeral _).map _

theorem PortSpec.stops_step : step.Stops := by
  refine (stops_accept _).bind fun udp => ?_
  split
  · refine (stops_expect _ _).bind fun _ => stops_stepPorts.bind fun ports => ?_
    exact (stops_expect _ _).bind fun _ => stops_pure _
  · exact stops_stepPorts.map _

theorem Connector.stops_stepPortList : stepPortList.Stops := by
  refine (stops_accept _).bind fun listed => ?_
  split
  · refine (stops_separated PortSpec.stops_step).bind fun ports => ?_
    exact (stops_expect _ _).bind fun _ => stops_pure _
  · exact stops_pure _

theorem Connector.stops_step : step.Stops := by
  refine stops_here.bind fun position => (stops_accept _).bind fun starred => ?_
  refine (stops_expect _ _).bind fun name => ?_
  exact stops_stepPortList.bind fun ports => stops_pure _

theorem NodeClass.stops_step : step.Stops := by
  refine (stops_expect _ _).bind fun name => (stops_expect _ _).bind fun _ => ?_
  exact Stops.map (stops_manyWhile Connector.stops_step) _

theorem ConnectorRef.stops_step (nodeClass connector : Want) : (step nodeClass connector).Stops :=
  (stops_expect _ _).bind fun _ => (stops_expect _ _).bind fun _ => (stops_expect _ _).map _

theorem LinkClass.stops_step : step.Stops := by
  refine stops_here.bind fun position => (ConnectorRef.stops_step _ _).bind fun source => ?_
  exact (stops_expect _ _).bind fun _ => (ConnectorRef.stops_step _ _).map _

theorem stops_stepAddress : stepAddress.Stops := (stops_separated (stops_expect _ _)).map _

theorem InstanceEntry.stops_stepAddress? : stepAddress?.Stops := by
  refine (stops_accept _).bind fun opened => ?_
  split
  · refine stops_stepAddress.bind fun address => ?_
    exact (stops_expect _ _).bind fun _ => stops_pure _
  · exact stops_pure _

theorem InstanceEntry.stops_step : step.Stops :=
  (stops_expect _ _).bind fun _ => stops_stepAddress?.map _

theorem InstanceGroup.stops_step : step.Stops :=
  (stops_expect _ _).bind fun _ => (stops_separated InstanceEntry.stops_step).map _

theorem Translation.stops_step : step.Stops := by
  refine (stops_expect _ _).bind fun mark => (stops_expect _ _).bind fun name => ?_
  refine (stops_expect _ _).bind fun _ => stops_stepAddress.bind fun external => ?_
  refine (stops_expect _ _).bind fun _ => stops_stepAddress.bind fun internal => ?_
  exact (stops_expect _ _).map _

theorem Connection.stops_step : step.Stops :=
  (stops_expect _ _).bind fun _ => (stops_expect _ _).bind fun _ => (stops_expect _ _).map _

theorem Include.stops_step : step.Stops :=
  (stops_expect _ _).bind fun _ => (stops_expect _ _).map _

/-- Whatever a section declares, its step stops only at tokens that it was given. -/
theorem Declaration.stops_of_step? {current : Option Section} {kind : TokenKind}
    {s : Step Declaration} (h : step? current kind = some s) : s.Stops := by
  unfold step? at h
  split at h <;> cases h
  · exact Include.stops_step.map _
  · exact NodeClass.stops_step.map _
  · exact LinkClass.stops_step.map _
  · exact InstanceGroup.stops_step.map _
  · exact Translation.stops_step.map _
  · exact Connection.stops_step.map _

-- ================================================================= outlines

/-- A segment is read to a point among its tokens, or it is stuck at one of them. -/
theorem Segment.ends_read {ts : Tokens} {t : Token} {tail : List Token}
    (hts : ts.list = t :: tail) (current : Option Section) :
    Step.Ends ts (Segment.read current t tail ts.finish) := by
  have hall : (⟨t :: tail, ts.finish⟩ : Tokens) = ts := by rw [← hts]
  have hone : ts.drop 1 = ⟨tail, ts.finish⟩ := Tokens.drop_one hts
  unfold Segment.read
  rw [hall]
  split
  · rw [← hone]
    exact .done _ 1
  · split
    · next step hstep => exact (Declaration.stops_of_step? hstep).map _ ts
    · rw [← hone]
      exact .done _ 1

/-- The fault of an outline is one among its tokens. The induction is on what is left to read. -/
theorem Outline.fault_stuckAt {ts : Tokens} {current : Option Section} {f : TextFault}
    (h : (ofTokensFrom current ts).fault = some f) : ts.StuckAt f := by
  induction hn : ts.list.length using Nat.strongRecOn generalizing current ts with
  | ind n ih =>
      cases hts : ts.list with
      | nil =>
          rw [ofTokensFrom_nil hts] at h
          cases h
      | cons t tail =>
          rw [ofTokensFrom_cons hts] at h
          have hread := Segment.ends_read hts current
          generalize hr : Segment.read current t tail ts.finish = r at h hread
          cases hread with
          | stuck hstuck =>
              cases h
              exact hstuck
          | done seg k =>
              have hless : (ts.drop k).list.length < n := hn ▸ hts ▸ Segment.read_shorter hr
              exact (ih _ hless h rfl).of_drop

-- ==================================================================== texts

/-- `f.StandsIn text`: what the fault is about stands in the text at the place that the fault
tells. It is a character that nothing starts with, a quote that is not closed, a token of the
text, or its end. -/
inductive TextFault.StandsIn (text : String) : TextFault → Prop
  | character {before after : List Char} {c : Char} (htext : text.toList = before ++ c :: after) :
      StandsIn text (.scan ⟨.unexpected c, .ofOffset text.toList before.length⟩)
  | openQuote {before after : List Char} (htext : text.toList = before ++ '"' :: after)
      (hopen : '"' ∉ after) :
      StandsIn text (.scan ⟨.unterminatedText, .ofOffset text.toList before.length⟩)
  | token {ts : Tokens} {t : Token} {start : Nat} (hscan : SystemMap.scan text = .ok ts)
      (ht : t ∈ ts.list)
      (hwritten : t.lexeme.text <+: text.toList.drop start)
      (hplace : t.position = .ofOffset text.toList start) (want : Want) :
      StandsIn text (.mismatch ⟨want, some t.kind, t.position⟩)
  | finish {ts : Tokens} (hscan : SystemMap.scan text = .ok ts) (want : Want) :
      StandsIn text (.mismatch ⟨want, none, .ofOffset text.toList text.toList.length⟩)

/-- A character that no lexeme starts with is one of the text. -/
theorem TextFault.StandsIn.mem_of_unexpected {text : String} {c : Char} {p : Position}
    (h : (TextFault.scan ⟨.unexpected c, p⟩).StandsIn text) : c ∈ text.toList := by
  generalize hf : TextFault.scan ⟨.unexpected c, p⟩ = f at h
  cases h with
  | character htext =>
      cases hf
      rw [htext]
      exact List.mem_append_right _ List.mem_cons_self
  | _ => cases hf

/-- What stops a scan is found in the text that was scanned. -/
theorem standsIn_of_scan_error {text : String} {e : ScanError} (h : scan text = .error e) :
    (TextFault.scan e).StandsIn text := by
  obtain ⟨before, c, after, htext, -, hcut, hplace⟩ := scanFrom_error_iff.1 h
  obtain ⟨fault, position⟩ := e
  dsimp only at hplace hcut
  have hoffset : position = .ofOffset text.toList before.text.length := by
    rw [hplace, ← after_take_eq_ofOffset, htext, List.take_left]
  rw [hoffset]
  rcases Piece.cut_error_iff.1 hcut with ⟨rfl, -⟩ | ⟨rfl, rfl, hopen⟩
  · exact .character htext
  · exact .openQuote htext hopen

/-- The next token stands in the text where it says, and so does the end. -/
theorem standsIn_of_stuckAt {text : String} {ts : Tokens} (hscan : scan text = .ok ts)
    {m : Mismatch} (h : ts.StuckAt (.mismatch m)) : (TextFault.mismatch m).StandsIn text := by
  obtain ⟨slices, hmap, htiled, -, -, hfinish⟩ := scan_ok_iff_tiled.1 hscan
  cases h with
  | mismatch k want =>
      unfold Tokens.headKind? Tokens.position Tokens.drop
      cases hdrop : ts.list.drop k with
      | nil =>
          rw [hfinish]
          exact .finish hscan want
      | cons t tail =>
          have ht : t ∈ ts.list := List.mem_of_mem_drop (hdrop ▸ List.mem_cons_self)
          have hslice : t ∈ slices.map (·.token) := hmap ▸ ht
          obtain ⟨s, hs, rfl⟩ := List.mem_map.1 hslice
          have hfits := htiled.fits s hs
          refine .token hscan ht ?_ hfits.placed want
          rw [← hfits.written]
          exact List.take_prefix ..

/-- The fault of a text stands in it, if it is not about a number that is too long. -/
theorem Outline.fault_standsIn {text : String} {f : TextFault} (h : (ofText text).fault = some f)
    (hf : ∀ n, f ≠ .numeral n) : f.StandsIn text := by
  unfold ofText at h
  cases hscan : scan text with
  | error e =>
      rw [hscan] at h
      cases h
      exact standsIn_of_scan_error hscan
  | ok ts =>
      rw [hscan] at h
      have hstuck := fault_stuckAt h
      cases f with
      | scan e => cases hstuck
      | mismatch m => exact standsIn_of_stuckAt hscan hstuck
      | numeral n => exact absurd rfl (hf n)

end SystemMap
