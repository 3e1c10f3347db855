/-
Reading tokens whose places are moved. A step looks at places only to put them into what it
yields, so on moved tokens it takes as many as before and yields the same but for its places,
which are moved likewise, and where it stops it stops at the same token, moved (`Step.Carries`).
With that the outline of moved tokens is their outline, moved.

`Carries` speaks of two steps, since what is read next may depend on a token found before, and
that token is moved as well. There is one lemma for each way of putting steps together and one
for each construct.
-/
import SystemMap.Proofs.Document.Moved
import SystemMap.Proofs.Grammar.Alike
import SystemMap.Proofs.Grammar.Split
import SystemMap.Proofs.Scan.Lines

namespace SystemMap

-- ================================================================== faults

section Moved

variable (f : Position → Position)

/-- A fault of a text with its place moved; a number that is too long has none. -/
def TextFault.moved : TextFault → TextFault
  | .scan e => .scan (e.moved f)
  | .mismatch m => .mismatch { m with position := f m.position }
  | .numeral n => .numeral n

/-- An outline with its places moved. -/
def Outline.moved (o : Outline) : Outline :=
  ⟨o.segments.map (.moved f), o.fault.map (.moved f)⟩

end Moved

namespace Step

-- ============================================================= single steps

variable {α α' β β' : Type} {f : Position → Position}

/-- What a step comes to, with places moved by `f` and the value sent through `g`. -/
def Moved (f : Position → Position) (g : α → α') :
    Except TextFault (α × Tokens) → Except TextFault (α' × Tokens)
  | .ok (a, rest) => .ok (g a, rest.moved f)
  | .error e => .error (e.moved f)

/-- On moved tokens the second step comes to what the first comes to, moved. -/
def Carries (f : Position → Position) (g : α → α') (s : Step α) (s' : Step α') : Prop :=
  ∀ ts, s' (ts.moved f) = Moved f g (s ts)

/-- Steps that take nothing carry over if their values do. -/
theorem carries_pure {g : α → α'} {a : α} {a' : α'} (h : g a = a') :
    Carries f g (Step.pure a) (Step.pure a') := fun _ => by rw [← h]; rfl

/-- One step after another, on tokens where the first of them is known to carry over. -/
theorem bind_moved {g : α → α'} {h : β → β'} {s : Step α} {s' : Step α'} {k : α → Step β}
    {k' : α' → Step β'} {ts : Tokens} (hs : s' (ts.moved f) = Moved f g (s ts))
    (hk : ∀ a rest, s ts = .ok (a, rest) → k' (g a) (rest.moved f) = Moved f h (k a rest)) :
    s'.bind k' (ts.moved f) = Moved f h (s.bind k ts) := by
  unfold Step.bind
  rw [hs]
  cases hr : s ts with
  | ok r => exact hk r.1 r.2 hr
  | error e => rfl

/-- Steps in a row carry over if each does, whatever value the first passes on. -/
theorem Carries.bind {g : α → α'} {h : β → β'} {s : Step α} {s' : Step α'}
    {k : α → Step β} {k' : α' → Step β'} (hs : Carries f g s s')
    (hk : ∀ a, Carries f h (k a) (k' (g a))) : Carries f h (s.bind k) (s'.bind k') :=
  fun ts => bind_moved (hs ts) fun a rest _ => hk a rest

/-- Whatever is made of the values must agree with how they are moved. -/
theorem Carries.map {g : α → α'} {h : β → β'} {s : Step α} {s' : Step α'} {u : α → β}
    {u' : α' → β'} (hs : Carries f g s s') (hu : ∀ a, h (u a) = u' (g a)) :
    Carries f h (s.map u) (s'.map u') := hs.bind fun a => carries_pure (hu a)

/-- The token that was wanted is the moved one, and a fault has its place moved. -/
theorem carries_expect (kind : TokenKind) (want : Want) :
    Carries f (Token.moved f) (expect kind want) (expect kind want) := by
  intro ts
  obtain ⟨list, finish⟩ := ts
  cases list with
  | nil => rfl
  | cons t list =>
      show (if t.kind = kind then _ else _) = Moved f _ (if t.kind = kind then _ else _)
      split <;> rfl

/-- Whether an optional token is there does not depend on places. -/
theorem carries_accept (kind : TokenKind) : Carries f id (accept kind) (accept kind) := by
  intro ts
  obtain ⟨list, finish⟩ := ts
  cases list with
  | nil => rfl
  | cons t list =>
      show (if t.kind = kind then _ else _) = Moved f _ (if t.kind = kind then _ else _)
      split <;> rfl

/-- The place where a step stands is the moved one. -/
theorem carries_here : Carries f f here here := by
  intro ts
  obtain ⟨list, finish⟩ := ts
  cases list <;> rfl

/-- A number has the same value elsewhere. -/
theorem carries_numeral (t : Token) : Carries f id (numeral t) (numeral (t.moved f)) := by
  intro ts
  unfold numeral
  rw [t.moved_value]
  cases Text.Numeral.read t.value <;> rfl

-- ==================================================================== lists

section Lists

variable {g : α → α'} {item : Step α} {item' : Step α'}

/-- A list whose end is told by what lies ahead, if that is told by kinds of tokens only. -/
theorem carries_manyWhile {ahead : Tokens → Bool} {h : item.Shrinks} {h' : item'.Shrinks}
    (hitem : Carries f g item item') (hahead : ∀ ts, ahead (ts.moved f) = ahead ts) :
    Carries f (List.map g) (manyWhile ahead item h) (manyWhile ahead item' h') := by
  intro ts
  induction hn : ts.list.length using Nat.strongRecOn generalizing ts with
  | ind n ih =>
      rw [manyWhile_eq, manyWhile_eq, hahead ts]
      split
      · refine bind_moved (hitem ts) fun a rest hs => ?_
        exact bind_moved (ih _ (hn ▸ h _ _ _ hs) rest rfl) fun as last _ => rfl
      · rfl

/-- A list that goes on after each sign is moved item by item. -/
theorem carries_manyAfter {sign : TokenKind} {h : item.Keeps} {h' : item'.Keeps}
    (hitem : Carries f g item item') :
    Carries f (List.map g) (manyAfter sign item h) (manyAfter sign item' h') := by
  intro ts
  induction hn : ts.list.length using Nat.strongRecOn generalizing ts with
  | ind n ih =>
      rw [manyAfter_eq, manyAfter_eq]
      refine bind_moved (carries_accept sign ts) fun more mid haccept => ?_
      cases more with
      | false => rfl
      | true =>
          refine bind_moved (hitem mid) fun a rest hs => ?_
          have hless : rest.list.length < n :=
            hn ▸ Nat.lt_of_le_of_lt (h _ _ _ hs) (length_lt_of_accept haccept)
          exact bind_moved (ih _ hless rest rfl) fun as last _ => rfl

/-- A list with signs between its items is moved item by item. -/
theorem carries_separated {sign : TokenKind} {h : item.Shrinks} {h' : item'.Shrinks}
    (hitem : Carries f g item item') :
    Carries f (List.map g) (separated sign item h) (separated sign item' h') :=
  hitem.bind fun _ => (carries_manyAfter hitem).map fun _ => rfl

end Lists

end Step

open Step (Carries carries_pure carries_expect carries_accept carries_here carries_numeral
  carries_manyWhile carries_separated)

-- =============================================================== constructs

section Constructs

variable (f : Position → Position)

theorem PortSpec.carries_stepPorts : Carries f id stepPorts stepPorts := by
  refine (carries_expect _ _).bind fun first => (carries_accept _).bind fun ranged => ?_
  cases ranged with
  | true =>
      refine (carries_expect _ _).bind fun last => (carries_numeral first).bind fun a => ?_
      exact (carries_numeral last).bind fun b => carries_pure rfl
  | false => exact (carries_numeral first).map fun a => rfl

/-- Ports keep no place. -/
theorem PortSpec.carries_step : Carries f id step step := by
  refine (carries_accept _).bind fun udp => ?_
  cases udp with
  | true =>
      refine (carries_expect _ _).bind fun _ => (carries_stepPorts f).bind fun ports => ?_
      exact (carries_expect _ _).bind fun _ => carries_pure rfl
  | false => exact (carries_stepPorts f).map fun ports => rfl

theorem Connector.carries_stepPortList : Carries f id stepPortList stepPortList := by
  refine (carries_accept _).bind fun listed => ?_
  cases listed with
  | true =>
      refine (carries_separated (PortSpec.carries_step f)).bind fun ports => ?_
      exact (carries_expect _ _).bind fun _ => carries_pure (List.map_id ports).symm
  | false => exact carries_pure rfl

/-- A connector stands where its first token does, so it is moved as that is. -/
theorem Connector.carries_step : Carries f (Connector.moved f) step step := by
  refine carries_here.bind fun position => (carries_accept _).bind fun starred => ?_
  refine (carries_expect _ _).bind fun name => ?_
  exact (carries_stepPortList f).bind fun ports => carries_pure rfl

/-- A node class is moved with its connectors. -/
theorem NodeClass.carries_step : Carries f (NodeClass.moved f) step step := by
  refine (carries_expect _ _).bind fun name => (carries_expect _ _).bind fun _ => ?_
  refine (carries_manyWhile (Connector.carries_step f) fun ts => ?_).map fun connectors => rfl
  unfold moreConnectors
  rw [ts.headKind?_moved, ts.secondKind?_moved]

/-- A reference keeps no place. -/
theorem ConnectorRef.carries_step (nodeClass connector : Want) :
    Carries f id (step nodeClass connector) (step nodeClass connector) := by
  refine (carries_expect _ _).bind fun c => (carries_expect _ _).bind fun _ => ?_
  exact (carries_expect _ _).map fun n => rfl

theorem LinkClass.carries_step : Carries f (LinkClass.moved f) step step := by
  refine carries_here.bind fun position => (ConnectorRef.carries_step f _ _).bind fun source => ?_
  refine (carries_expect _ _).bind fun _ => ?_
  exact (ConnectorRef.carries_step f _ _).map fun target => rfl

theorem carries_stepAddress : Carries f id stepAddress stepAddress := by
  refine (carries_separated (carries_expect _ _)).map fun octets => ?_
  rw [List.map_map]
  rfl

theorem InstanceEntry.carries_stepAddress? : Carries f id stepAddress? stepAddress? := by
  refine (carries_accept _).bind fun opened => ?_
  cases opened with
  | true =>
      refine (carries_stepAddress f).bind fun address => ?_
      exact (carries_expect _ _).bind fun _ => carries_pure rfl
  | false => exact carries_pure rfl

theorem InstanceEntry.carries_step : Carries f (InstanceEntry.moved f) step step :=
  (carries_expect _ _).bind fun _ => (carries_stepAddress? f).map fun _ => rfl

/-- A group is moved with its instances. -/
theorem InstanceGroup.carries_step : Carries f (InstanceGroup.moved f) step step :=
  (carries_expect _ _).bind fun _ =>
    (carries_separated (InstanceEntry.carries_step f)).map fun _ => rfl

theorem Translation.carries_step : Carries f (Translation.moved f) step step := by
  refine (carries_expect _ _).bind fun mark => (carries_expect _ _).bind fun name => ?_
  refine (carries_expect _ _).bind fun _ => (carries_stepAddress f).bind fun external => ?_
  refine (carries_expect _ _).bind fun _ => (carries_stepAddress f).bind fun internal => ?_
  exact (carries_expect _ _).map fun _ => rfl

theorem Connection.carries_step : Carries f (Connection.moved f) step step :=
  (carries_expect _ _).bind fun _ => (carries_expect _ _).bind fun _ =>
    (carries_expect _ _).map fun _ => rfl

theorem Include.carries_step : Carries f (Include.moved f) step step :=
  (carries_expect _ _).bind fun _ => (carries_expect _ _).map fun _ => rfl

/-- Whatever a section declares, its step carries over to moved tokens. -/
theorem Declaration.carries_of_step? {current : Option Section} {kind : TokenKind}
    {s : Step Declaration} (h : step? current kind = some s) :
    Carries f (Declaration.moved f) s s := by
  unfold step? at h
  split at h <;> cases h
  · exact (Include.carries_step f).map fun _ => rfl
  · exact (NodeClass.carries_step f).map fun _ => rfl
  · exact (LinkClass.carries_step f).map fun _ => rfl
  · exact (InstanceGroup.carries_step f).map fun _ => rfl
  · exact (Translation.carries_step f).map fun _ => rfl
  · exact (Connection.carries_step f).map fun _ => rfl

-- ================================================================= outlines

/-- A segment that is moved is read as before, and what it declares is moved with it. -/
theorem Segment.read_moved (current : Option Section) (t : Token) (tail : List Token)
    (finish : Position) :
    Segment.read current (t.moved f) (tail.map (.moved f)) (f finish) =
      Step.Moved f (Segment.moved f) (Segment.read current t tail finish) := by
  unfold Segment.read
  rw [t.moved_kind]
  cases hkind : t.kind with
  | marker s => rfl
  | _ =>
      dsimp only
      split
      · next step hstep =>
        have hcarries : Carries f (Segment.moved f) (step.map Segment.declared)
            (step.map Segment.declared) := (Declaration.carries_of_step? f hstep).map fun _ => rfl
        exact hcarries ⟨t :: tail, finish⟩
      · rfl

/-- A segment of moved tokens sets the section that it set before. -/
theorem Segment.sectionAfter_moved (s : Segment) (current : Option Section) :
    (s.moved f).sectionAfter current = s.sectionAfter current := by
  cases s <;> rfl

/-- The outline of moved tokens is their outline, moved. The induction is on what is left to
read. -/
theorem Outline.ofTokensFrom_moved (current : Option Section) (ts : Tokens) :
    ofTokensFrom current (ts.moved f) = (ofTokensFrom current ts).moved f := by
  induction hn : ts.list.length using Nat.strongRecOn generalizing current ts with
  | ind n ih =>
      have hlist : (ts.moved f).list = ts.list.map (.moved f) := rfl
      cases hts : ts.list with
      | nil =>
          rw [hts] at hlist
          rw [ofTokensFrom_nil hts, ofTokensFrom_nil hlist]
          rfl
      | cons t tail =>
          rw [hts, List.map_cons] at hlist
          rw [ofTokensFrom_cons hts, ofTokensFrom_cons hlist]
          have hfinish : (ts.moved f).finish = f ts.finish := rfl
          rw [hfinish, Segment.read_moved]
          cases hread : Segment.read current t tail ts.finish with
          | error fault => rfl
          | ok r =>
              obtain ⟨s, rest⟩ := r
              have hless : rest.list.length < n := by
                rw [← hn, hts]
                exact Segment.read_shorter hread
              dsimp only [Step.Moved]
              rw [s.sectionAfter_moved, ih _ hless _ rest rfl]
              rfl

end Constructs

end SystemMap
