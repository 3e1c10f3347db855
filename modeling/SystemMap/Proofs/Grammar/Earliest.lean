/-
A fault of the grammar is reported at the earliest token that could show it. Each construct is a
viable step, so inside a construct that is so by the way in which it is put together. From one
segment to the next it is so because a construct that has ended goes on before no tokens that
start in the same way; the only construct for which two tokens matter is a node class, and there
the fault lies behind both of them, since a name and a double colon are always taken.
-/
import SystemMap.Proofs.Grammar.Viable

namespace SystemMap

open Step (Viable Early Takes viable_pure viable_separated early_optional numeral_bind
  expect_bind_cons accept_bind_cons accept_bind_other manyWhile manyWhile_go manyWhile_stop)

-- =============================================================== constructs

/-- Ports take a number at least, and a dash would go on with them. -/
theorem viable_stepPorts : PortSpec.stepPorts.Viable (Ends [.dash]) [.number] := by
  refine Viable.expect fun first hkind hfirst => ?_
  obtain ⟨a, ha⟩ := hfirst.exists_read hkind
  refine Viable.accept [.number] ?_ ?_ fun tail htail => htail _ List.mem_cons_self
  · refine Viable.expect fun last hkind hlast => ?_
    obtain ⟨b, hb⟩ := hlast.exists_read hkind
    rw [numeral_bind ha, numeral_bind hb]
    exact viable_pure _
  · show ((Step.numeral first).bind fun a => Step.pure (Ports.single a)).Viable _ _
    rw [numeral_bind ha]
    exact viable_pure _

theorem viable_portSpec : PortSpec.step.Viable (Ends [.dash]) [.number] := by
  refine Viable.accept [.leftParen, .number, .rightParen] ?_ (viable_stepPorts.map _)
    fun tail _ => nofun
  refine Viable.expect fun _ _ _ => ?_
  exact viable_stepPorts.bind reads_ports Ports.Spelled.endsBy
    (fun ports => Viable.expect fun _ _ _ => viable_pure _) fun tail _ => ends_sample (by decide) _

/-- What follows the parenthesis that opens ports. -/
theorem viable_portsListed {α : Type} (f : List PortSpec → α) (closed : List Token → Prop) :
    ((Step.separated .comma PortSpec.step PortSpec.shrinks_step).bind fun ports =>
      (Step.expect .rightParen .portListEnd).bind fun _ => Step.pure (f ports)).Viable closed
      [.number, .rightParen] :=
  (viable_separated .comma viable_portSpec reads_portSpec PortSpec.Spelled.endsBy).bind
    (Step.reads_separated _ reads_portSpec) (Listed.endsBy PortSpec.Spelled.endsBy)
    (fun ports => Viable.expect fun _ _ _ => viable_pure _) fun tail _ => ends_sample (by decide) _

/-- A list of ports may be missing, and a parenthesis would begin one. -/
theorem viable_portList : Connector.stepPortList.Viable (Ends [.leftParen]) [] :=
  Viable.accept _ (viable_portsListed id _) (viable_pure _)
    fun _ htail => htail _ List.mem_cons_self

/-- Where a list of ports has begun, it stops behind its first token at the earliest. -/
theorem early_portList {ts : Tokens} (hts : AllReadable ts.list) :
    Connector.stepPortList.Early (Ends [.leftParen]) 1 ts := by
  refine early_optional [.number, .rightParen] (b := []) (viable_portsListed id _) ?_ hts
  rfl

/-- A connector after its star. -/
theorem viable_starred (p : Position) :
    ((Step.expect .name .connectorName).bind fun name => Connector.stepPortList.bind fun ports =>
      Step.pure (⟨name.value, .client, ports, some p⟩ : Connector)).Viable (Ends [.leftParen])
      [.name] :=
  Viable.expect fun _ _ _ => viable_portList.bind reads_portList PortList.endsBy
    (fun _ => viable_pure _) fun _ htail => htail

/-- A connector knows its place from the start. -/
theorem connector_step_eq (ts : Tokens) :
    Connector.step ts = (Step.accept .star).bind (fun starred =>
      (Step.expect .name .connectorName).bind fun name => Connector.stepPortList.bind fun ports =>
      Step.pure ⟨name.value, if starred then .client else .server, ports, some ts.position⟩) ts :=
  rfl

/-- A reference takes a name, a dot and a name, whatever follows. -/
theorem viable_connectorRef (nodeClass connector : Want) (closed : List Token → Prop) :
    (ConnectorRef.step nodeClass connector).Viable closed [.name, .dot, .name] :=
  Viable.expect fun _ _ _ => Viable.expect fun _ _ _ => Viable.expect fun _ _ _ => viable_pure _

/-- An address takes a number at least, and a dot would go on with it. -/
theorem viable_address : stepAddress.Viable (Ends [.dot]) [.number] := by
  have hoctet : (Step.expect .number .octet).Viable (Ends []) [.number] := by
    have hone : ((Step.expect .number .octet).bind Step.pure).Viable (Ends []) [.number] :=
      Viable.expect fun _ _ _ => viable_pure _
    rwa [Step.bind_pure] at hone
  exact (viable_separated .dot hoctet (Step.reads_expect _ _) (endsBy_token _)).map _

/-- An address may be missing, and a parenthesis would begin one. -/
theorem viable_address? : InstanceEntry.stepAddress?.Viable (Ends [.leftParen]) [] := by
  refine Viable.accept [.number, .rightParen] ?_ (viable_pure _)
    fun tail htail => htail _ List.mem_cons_self
  exact viable_address.bind reads_address AddressSpelled.endsBy
    (fun address => Viable.expect fun _ _ _ => viable_pure _)
    fun tail _ => ends_sample (by decide) _

/-- An instance takes a name at least, and a parenthesis would go on with it. -/
theorem viable_instanceEntry : InstanceEntry.step.Viable (Ends [.leftParen]) [.name] :=
  Viable.expect fun _ _ _ => viable_address?.map _

-- ============================================================= node classes

section Connectors

variable {ts : Tokens}

/-- A connector with a star does not stop at the star, -/
theorem early_starred (hts : AllReadable ts.list) (h : Next .star ts.list) :
    Connector.step.Early (Ends [.leftParen]) 1 ts := by
  obtain ⟨t, tail, hlist, ht⟩ := h.exists_cons
  rw [hlist] at hts
  have hstarred := (viable_starred t.position).early ⟨tail, ts.finish⟩ hts.tail
  refine hstarred.cons hlist fun tail finish => ?_
  rw [connector_step_eq, accept_bind_cons ht]
  rfl

/-- and one without a star does not stop at its name or at the token after it. -/
theorem early_named (hts : AllReadable ts.list) (h : Next .name ts.list) :
    Connector.step.Early (Ends [.leftParen]) 2 ts := by
  obtain ⟨t, tail, hlist, ht⟩ := h.exists_cons
  rw [hlist] at hts
  have hports : Connector.stepPortList.Early (Ends [.leftParen]) 1 ⟨tail, ts.finish⟩ :=
    early_portList hts.tail
  have hnamed := hports.map fun ports =>
    (⟨t.value, .server, ports, some t.position⟩ : Connector)
  refine hnamed.cons hlist fun tail finish => ?_
  have hstar : ¬ Next .star (t :: tail) := by
    intro hstar
    cases ht.symm.trans hstar
  rw [connector_step_eq, accept_bind_other hstar, expect_bind_cons ht]
  rfl

/-- No connectors at all are connectors. -/
theorem takes_connectors : Takes (· = []) []
    (manyWhile NodeClass.moreConnectors Connector.step Connector.shrinks_step) := by
  rintro tail finish rfl
  exact ⟨[], manyWhile_stop Connector.shrinks_step Bool.false_ne_true⟩

/-- Connectors stop inside one of them, if at all, and not at the token that starts it. The
induction is that of the loop. -/
theorem early_connectors (hts : AllReadable ts.list) : Step.Early (· = []) 1
    (manyWhile NodeClass.moreConnectors Connector.step Connector.shrinks_step) ts := by
  induction hn : ts.list.length using Nat.strongRecOn generalizing ts with
  | ind n ih =>
      -- one round, which takes at least the token that it starts with
      have hround : ∀ first ≤ 2, Connector.step.Early (Ends [.leftParen]) first ts →
          (Connector.step.bind fun c => Step.map (c :: ·)
            (manyWhile NodeClass.moreConnectors Connector.step Connector.shrinks_step)).Early
            (· = []) first ts := by
        intro first hfirst hearly
        refine .bind reads_connector Connector.Spelled.endsBy [] hearly
          (fun c k hc => ?_) (fun c => takes_connectors.map _) fun tail htail => htail ▸ ends_nil _
        have hshorter := Connector.shrinks_step _ _ _ hc
        have hlen : (ts.drop k).list.length = ts.list.length - k := List.length_drop
        exact ((ih _ (hn ▸ hshorter) (hts.drop k) rfl).map _).mono (by omega)
      have hgo : ∀ us : Tokens, StartsConnector us.list →
          manyWhile NodeClass.moreConnectors Connector.step Connector.shrinks_step us =
            (Connector.step.bind fun c => Step.map (c :: ·)
              (manyWhile NodeClass.moreConnectors Connector.step Connector.shrinks_step)) us :=
        fun us hus => manyWhile_go _ ((moreConnectors_iff us).2 hus)
      by_cases hstarts : StartsConnector ts.list
      · rcases hstarts with hstar | ⟨hname, hcolon⟩
        · refine (hround 1 (by omega) (early_starred hts hstar)).congr [] (j := 1)
            (fun us hus => hgo us (.inl ((hus.next_iff .star).2 hstar))) (.inl (Nat.le_refl _))
            takes_connectors
        · refine Early.mono (n := 2) ?_ (by omega)
          exact (hround 2 (Nat.le_refl _) (early_named hts hname)).congr [] (j := 2)
            (fun us hus => hgo us (hus.startsConnector_iff.2 (.inr ⟨hname, hcolon⟩)))
            (.inl (Nat.le_refl _)) takes_connectors
      · intro e he
        rw [manyWhile_stop _ fun hb => hstarts ((moreConnectors_iff ts).1 hb)] at he
        cases he

end Connectors

-- ============================================================= declarations

section Declarations

variable {t : Token} {tail : List Token} {finish : Position}

/-- Connectors in a row may be none, and they can always be the last tokens. -/
theorem viable_connectors : Step.Viable (· = []) []
    (manyWhile NodeClass.moreConnectors Connector.step Connector.shrinks_step) where
  takes := takes_connectors
  early := fun _ hts => (early_connectors hts).mono (Nat.zero_le 1)

/-- A step that wants its first token of the kind that it has does not stop there. -/
theorem early_expected {α : Type} {closed : List Token → Prop} {run : List TokenKind}
    {kind : TokenKind} {want : Want} {f : Token → Step α} (ht : t.kind = kind)
    (hf : (f t).Viable closed run) (hts : AllReadable (t :: tail)) :
    ((Step.expect kind want).bind f).Early closed 1 ⟨t :: tail, finish⟩ :=
  (hf.early ⟨tail, finish⟩ hts.tail).cons rfl (expect_bind_cons ht)

/-- A node class has its first token, so it stops behind that. -/
theorem NodeClass.early_step (ht : t.kind = .name) (hts : AllReadable (t :: tail)) :
    NodeClass.step.Early (· = []) 1 ⟨t :: tail, finish⟩ :=
  early_expected ht (Viable.expect fun _ _ _ => viable_connectors.map _) hts

/-- A node class does not stop at the double colon after its name. -/
theorem NodeClass.early_step_colon (ht : t.kind = .name) (hcolon : Next .doubleColon tail)
    (hts : AllReadable (t :: tail)) : NodeClass.step.Early (· = []) 2 ⟨t :: tail, finish⟩ := by
  obtain ⟨c, later, rfl, hc⟩ := hcolon.exists_cons
  exact (early_expected hc (viable_connectors.map _) hts.tail).cons rfl (expect_bind_cons ht)

/-- A link class after the name that it starts with. -/
theorem linkClass_step_eq (ht : t.kind = .name) (tail : List Token) (finish : Position) :
    LinkClass.step ⟨t :: tail, finish⟩ = (Step.expect .dot .refDot).bind (fun _ =>
      (Step.expect .name .sourceConnector).bind fun n => (Step.expect .arrow .arrow).bind fun _ =>
      (ConnectorRef.step .targetClass .targetConnector).map fun target =>
        (⟨⟨t.value, n.value⟩, target, some t.position⟩ : LinkClass)) ⟨tail, finish⟩ := by
  show (ConnectorRef.step .sourceClass .sourceConnector).bind _ _ = _
  unfold ConnectorRef.step Step.map
  rw [Step.bind_assoc, expect_bind_cons ht]
  simp only [Step.bind_assoc, Step.pure_bind]
  rfl

/-- The other declarations are steps in a row, so they stop as early as their parts do. -/
theorem LinkClass.early_step (ht : t.kind = .name) (hts : AllReadable (t :: tail)) :
    LinkClass.step.Early (· = []) 1 ⟨t :: tail, finish⟩ := by
  have hlater : ((Step.expect .dot .refDot).bind fun _ =>
      (Step.expect .name .sourceConnector).bind fun n => (Step.expect .arrow .arrow).bind fun _ =>
      (ConnectorRef.step .targetClass .targetConnector).map fun target =>
        (⟨⟨t.value, n.value⟩, target, some t.position⟩ : LinkClass)).Viable (· = [])
      [.dot, .name, .arrow, .name, .dot, .name] :=
    Viable.expect fun _ _ _ => Viable.expect fun _ _ _ => Viable.expect fun _ _ _ =>
      (viable_connectorRef _ _ _).map _
  exact (hlater.early ⟨tail, finish⟩ hts.tail).cons rfl (linkClass_step_eq ht)

theorem InstanceGroup.early_step (ht : t.kind = .name) (hts : AllReadable (t :: tail)) :
    InstanceGroup.step.Early (· = []) 1 ⟨t :: tail, finish⟩ := by
  have hentries : (Step.separated .comma InstanceEntry.step InstanceEntry.shrinks_step).Viable
      (· = []) [.name] :=
    (viable_separated .comma viable_instanceEntry reads_instanceEntry
      InstanceEntry.Spelled.endsBy).mono fun tail htail => htail ▸ ends_nil _
  exact early_expected ht (hentries.map _) hts

theorem Translation.early_step (ht : t.kind = .at) (hts : AllReadable (t :: tail)) :
    Translation.step.Early (· = []) 1 ⟨t :: tail, finish⟩ := by
  have hinternal : ∀ name external, (stepAddress.bind fun internal =>
      (Step.expect .rightParen .translationEnd).map fun _ =>
        (⟨name, external, internal, some t.position⟩ : Translation)).Viable (· = [])
      [.number, .rightParen] := fun name external =>
    viable_address.bind reads_address AddressSpelled.endsBy
      (fun internal => Viable.expect fun _ _ _ => viable_pure _)
      fun _ _ => ends_sample (by decide) _
  have hexternal : ∀ name, (stepAddress.bind fun external =>
      (Step.expect .comma .addressComma).bind fun _ => stepAddress.bind fun internal =>
      (Step.expect .rightParen .translationEnd).map fun _ =>
        (⟨name, external, internal, some t.position⟩ : Translation)).Viable (· = [])
      [.number, .comma, .number, .rightParen] := fun name =>
    viable_address.bind reads_address AddressSpelled.endsBy
      (fun external => Viable.expect fun _ _ _ => hinternal name external)
      fun _ _ => ends_sample (by decide) _
  exact early_expected ht (Viable.expect fun name _ _ => Viable.expect fun _ _ _ =>
    hexternal name.value) hts

theorem Connection.early_step (ht : t.kind = .name) (hts : AllReadable (t :: tail)) :
    Connection.step.Early (· = []) 1 ⟨t :: tail, finish⟩ :=
  early_expected ht (Viable.expect fun _ _ _ => Viable.expect fun _ _ _ => viable_pure _) hts

theorem Include.early_step (ht : t.kind = .includeWord) (hts : AllReadable (t :: tail)) :
    Include.step.Early (· = []) 1 ⟨t :: tail, finish⟩ :=
  early_expected ht (Viable.expect fun _ _ _ => viable_pure _) hts

/-- A declaration does not stop at the token that calls for it, -/
theorem Declaration.early_of_step? {current : Option Section} {kind : TokenKind}
    {s : Step Declaration} (h : step? current kind = some s) (ht : t.kind = kind)
    (hts : AllReadable (t :: tail)) : s.Early (· = []) 1 ⟨t :: tail, finish⟩ := by
  unfold step? at h
  split at h <;> cases h
  · exact (Include.early_step ht hts).map _
  · exact (NodeClass.early_step ht hts).map _
  · exact (LinkClass.early_step ht hts).map _
  · exact (InstanceGroup.early_step ht hts).map _
  · exact (Translation.early_step ht hts).map _
  · exact (Connection.early_step ht hts).map _

/-- The tokens call for a node class. -/
def NamesClass (current : Option Section) (ts : List Token) : Prop :=
  current = some .nodeClasses ∧ Next .name ts ∧ Next .doubleColon ts.tail

/-- and if it is a node class, not at the double colon. -/
theorem Declaration.early_of_namesClass {current : Option Section} {s : Step Declaration}
    (h : step? current t.kind = some s) (hnames : NamesClass current (t :: tail))
    (hts : AllReadable (t :: tail)) : s.Early (· = []) 2 ⟨t :: tail, finish⟩ := by
  obtain ⟨rfl, hname, hcolon⟩ := hnames
  rw [show t.kind = .name from hname] at h
  cases h
  exact (NodeClass.early_step_colon hname hcolon hts).map _

/-- The two together: how far at least a declaration comes. -/
theorem Declaration.exists_early {current : Option Section} {s : Step Declaration}
    (h : step? current t.kind = some s) (hts : AllReadable (t :: tail)) :
    ∃ n, 1 ≤ n ∧ (NamesClass current (t :: tail) → 2 ≤ n) ∧
      s.Early (· = []) n ⟨t :: tail, finish⟩ := by
  by_cases hnames : NamesClass current (t :: tail)
  · exact ⟨2, by omega, fun _ => Nat.le_refl 2, early_of_namesClass h hnames hts⟩
  · exact ⟨1, Nat.le_refl 1, fun h => (hnames h).elim, early_of_step? h rfl hts⟩

/-- A segment is refused only as a declaration. -/
theorem Segment.exists_step_of_error {current : Option Section} {f : TextFault}
    (h : Segment.read current t tail finish = .error f) :
    ∃ s, Declaration.step? current t.kind = some s := by
  unfold Segment.read at h
  split at h
  · cases h
  · split at h
    · next s hs => exact ⟨s, hs⟩
    · cases h

end Declarations

-- ================================================================= outlines

namespace Outline

/-- Tokens whose outline breaks off at the token after the first `k`, where no earlier token
tells that it will. -/
structure BreaksAt (current : Option Section) (ts : Tokens) (m : Mismatch) (k : Nat) : Prop where
  le : k ≤ ts.list.length
  found : m.found = (ts.drop k).headKind?
  position : m.position = (ts.drop k).position
  same : ∀ us, ts.SameFor (k + 1) us → (ofTokensFrom current us).fault = some (.mismatch m)
  later : ∃ later, AllReadable later ∧
    ∀ finish, (ofTokensFrom current ⟨ts.list.take k ++ later, finish⟩).fault = none
  afterFirst : 1 ≤ k
  afterName : NamesClass current ts.list → 2 ≤ k

variable {current : Option Section} {ts : Tokens}

/-- An outline that breaks off in its first segment does so where that stops. -/
theorem breaksAt_first {t : Token} {tail : List Token} (hlist : ts.list = t :: tail)
    (hts : AllReadable ts.list) {f : TextFault}
    (h : Segment.read current t tail ts.finish = .error f) :
    ∃ m k, f = .mismatch m ∧ BreaksAt current ts m k := by
  obtain ⟨list, finish⟩ := ts
  cases hlist
  obtain ⟨s, hs⟩ := Segment.exists_step_of_error h
  have hread : ∀ tail finish, Segment.read current t tail finish =
      (s.map .declared) ⟨t :: tail, finish⟩ := fun _ _ => read_of_step? rfl hs
  obtain ⟨n, hfirst, hname, hearly⟩ := Declaration.exists_early hs hts
  rw [hread] at h
  obtain ⟨m, k, rfl, hk, hstop⟩ := hearly.map Segment.declared f h
  refine ⟨m, k, rfl, hstop.le, hstop.found, hstop.position, fun us hus => ?_, ?_, by omega,
    fun h => Nat.le_trans (hname h) hk⟩
  · obtain ⟨tail', hlist, -⟩ := hus.exists_cons rfl
    have hstopped := hstop.same us hus
    obtain ⟨list', finish'⟩ := us
    cases hlist
    rw [ofTokensFrom_cons rfl, hread, hstopped]
  · obtain ⟨later, hreadable, htakes⟩ := hstop.later
    refine ⟨later, hreadable, fun finish' => ?_⟩
    obtain ⟨seg, hseg⟩ := htakes [] finish' rfl
    rw [List.append_nil] at hseg
    obtain ⟨j, rfl⟩ := Nat.exists_eq_succ_of_ne_zero (by omega : k ≠ 0)
    have hall : (⟨(t :: tail).take (j + 1) ++ later, finish'⟩ : Tokens) =
        ⟨t :: (tail.take j ++ later), finish'⟩ := rfl
    rw [hall] at hseg ⊢
    rw [ofTokensFrom_cons rfl, hread, hseg]
    show (ofTokensFrom _ ⟨[], finish'⟩).fault = none
    rw [ofTokensFrom_nil rfl]

/-- Behind the first two tokens of what follows it, a segment does not look, -/
theorem spelled_before_same {s : Segment} {run : List Token} {rest : Tokens}
    (hs : s.Spelled current run rest.list) {us : Tokens} (h : rest.SameFor 2 us) :
    s.Spelled current run us.list :=
  hs.before (h.endsLike _) fun _ => h.startsConnector_iff.1

/-- and where the outline breaks off later than at its first tokens, it does not look so far. -/
theorem spelled_before_later {s : Segment} {run : List Token} {rest : Tokens} {m : Mismatch}
    {k : Nat} (hs : s.Spelled current run rest.list)
    (hbreaks : BreaksAt (s.sectionAfter current) rest m k) {us : Tokens} (h : rest.SameFor k us) :
    s.Spelled current run us.list := by
  have hfirst : rest.SameFor 1 us := h.mono hbreaks.afterFirst
  refine hs.before (hfirst.endsLike _) fun hclass hstarts => ?_
  by_cases hk : 2 ≤ k
  · exact (h.mono hk).startsConnector_iff.1 hstarts
  · -- only the first token is the same, and no double colon comes after it
    rcases hstarts with hstar | ⟨hname, -⟩
    · exact .inl ((hfirst.next_iff .star).1 hstar)
    · have hname' := (hfirst.next_iff .name).1 hname
      refine .inr ⟨hname', fun hcolon => hk (hbreaks.afterName ⟨?_, hname', hcolon⟩)⟩
      obtain ⟨c, rfl⟩ := hclass
      cases hs with
      | nodeClass hcurrent _ => exact hcurrent

/-- An outline that breaks off after its first segment does so where what follows does. -/
theorem BreaksAt.after {s : Segment} {run : List Token} {rest : Tokens} {m : Mismatch} {k : Nat}
    (hs : s.Spelled current run rest.list)
    (h : BreaksAt (s.sectionAfter current) rest m k) :
    BreaksAt current ⟨run ++ rest.list, rest.finish⟩ m (run.length + k) := by
  have hdrop : (⟨run ++ rest.list, rest.finish⟩ : Tokens).drop run.length = rest := by
    unfold Tokens.drop
    rw [List.drop_left]
  have hfirst := h.afterFirst
  have hpos : 1 ≤ run.length := by
    obtain ⟨t, later, rfl⟩ := hs.exists_cons
    exact Nat.succ_le_succ (Nat.zero_le _)
  refine ⟨?_, ?_, ?_, fun us hus => ?_, ?_, by omega, fun _ => by omega⟩
  · rw [List.length_append]
    exact Nat.add_le_add_left h.le _
  · rw [← Tokens.drop_drop, hdrop]
    exact h.found
  · rw [← Tokens.drop_drop, hdrop]
    exact h.position
  · have hsame : rest.SameFor (k + 1) (us.drop run.length) := by
      have hall := (hus.mono (by omega : run.length + (k + 1) ≤ run.length + k + 1)).drop
      rwa [hdrop] at hall
    have hus' := (hus.mono (by omega : run.length ≤ run.length + k + 1)).eq_append
    rw [List.take_left] at hus'
    rw [hus', (spelled_before_same hs (hsame.mono (by omega))).outline]
    exact h.same _ hsame
  · obtain ⟨later, hreadable, hlater⟩ := h.later
    refine ⟨later, hreadable, fun finish => ?_⟩
    have htake : (run ++ rest.list).take (run.length + k) = run ++ rest.list.take k :=
      List.take_length_add_append ..
    rw [htake, List.append_assoc,
      (spelled_before_later hs h (Tokens.sameFor_take h.le later finish)).outline]
    exact hlater finish

/-- Where an outline of readable tokens breaks off, it does so as early as could be. The
induction is on what is left to read. -/
theorem exists_breaksAt (hts : AllReadable ts.list) {f : TextFault}
    (h : (ofTokensFrom current ts).fault = some f) :
    ∃ m k, f = .mismatch m ∧ BreaksAt current ts m k := by
  induction hn : ts.list.length using Nat.strongRecOn generalizing current ts with
  | ind n ih =>
      cases hlist : ts.list with
      | nil =>
          rw [ofTokensFrom_nil hlist] at h
          cases h
      | cons t tail =>
          rw [ofTokensFrom_cons hlist] at h
          cases hread : Segment.read current t tail ts.finish with
          | error fault =>
              rw [hread] at h
              cases h
              exact breaksAt_first hlist hts hread
          | ok r =>
              obtain ⟨s, rest⟩ := r
              rw [hread] at h
              obtain ⟨hfinish, run, hrun, hs⟩ := segment_read_ok_iff.1 hread
              have hless : rest.list.length < n := by
                rw [← hn, hlist]
                exact Segment.read_shorter hread
              have hrest : AllReadable rest.list := by
                intro u hu
                refine hts u ?_
                rw [hlist, hrun]
                exact List.mem_append_right _ hu
              obtain ⟨m, k, rfl, hbreaks⟩ := ih _ hless hrest h rfl
              have hall : ts = ⟨run ++ rest.list, rest.finish⟩ := by
                obtain ⟨list, finish⟩ := ts
                cases hlist
                rw [hrun, hfinish]
              exact ⟨m, _, rfl, hall ▸ hbreaks.after hs⟩

end Outline

-- ================================================================= readings

variable {ε : Type}

/-- Tokens that break off do so at the earliest token. Where tokens with readable numbers are
refused, what is found and where is that of one of them, or of their end; all tokens that are the
same up to that one are refused with the same fault; and some tokens that are the same before it
have a document. -/
theorem refused_at_earliest (ts : Tokens) (path : Option String) {m : Mismatch}
    (hts : AllReadable ts.list)
    (h : (ts.readAlone path : Reading ε).result = .error (.text (.mismatch m))) :
    ∃ i ≤ ts.list.length,
      m.found = (ts.drop i).headKind? ∧ m.position = (ts.drop i).position ∧
      (∀ us, ts.SameFor (i + 1) us →
        (us.readAlone path : Reading ε).result = .error (.text (.mismatch m))) ∧
      ∃ us, ts.SameFor i us ∧ AllReadable us.list ∧
        ∃ d, (us.readAlone path : Reading ε).result = .ok d := by
  have hrefused : ∀ us : Tokens, (Outline.ofTokens us).fault = some (.mismatch m) ↔
      (us.readAlone path : Reading ε).result = .error (.text (.mismatch m)) := by
    intro us
    unfold Tokens.readAlone
    rw [reading_alone]
    cases (Outline.ofTokens us).fault with
    | none => exact ⟨nofun, nofun⟩
    | some f => simp
  obtain ⟨m', i, heq, hbreaks⟩ := Outline.exists_breaksAt hts ((hrefused ts).2 h)
  cases heq
  obtain ⟨later, hreadable, hlater⟩ := hbreaks.later
  refine ⟨i, hbreaks.le, hbreaks.found, hbreaks.position,
    fun us hus => (hrefused us).1 (hbreaks.same us hus),
    ⟨ts.list.take i ++ later, ts.finish⟩, Tokens.sameFor_take hbreaks.le later _, ?_, ?_⟩
  · exact AllReadable.append (fun t ht => hts t (List.mem_of_mem_take ht)) hreadable
  · exact ⟨_, result_alone_ok_iff.2 ⟨hlater ts.finish, rfl⟩⟩

/-- A class, a name that could start the next one or be a connector, and a parenthesis that opens
ports but has an arrow after it. -/
def arrowForPort : Tokens :=
  ⟨[⟨.marker .nodeClasses, "nodeclass", ⟨1, 1⟩⟩, ⟨.name, "A", ⟨1, 12⟩⟩,
    ⟨.doubleColon, "::", ⟨1, 13⟩⟩, ⟨.name, "p", ⟨1, 16⟩⟩, ⟨.leftParen, "(", ⟨1, 17⟩⟩,
    ⟨.arrow, "->", ⟨1, 18⟩⟩, ⟨.name, "B", ⟨1, 20⟩⟩], ⟨1, 21⟩⟩

/-- An arrow where a port should be: five tokens can be completed, and with the sixth none of the
texts is read. -/
theorem arrowForPort_refused_at_arrow :
    (∀ us, arrowForPort.SameFor 6 us → (us.readAlone none : Reading Empty).result =
      .error (.text (.mismatch ⟨.port, some .arrow, ⟨1, 18⟩⟩))) ∧
    ∃ us, arrowForPort.SameFor 5 us ∧ ∃ d, (us.readAlone none : Reading Empty).result = .ok d := by
  have hreadable : AllReadable arrowForPort.list := by
    intro t ht hnumber
    have hnone : ∀ t ∈ arrowForPort.list, t.kind ≠ .number := by decide
    exact (hnone t ht hnumber).elim
  have hrefused : (arrowForPort.readAlone none : Reading Empty).result =
      .error (.text (.mismatch ⟨.port, some .arrow, ⟨1, 18⟩⟩)) := by
    have hfault : (Outline.ofTokens arrowForPort).fault =
        some (.mismatch ⟨.port, some .arrow, ⟨1, 18⟩⟩) := by decide +kernel
    unfold Tokens.readAlone
    rw [reading_alone, hfault]
  obtain ⟨i, hi, -, hplace, hsame, us, hus, -, hd⟩ :=
    refused_at_earliest arrowForPort none hreadable hrefused
  have hfifth : ∀ i ≤ 7, (⟨1, 18⟩ : Position) = (arrowForPort.drop i).position → i = 5 := by decide
  obtain rfl := hfifth i hi hplace
  exact ⟨hsame, us, hus, hd⟩

end SystemMap
