/-
What follows a construct. Whether a run of tokens spells a construct depends on the tokens after
it, but only through the sign that would have gone on with it: a dash after a port, a comma after
a list, a dot after an address, an opening parenthesis after a name (`Shape.EndsBy`). A node class
also depends on whether what follows starts one more connector, for which two tokens matter. So
the same run is spelled before any other tokens that go on with it no more than those did.

A marker goes on with nothing: tokens that end before it end before nothing as well.
-/
import SystemMap.Proofs.Grammar.Split

namespace SystemMap

-- ============================================================ what is next

/-- What comes next in `rest'` is of one of the kinds given only if it is so in `rest`. -/
def EndsLike (kinds : List TokenKind) (rest rest' : List Token) : Prop :=
  ∀ kind ∈ kinds, Next kind rest' → Next kind rest

section EndsLike

variable {kinds kinds' : List TokenKind} {rest rest' : List Token}

/-- Ends that are alike for some kinds are so for fewer. -/
theorem EndsLike.mono (h : EndsLike kinds rest rest') (hsub : kinds' ⊆ kinds) :
    EndsLike kinds' rest rest' := fun kind hkind => h kind (hsub hkind)

/-- Behind one and the same token, all ends are alike. -/
theorem endsLike_cons {t : Token} : EndsLike kinds (t :: rest) (t :: rest') := fun _ _ h => h

/-- The same tokens in front make nothing worse. -/
theorem EndsLike.append (h : EndsLike kinds rest rest') (run : List Token) :
    EndsLike kinds (run ++ rest) (run ++ rest') := by
  cases run with
  | nil => exact h
  | cons t run => exact endsLike_cons

end EndsLike

-- =================================================================== shapes

section Shapes

variable {α : Type}

/-- The runs of a shape depend on what follows only through the kinds given. -/
def Shape.EndsBy (shape : Shape α) (kinds : List TokenKind) : Prop :=
  ∀ ⦃a run rest rest'⦄, shape a run rest → EndsLike kinds rest rest' → shape a run rest'

variable {sign : TokenKind} {item : Shape α} {kinds : List TokenKind}

/-- Items with a sign before each end as an item does, or where no sign comes next. -/
theorem After.endsBy (hitem : Shape.EndsBy item kinds) :
    Shape.EndsBy (After sign item) (sign :: kinds) := by
  intro as run rest rest' h hrest
  induction h with
  | stop hs => exact .stop fun hnext => hs (hrest sign List.mem_cons_self hnext)
  | more hs ha hl ih =>
      have hlater := (hrest.mono (List.subset_cons_self ..)).append
      exact .more hs (hitem ha (hlater _)) (ih hrest)

/-- So does a list. -/
theorem Listed.endsBy (hitem : Shape.EndsBy item kinds) :
    Shape.EndsBy (Listed sign item) (sign :: kinds) := by
  intro as run rest rest' h hrest
  cases h with
  | mk ha hl =>
      have hlater := (hrest.mono (List.subset_cons_self ..)).append
      exact .mk (hitem ha (hlater _)) (After.endsBy hitem hl hrest)

/-- One token of a kind ends whatever follows. -/
theorem endsBy_token (kind : TokenKind) :
    Shape.EndsBy (fun t run _ => run = [t] ∧ t.kind = kind) [] := fun _ _ _ _ h _ => h

end Shapes

/-- Ports end where no dash makes them a range. -/
theorem Ports.Spelled.endsBy : Shape.EndsBy Ports.Spelled [.dash] := by
  intro ports run rest rest' h hrest
  cases h with
  | single ht hd => exact .single ht fun hnext => hd (hrest _ List.mem_cons_self hnext)
  | range ht hd hu => exact .range ht hd hu

theorem PortSpec.Spelled.endsBy : Shape.EndsBy PortSpec.Spelled [.dash] := by
  intro spec run rest rest' h hrest
  cases h with
  | tcp hp => exact .tcp (Ports.Spelled.endsBy hp hrest)
  | udp hu hl hp hr => exact .udp hu hl (Ports.Spelled.endsBy hp endsLike_cons) hr

/-- A list of ports may be missing, so it ends where no parenthesis comes next. -/
theorem PortList.endsBy : Shape.EndsBy PortList [.leftParen] := by
  intro ports run rest rest' h hrest
  cases h with
  | absent hl => exact .absent fun hnext => hl (hrest _ List.mem_cons_self hnext)
  | listed hl hp hr =>
      exact .listed hl (Listed.endsBy PortSpec.Spelled.endsBy hp endsLike_cons) hr

/-- A connector ends as its list of ports does. -/
theorem Connector.Spelled.endsBy : Shape.EndsBy Connector.Spelled [.leftParen] := by
  intro c run rest rest' h hrest
  cases h with
  | server ht hp => exact .server ht (PortList.endsBy hp hrest)
  | client hs ht hp => exact .client hs ht (PortList.endsBy hp hrest)

/-- A reference ends by itself. -/
theorem ConnectorRef.Spelled.endsBy : Shape.EndsBy ConnectorRef.Spelled [] := by
  intro r run rest rest' h _
  cases h with
  | mk hc hd hn => exact .mk hc hd hn

theorem LinkClass.Spelled.endsBy : Shape.EndsBy LinkClass.Spelled [] := by
  intro l run rest rest' h hrest
  cases h with
  | mk hs hw ht =>
      exact .mk (ConnectorRef.Spelled.endsBy hs endsLike_cons) hw
        (ConnectorRef.Spelled.endsBy ht hrest)

/-- An address ends where no dot goes on with it. -/
theorem AddressSpelled.endsBy : Shape.EndsBy AddressSpelled [.dot] := by
  intro address run rest rest' h hrest
  cases h with
  | mk ho => exact .mk (Listed.endsBy (endsBy_token .number) ho hrest)

/-- An address may be missing, so it ends where no parenthesis comes next. -/
theorem AddressGiven.endsBy : Shape.EndsBy AddressGiven [.leftParen] := by
  intro address run rest rest' h hrest
  cases h with
  | absent hl => exact .absent fun hnext => hl (hrest _ List.mem_cons_self hnext)
  | given hl ha hr => exact .given hl (AddressSpelled.endsBy ha endsLike_cons) hr

theorem InstanceEntry.Spelled.endsBy : Shape.EndsBy InstanceEntry.Spelled [.leftParen] := by
  intro e run rest rest' h hrest
  cases h with
  | mk ht ha => exact .mk ht (AddressGiven.endsBy ha hrest)

/-- A group ends where no comma leads to another instance and the last one ends. -/
theorem InstanceGroup.Spelled.endsBy :
    Shape.EndsBy InstanceGroup.Spelled [.comma, .leftParen] := by
  intro g run rest rest' h hrest
  cases h with
  | mk ht he => exact .mk ht (Listed.endsBy InstanceEntry.Spelled.endsBy he hrest)

/-- A translation ends by itself. -/
theorem Translation.Spelled.endsBy : Shape.EndsBy Translation.Spelled [] := by
  intro t run rest rest' h hrest
  cases h with
  | mk ha hn hl he hc hi hr =>
      exact .mk ha hn hl (AddressSpelled.endsBy he endsLike_cons) hc
        (AddressSpelled.endsBy hi endsLike_cons) hr

theorem Connection.Spelled.endsBy : Shape.EndsBy Connection.Spelled [] := by
  intro c run rest rest' h _
  cases h with
  | mk hs hw ht => exact .mk hs hw ht

theorem Include.Spelled.endsBy : Shape.EndsBy Include.Spelled [] := by
  intro i run rest rest' h _
  cases h with
  | mk hw hp => exact .mk hw hp

-- ============================================================= node classes

/-- A connector starts with a star or with its name. -/
theorem Connector.Spelled.exists_cons {c : Connector} {run rest : List Token}
    (h : c.Spelled run rest) : ∃ t later, run = t :: later := by
  cases h with
  | server ht hp => exact ⟨_, _, rfl⟩
  | client hs ht hp => exact ⟨_, _, rfl⟩

/-- What starts a connector with a token of its own starts one before other tokens too. -/
theorem StartsConnector.cons {t : Token} {rest rest' : List Token}
    (h : StartsConnector (t :: rest)) (hrest : EndsLike [.doubleColon] rest rest') :
    StartsConnector (t :: rest') :=
  h.imp id fun hname => ⟨hname.1, fun hnext => hname.2 (hrest _ List.mem_cons_self hnext)⟩

/-- The connectors of a node class depend on whether one more starts after them, and through the
last of them on a parenthesis. -/
theorem connectors_endsBy {connectors : List Connector} {run rest rest' : List Token}
    (h : Many StartsConnector Connector.Spelled connectors run rest)
    (hrest : EndsLike [.leftParen, .doubleColon] rest rest')
    (hstarts : StartsConnector rest' → StartsConnector rest) :
    Many StartsConnector Connector.Spelled connectors run rest' := by
  induction h with
  | stop hs => exact .stop fun h => hs (hstarts h)
  | @more c later run after rest hs ha hl ih =>
      obtain ⟨t, run, rfl⟩ := ha.exists_cons
      have hparen : EndsLike [.leftParen] rest rest' :=
        hrest.mono (List.cons_subset_cons _ (List.nil_subset _))
      have hcolon : EndsLike [.doubleColon] rest rest' := hrest.mono (List.subset_cons_self ..)
      refine .more ?_ (Connector.Spelled.endsBy ha (hparen.append _)) (ih hrest hstarts)
      exact StartsConnector.cons hs ((hcolon.append _).append _)

-- ================================================================= segments

/-- The signs that go on with a construct before them. -/
def TokenKind.goingOn : List TokenKind := [.leftParen, .comma, .doubleColon]

/-- A segment is the same before other tokens that go on with it no more. -/
theorem Segment.Spelled.before {current : Option Section} {s : Segment}
    {run rest rest' : List Token} (h : s.Spelled current run rest)
    (hrest : EndsLike TokenKind.goingOn rest rest')
    (hstarts : (∃ c, s = .declared (.nodeClass c)) → StartsConnector rest' →
      StartsConnector rest) : s.Spelled current run rest' := by
  unfold TokenKind.goingOn at hrest
  cases h with
  | marker ht => exact .marker ht
  | passed ht => exact .passed ht
  | directive h => exact .directive (Include.Spelled.endsBy h (hrest.mono (List.nil_subset _)))
  | linkClass hc h =>
      exact .linkClass hc (LinkClass.Spelled.endsBy h (hrest.mono (List.nil_subset _)))
  | instances hc h => exact .instances hc (InstanceGroup.Spelled.endsBy h (hrest.mono (by simp)))
  | translation hc h =>
      exact .translation hc (Translation.Spelled.endsBy h (hrest.mono (List.nil_subset _)))
  | connection hc h =>
      exact .connection hc (Connection.Spelled.endsBy h (hrest.mono (List.nil_subset _)))
  | @nodeClass c _ _ hc h =>
      cases h with
      | mk ht hd hm =>
          refine .nodeClass hc (.mk ht hd (connectors_endsBy hm (hrest.mono (by simp)) ?_))
          exact hstarts ⟨_, rfl⟩

-- ================================================================== markers

/-- The tokens start with a section marker. -/
def Marked (ts : List Token) : Prop := ∃ s, Next (.marker s) ts

section Marked

variable {kind : TokenKind} {us : List Token}

/-- A marker comes next as what it is. -/
theorem Marked.not_next (h : Marked us) (hkind : ∀ s, kind ≠ .marker s) : ¬ Next kind us := by
  obtain ⟨s, hs⟩ := h
  cases us with
  | nil => exact id
  | cons u us => exact fun hnext => hkind s (hnext.symm.trans hs)

/-- Before a marker comes next what comes next before the end. -/
theorem Marked.next_append (h : Marked us) (hkind : ∀ s, kind ≠ .marker s) (rest : List Token) :
    Next kind (rest ++ us) ↔ Next kind rest := by
  cases rest with
  | nil => exact iff_of_false (h.not_next hkind) id
  | cons t rest => exact Iff.rfl

/-- Tokens that start with a marker go on with nothing. -/
theorem Marked.endsLike (h : Marked us) (rest : List Token) :
    EndsLike TokenKind.goingOn rest (rest ++ us) := by
  intro kind hkind
  refine (h.next_append (fun s hs => ?_) rest).1
  subst hs
  simp [TokenKind.goingOn] at hkind

/-- Nor do they make a connector of what stands before them. -/
theorem Marked.startsConnector (h : Marked us) (rest : List Token) :
    StartsConnector (rest ++ us) → StartsConnector rest := by
  cases rest with
  | nil =>
      intro hstarts
      rcases hstarts with hstar | ⟨hname, -⟩
      · exact (h.not_next (by simp) hstar).elim
      · exact (h.not_next (by simp) hname).elim
  | cons t rest =>
      exact Or.imp id fun hname =>
        ⟨hname.1, fun hnext => hname.2 ((h.next_append (by simp) rest).2 hnext)⟩

end Marked

-- ================================================================= outlines

/-- No section reaches past a marker. -/
theorem Marked.outline_eq {us : Tokens} (h : Marked us.list) (current current' : Option Section) :
    Outline.ofTokensFrom current us = Outline.ofTokensFrom current' us := by
  obtain ⟨list, finish⟩ := us
  obtain ⟨s, hs⟩ := h
  cases list with
  | nil => exact hs.elim
  | cons u us =>
      have hmarker : ∀ current, (Segment.marker s).Spelled current [u] us := fun _ => .marker hs
      exact ((hmarker current).outline finish).trans ((hmarker current').outline finish).symm

/-- Tokens that can be split have the same segments before a marker, and those of the tokens
from the marker on come after them. -/
theorem Split.outline_append {current : Option Section} {ts : List Token}
    {parts : List (Segment × List Token)} (h : Split current ts parts) {us : Tokens}
    (hmarked : Marked us.list) :
    Outline.ofTokensFrom current ⟨ts ++ us.list, us.finish⟩ =
      ⟨parts.map Prod.fst ++ (Outline.ofTokens us).segments, (Outline.ofTokens us).fault⟩ := by
  induction h with
  | nil => exact hmarked.outline_eq _ none
  | @cons current s run rest parts hs hp ih =>
      have hbefore : s.Spelled current run (rest ++ us.list) :=
        hs.before (hmarked.endsLike rest) fun _ => hmarked.startsConnector rest
      rw [List.append_assoc, hbefore.outline, ih]
      rfl

end SystemMap
