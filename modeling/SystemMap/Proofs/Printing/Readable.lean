/-
Whatever is read can be printed. The tokens of a text are sound lexemes, so the names, the
numbers and the quoted texts among them are just those that can be written, and what is
spelled with them is writable.
-/
import SystemMap.Proofs.Printing.Print
import SystemMap.Proofs.Grammar.Shape

namespace SystemMap

/-- Tokens that a text can have. -/
def Sound (ts : List Token) : Prop := ∀ t ∈ ts, t.lexeme.Sound

/-- Tokens among sound ones are sound. -/
theorem Sound.of_subset {ts run : List Token} (h : Sound ts) (hrun : run ⊆ ts) : Sound run :=
  fun t ht => h t (hrun ht)

-- ================================================================= tokens

section Tokens

variable {t : Token} (h : t.lexeme.Sound)
include h

/-- The value of a sound token that is a name is a name that can be written. -/
theorem isName_of_sound (hk : t.kind = .name) : IsName t.value := by
  obtain ⟨hword, hname⟩ := h.value_of_kind.1 hk
  exact ⟨hword, ofWord_eq_name_iff.1 hname⟩

/-- The value of a sound number is digits. -/
theorem isDigits_of_sound (hk : t.kind = .number) : IsDigits t.value.toList :=
  h.value_of_kind.2.1 hk

/-- No sound text has a quotation mark inside. -/
theorem no_quote_of_sound (hk : t.kind = .text) : '"' ∉ t.value.toList :=
  h.value_of_kind.2.2 hk

/-- The number that a sound token writes can be written as a port. -/
theorem isPort_of_sound {n : Int} (hn : t.Writes n) : IsPort n := by
  have hread := hn.2
  rw [← String.ofList_toList (s := t.value)] at hread
  exact Text.Numeral.bounds_of_read (isDigits_of_sound h hn.1) hread

end Tokens

-- ================================================================== lists

section Lists

variable {α : Type} {item : Shape α} {as : List α} {run rest : List Token}

/-- Every item after a sign is spelled by tokens among those of the list. -/
theorem After.exists_item {sign : TokenKind} (h : After sign item as run rest) :
    ∀ a ∈ as, ∃ run' rest', run' ⊆ run ∧ item a run' rest' := by
  induction h with
  | stop hs => nofun
  | @more s a as first later rest hs ha hl ih =>
      intro b hb
      rcases List.mem_cons.1 hb with rfl | hb
      · exact ⟨first, _, fun t ht => List.mem_cons_of_mem _ (List.mem_append_left _ ht), ha⟩
      · obtain ⟨run', rest', hsub, hb⟩ := ih b hb
        refine ⟨run', rest', fun t ht => ?_, hb⟩
        exact List.mem_cons_of_mem _ (List.mem_append_right _ (hsub ht))

/-- Each item of a list is spelled by some of the tokens. -/
theorem Listed.exists_item {sign : TokenKind} (h : Listed sign item as run rest) :
    ∀ a ∈ as, ∃ run' rest', run' ⊆ run ∧ item a run' rest' := by
  cases h with
  | @mk a as first later _ ha hl =>
      intro b hb
      rcases List.mem_cons.1 hb with rfl | hb
      · exact ⟨first, _, List.subset_append_left _ _, ha⟩
      · obtain ⟨run', rest', hsub, hb⟩ := hl.exists_item b hb
        exact ⟨run', rest', fun t ht => List.mem_append_right _ (hsub ht), hb⟩

/-- A list has an item at least. -/
theorem Listed.ne_nil {sign : TokenKind} (h : Listed sign item as run rest) : as ≠ [] := by
  cases h
  exact List.cons_ne_nil _ _

/-- Each item in a row is spelled by some of the tokens. -/
theorem Many.exists_item {starts : List Token → Prop} (h : Many starts item as run rest) :
    ∀ a ∈ as, ∃ run' rest', run' ⊆ run ∧ item a run' rest' := by
  induction h with
  | stop hs => nofun
  | @more a as first later rest hs ha hl ih =>
      intro b hb
      rcases List.mem_cons.1 hb with rfl | hb
      · exact ⟨first, _, List.subset_append_left _ _, ha⟩
      · obtain ⟨run', rest', hsub, hb⟩ := ih b hb
        exact ⟨run', rest', fun t ht => List.mem_append_right _ (hsub ht), hb⟩

end Lists

-- ============================================================= constructs

section Constructs

variable {run rest : List Token} (hrun : Sound run)
include hrun

/-- Whatever is spelled by sound tokens can be written. Ports are numbers without a sign. -/
theorem Ports.Spelled.writable {ports : Ports} (h : ports.Spelled run rest) :
    ports.Writable := by
  cases h with
  | single ht hd => exact isPort_of_sound (hrun _ (by simp)) ht
  | range ht hd hu =>
      exact ⟨isPort_of_sound (hrun _ (by simp)) ht, isPort_of_sound (hrun _ (by simp)) hu⟩

theorem PortSpec.Spelled.writable {spec : PortSpec} (h : spec.Spelled run rest) :
    spec.ports.Writable := by
  cases h with
  | tcp hp => exact Ports.Spelled.writable hrun hp
  | udp hu hl hp hr => exact Ports.Spelled.writable (hrun.of_subset fun t ht => by simp [ht]) hp

theorem PortList.writable {ports : List PortSpec} (h : PortList ports run rest) :
    ∀ s ∈ ports, s.ports.Writable := by
  cases h with
  | absent hl => nofun
  | listed hl hp hr =>
      intro s hs
      obtain ⟨run', rest', hsub, hspelled⟩ := hp.exists_item s hs
      refine PortSpec.Spelled.writable (hrun.of_subset (List.Subset.trans hsub ?_)) hspelled
      simp

/-- A connector needs a name and ports that can be written. -/
theorem Connector.Spelled.writable {c : Connector} (h : c.Spelled run rest) : c.Writable := by
  cases h with
  | server ht hp =>
      exact ⟨isName_of_sound (hrun _ (by simp)) ht,
        PortList.writable (hrun.of_subset (by simp)) hp⟩
  | client hs ht hp =>
      exact ⟨isName_of_sound (hrun _ (by simp)) ht,
        PortList.writable (hrun.of_subset (by simp)) hp⟩

/-- A node class needs a name and connectors that can be written. -/
theorem NodeClass.Spelled.writable {c : NodeClass} (h : c.Spelled run rest) : c.Writable := by
  cases h with
  | mk ht hc hm =>
      refine ⟨isName_of_sound (hrun _ (by simp)) ht, fun connector hconnector => ?_⟩
      obtain ⟨run', rest', hsub, hspelled⟩ := hm.exists_item connector hconnector
      refine Connector.Spelled.writable (hrun.of_subset (List.Subset.trans hsub ?_)) hspelled
      simp

theorem ConnectorRef.Spelled.writable {r : ConnectorRef} (h : r.Spelled run rest) :
    r.Writable := by
  cases h with
  | mk hc hd hn =>
      exact ⟨isName_of_sound (hrun _ (by simp)) hc, isName_of_sound (hrun _ (by simp)) hn⟩

/-- A link class needs two references that can be written. -/
theorem LinkClass.Spelled.writable {l : LinkClass} (h : l.Spelled run rest) : l.Writable := by
  cases h with
  | mk hs hw ht =>
      exact ⟨ConnectorRef.Spelled.writable (hrun.of_subset (by simp)) hs,
        ConnectorRef.Spelled.writable (hrun.of_subset fun t ht => by simp [ht]) ht⟩

/-- Each octet of an address is a number among those that spell it. -/
theorem AddressSpelled.exists_number {address : String} (h : AddressSpelled address run rest) :
    ∀ o ∈ octets address, ∃ t ∈ run, t.kind = .number ∧ t.value.toList = o := by
  cases h with
  | @mk ts _ _ ho =>
      have hitems : ∀ t ∈ ts, t ∈ run ∧ t.kind = .number := by
        intro t ht
        obtain ⟨run', rest', hsub, rfl, hk⟩ := ho.exists_item t ht
        exact ⟨hsub List.mem_cons_self, hk⟩
      have hsplit : octets (".".intercalate (ts.map (·.value))) = ts.map fun t => t.value.toList := by
        unfold octets
        rw [String.toList_intercalate, List.map_map]
        refine List.splitOn_intercalate '.' ?_ ?_
        · intro o ho hdot
          obtain ⟨t, ht, rfl⟩ := List.mem_map.1 ho
          have hdigits := isDigits_of_sound (hrun t (hitems t ht).1) (hitems t ht).2
          exact absurd (hdigits.2 _ hdot) (by decide)
        · rw [Ne, List.map_eq_nil_iff]
          exact ho.ne_nil
      intro o hmem
      rw [hsplit] at hmem
      obtain ⟨t, ht, rfl⟩ := List.mem_map.1 hmem
      exact ⟨t, (hitems t ht).1, (hitems t ht).2, rfl⟩

/-- An address is spelled by numbers with dots between. -/
theorem AddressSpelled.isAddress {address : String} (h : AddressSpelled address run rest) :
    IsAddress address := by
  intro o ho
  obtain ⟨t, ht, hk, rfl⟩ := h.exists_number hrun o ho
  exact isDigits_of_sound (hrun t ht) hk

/-- An instance needs a name, and an address if it has one. -/
theorem InstanceEntry.Spelled.writable {e : InstanceEntry} (h : e.Spelled run rest) :
    e.Writable := by
  cases h with
  | mk ht ha =>
      refine ⟨isName_of_sound (hrun _ (by simp)) ht, ?_⟩
      cases ha with
      | absent hl => nofun
      | given hl ha hr =>
          intro address hgiven
          cases hgiven
          exact AddressSpelled.isAddress (hrun.of_subset fun t ht => by simp [ht]) ha

/-- A group has an instance at least. -/
theorem InstanceGroup.Spelled.writable {g : InstanceGroup} (h : g.Spelled run rest) :
    g.Writable := by
  cases h with
  | mk ht he =>
      refine ⟨isName_of_sound (hrun _ (by simp)) ht, he.ne_nil, fun e hmem => ?_⟩
      obtain ⟨run', rest', hsub, hspelled⟩ := he.exists_item e hmem
      refine InstanceEntry.Spelled.writable (hrun.of_subset (List.Subset.trans hsub ?_)) hspelled
      simp

theorem Translation.Spelled.writable {t : Translation} (h : t.Spelled run rest) :
    t.Writable := by
  cases h with
  | mk ha hn hl he hc hi hr =>
      exact ⟨isName_of_sound (hrun _ (by simp)) hn,
        AddressSpelled.isAddress (hrun.of_subset fun t ht => by simp [ht]) he,
        AddressSpelled.isAddress (hrun.of_subset fun t ht => by simp [ht]) hi⟩

theorem Connection.Spelled.writable {c : Connection} (h : c.Spelled run rest) :
    c.Writable := by
  cases h with
  | mk hs hw ht =>
      exact ⟨isName_of_sound (hrun _ (by simp)) hs, isName_of_sound (hrun _ (by simp)) ht⟩

/-- The path of a directive stands in quotation marks, so it has none. -/
theorem Include.Spelled.writable {i : Include} (h : i.Spelled run rest) : i.Writable := by
  cases h with
  | mk hw hp => exact no_quote_of_sound (hrun _ (by simp)) hp

/-- Whatever a segment declares can be written. -/
theorem Segment.Spelled.writable {current : Option Section} {s : Segment}
    (h : s.Spelled current run rest) : s.Writable := by
  cases h with
  | marker ht => trivial
  | passed ht => trivial
  | directive h => exact Include.Spelled.writable hrun h
  | nodeClass hc h => exact NodeClass.Spelled.writable hrun h
  | linkClass hc h => exact LinkClass.Spelled.writable hrun h
  | instances hc h => exact InstanceGroup.Spelled.writable hrun h
  | translation hc h => exact Translation.Spelled.writable hrun h
  | connection hc h => exact Connection.Spelled.writable hrun h

end Constructs

/-- Every segment of a split is spelled by tokens among those that are split. -/
theorem Split.exists_run {current : Option Section} {ts : List Token}
    {parts : List (Segment × List Token)} (h : Split current ts parts) :
    ∀ s ∈ parts.map Prod.fst, ∃ current' run rest, run ⊆ ts ∧ s.Spelled current' run rest := by
  induction h with
  | nil => nofun
  | cons hs hp ih =>
      intro s hmem
      rcases List.mem_cons.1 hmem with rfl | hmem
      · exact ⟨_, _, _, List.subset_append_left _ _, hs⟩
      · obtain ⟨current', run, rest, hsub, hspelled⟩ := ih s hmem
        exact ⟨current', run, rest, fun t ht => List.mem_append_right _ (hsub ht), hspelled⟩

/-- All that is read from sound tokens can be written. -/
theorem Split.writable {current : Option Section} {ts : List Token}
    {parts : List (Segment × List Token)} (h : Split current ts parts) (hts : Sound ts) :
    ∀ s ∈ parts.map Prod.fst, s.Writable := by
  intro s hs
  obtain ⟨current', run, rest, hsub, hspelled⟩ := h.exists_run s hs
  exact hspelled.writable (hts.of_subset hsub)

end SystemMap
