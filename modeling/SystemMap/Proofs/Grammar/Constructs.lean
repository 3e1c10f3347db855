/-
Each construct's step reads the shape of that construct. A step is taken apart by the lemmas
on sequencing, in the order in which it is written, and the existentials that come out are
the cases of the shape.
-/
import SystemMap.Proofs.Grammar.Steps

namespace SystemMap

open Step (Reads reads_pure reads_expect reads_numeral reads_separated reads_manyWhile)

-- ================================================================== ports

/-- Each construct reads what it is spelled by. Ports are a number, or two with a dash. -/
theorem reads_ports : PortSpec.stepPorts.Reads Ports.Spelled := by
  refine (Reads.expect fun first => Reads.accept
    (Reads.expect fun last => (reads_numeral first).bind fun a =>
      (reads_numeral last).bind fun b => reads_pure (Ports.range a b))
    ((reads_numeral first).map Ports.single)).congr fun ports run rest => ?_
  constructor
  · intro hall
    obtain ⟨t, later, rfl, ht, ⟨d, later, rfl, hd, u, later, rfl, hu, h⟩ | ⟨hd, n, rfl, rfl, hn⟩⟩ :=
      hall
    · obtain ⟨a, none₁, more, rfl, ⟨rfl, ha⟩, b, none₂, rest', rfl, ⟨rfl, hb⟩, rfl, rfl⟩ := h
      exact .range ⟨ht, ha⟩ hd ⟨hu, hb⟩
    · exact .single ⟨ht, hn⟩ hd
  · intro h
    cases h with
    | single ht hd => exact ⟨_, [], rfl, ht.1, Or.inr ⟨hd, _, rfl, rfl, ht.2⟩⟩
    | range ht hd hu =>
        exact ⟨_, _, rfl, ht.1, Or.inl ⟨_, _, rfl, hd, _, [], rfl, hu.1, _, [], [], rfl,
          ⟨rfl, ht.2⟩, _, [], [], rfl, ⟨rfl, hu.2⟩, rfl, rfl⟩⟩

/-- Ports start with a number. -/
theorem Ports.Spelled.next {ports : Ports} {run rest : List Token}
    (h : ports.Spelled run rest) (more : List Token) : Next .number (run ++ more) := by
  cases h with
  | single ht hd => exact ht.1
  | range ht hd hu => exact ht.1

/-- Ports of the second protocol stand in parentheses behind its word. -/
theorem reads_portSpec : PortSpec.step.Reads PortSpec.Spelled := by
  refine (Reads.accept
    (Reads.expect fun _ => reads_ports.bind fun ports => Reads.expect fun _ =>
      reads_pure (PortSpec.mk .udp ports))
    (reads_ports.map (PortSpec.mk .tcp))).congr fun spec run rest => ?_
  constructor
  · intro h
    obtain ⟨u, later, rfl, hu, l, later, rfl, hl, ports, run, later, rfl, hp, r, later, rfl, hr,
      rfl, rfl⟩ | ⟨-, ports, rfl, hp⟩ := h
    · exact .udp hu hl hp hr
    · exact .tcp hp
  · intro h
    cases h with
    | udp hu hl hp hr =>
        exact Or.inl ⟨_, _, rfl, hu, _, _, rfl, hl, _, _, _, rfl, hp, _, [], rfl, hr, rfl, rfl⟩
    | tcp hp =>
        refine Or.inr ⟨fun hn => ?_, _, rfl, hp⟩
        have hnumber := hp.next rest
        cases hlist : run ++ rest with
        | nil =>
            rw [hlist] at hnumber
            exact hnumber
        | cons t list =>
            rw [hlist] at hn hnumber
            cases (show t.kind = _ from hn).symm.trans hnumber

-- ======================================================== nodes and links

/-- A list of ports stands in parentheses, or is missing. -/
theorem reads_portList : Connector.stepPortList.Reads PortList := by
  refine (Reads.accept
    ((reads_separated PortSpec.shrinks_step reads_portSpec).bind fun ports =>
      Reads.expect fun _ => reads_pure ports)
    (reads_pure [])).congr fun ports run rest => ?_
  constructor
  · intro h
    obtain ⟨l, later, rfl, hl, ports, run, later, rfl, hp, r, later, rfl, hr, rfl, rfl⟩ |
      ⟨hl, rfl, rfl⟩ := h
    · exact .listed hl hp hr
    · exact .absent hl
  · intro h
    cases h with
    | listed hl hp hr =>
        exact Or.inl ⟨_, _, rfl, hl, _, _, _, rfl, hp, _, [], rfl, hr, rfl, rfl⟩
    | absent hl => exact Or.inr ⟨hl, rfl, rfl⟩

/-- What is left of a connector after its star. -/
private theorem reads_named (role : Role) (p : Position) :
    ((Step.expect .name .connectorName).bind fun name => Connector.stepPortList.bind fun ports =>
      Step.pure (⟨name.value, role, ports, some p⟩ : Connector)).Reads
      fun c run rest => ∃ t later ports, run = t :: later ∧ t.kind = .name ∧
        PortList ports later rest ∧ c = ⟨t.value, role, ports, some p⟩ := by
  refine (Reads.expect fun t => reads_portList.bind fun ports => reads_pure _).congr
    fun c run rest => ?_
  constructor
  · intro h
    obtain ⟨t, later, rfl, ht, ports, run, later, rfl, hp, rfl, rfl⟩ := h
    rw [List.append_nil]
    exact ⟨t, run, ports, rfl, ht, hp, rfl⟩
  · intro h
    obtain ⟨t, later, ports, rfl, ht, hp, rfl⟩ := h
    exact ⟨t, later, rfl, ht, ports, later, [], (List.append_nil _).symm, hp, rfl, rfl⟩

/-- A connector has a star or none, a name, and a list of ports. -/
theorem reads_connector : Connector.step.Reads Connector.Spelled := by
  refine (Reads.here (fun p => Reads.accept (reads_named .client p) (reads_named .server p))
    ?_).congr fun c run rest => ?_
  · intro p c run rest h
    obtain ⟨s, later, rfl, -⟩ | ⟨-, t, later, ports, rfl, -⟩ := h <;> simp
  constructor
  · intro hall
    obtain ⟨t, later, rfl, ⟨s, later, h, hs, u, run, ports, rfl, hu, hp, rfl⟩ |
      ⟨-, u, run, ports, h, hu, hp, rfl⟩⟩ := hall
    · cases h
      exact .client hs hu hp
    · cases h
      exact .server hu hp
  · intro h
    cases h with
    | client hs ht hp =>
        exact ⟨_, _, rfl, Or.inl ⟨_, _, rfl, hs, _, _, _, rfl, ht, hp, rfl⟩⟩
    | server ht hp =>
        refine ⟨_, _, rfl, Or.inr ⟨fun hs => ?_, _, _, _, rfl, ht, hp, rfl⟩⟩
        cases ht.symm.trans hs

/-- Another connector is looked for where one starts, which two tokens tell. -/
theorem moreConnectors_iff (ts : Tokens) :
    NodeClass.moreConnectors ts = true ↔ StartsConnector ts.list := by
  obtain ⟨list, finish⟩ := ts
  unfold NodeClass.moreConnectors StartsConnector Tokens.headKind? Tokens.secondKind?
  cases list with
  | nil => simp [Next]
  | cons t list => cases list <;> simp [Next]

/-- A node class is a name, two colons, and connectors as long as they start. -/
theorem reads_nodeClass : NodeClass.step.Reads NodeClass.Spelled := by
  refine (Reads.expect fun t => Reads.expect fun _ =>
    (reads_manyWhile Connector.shrinks_step reads_connector moreConnectors_iff).map
      fun connectors => (⟨t.value, connectors, some t.position⟩ : NodeClass)).congr
    fun c run rest => ?_
  constructor
  · intro h
    obtain ⟨t, later, rfl, ht, d, later, rfl, hd, connectors, rfl, hm⟩ := h
    exact .mk ht hd hm
  · intro h
    cases h with
    | mk ht hd hm => exact ⟨_, _, rfl, ht, _, _, rfl, hd, _, rfl, hm⟩

/-- A reference is two names with a dot, whatever either is said to be wanted for. -/
theorem reads_connectorRef (nodeClass connector : Want) :
    (ConnectorRef.step nodeClass connector).Reads ConnectorRef.Spelled := by
  refine (Reads.expect fun c => Reads.expect fun _ => (reads_expect .name connector).map
    fun n => (⟨c.value, n.value⟩ : ConnectorRef)).congr fun r run rest => ?_
  constructor
  · intro h
    obtain ⟨c, later, rfl, hc, d, later, rfl, hd, n, rfl, rfl, hn⟩ := h
    exact .mk hc hd hn
  · intro h
    cases h with
    | mk hc hd hn => exact ⟨_, _, rfl, hc, _, _, rfl, hd, _, rfl, rfl, hn⟩

/-- A link class is two references with an arrow. -/
theorem reads_linkClass : LinkClass.step.Reads LinkClass.Spelled := by
  refine (Reads.here (fun p => (reads_connectorRef _ _).bind fun source => Reads.expect fun _ =>
    (reads_connectorRef _ _).map fun target => (⟨source, target, some p⟩ : LinkClass)) ?_).congr
    fun l run rest => ?_
  · intro p l run rest h
    obtain ⟨source, first, later, rfl, hs, w, more, rfl, -⟩ := h
    simp
  constructor
  · intro h
    obtain ⟨t, later, hrun, source, first, more, rfl, hs, w, later, rfl, hw, target, rfl, ht⟩ := h
    cases hs with
    | mk hc hd hn =>
        cases hrun
        exact .mk (.mk hc hd hn) hw ht
  · intro h
    cases h with
    | @mk t w source target run later _ hs hw ht =>
        exact ⟨t, _, rfl, source, t :: run, _, rfl, hs, w, later, rfl, hw, target, rfl, ht⟩

-- =============================================== instances and addresses

/-- An address is any numbers with dots. -/
theorem reads_address : stepAddress.Reads AddressSpelled := by
  refine ((reads_separated (Step.shrinks_expect _ _) (reads_expect .number .octet)).map
    fun octets => ".".intercalate (octets.map (·.value))).congr fun s run rest => ?_
  constructor
  · intro h
    obtain ⟨octets, rfl, ho⟩ := h
    exact .mk ho
  · intro h
    cases h with
    | mk ho => exact ⟨_, rfl, ho⟩

/-- The address of an instance stands in parentheses, or is missing. -/
theorem reads_addressGiven : InstanceEntry.stepAddress?.Reads AddressGiven := by
  refine (Reads.accept
    (reads_address.bind fun address => Reads.expect fun _ => reads_pure (some address))
    (reads_pure none)).congr fun address run rest => ?_
  constructor
  · intro h
    obtain ⟨l, later, rfl, hl, address, run, later, rfl, ha, r, later, rfl, hr, rfl, rfl⟩ |
      ⟨hl, rfl, rfl⟩ := h
    · exact .given hl ha hr
    · exact .absent hl
  · intro h
    cases h with
    | given hl ha hr =>
        exact Or.inl ⟨_, _, rfl, hl, _, _, _, rfl, ha, _, [], rfl, hr, rfl, rfl⟩
    | absent hl => exact Or.inr ⟨hl, rfl, rfl⟩

theorem reads_instanceEntry : InstanceEntry.step.Reads InstanceEntry.Spelled := by
  refine (Reads.expect fun t => reads_addressGiven.map fun address =>
    (⟨t.value, address, some t.position⟩ : InstanceEntry)).congr fun e run rest => ?_
  constructor
  · intro h
    obtain ⟨t, later, rfl, ht, address, rfl, ha⟩ := h
    exact .mk ht ha
  · intro h
    cases h with
    | mk ht ha => exact ⟨_, _, rfl, ht, _, rfl, ha⟩

/-- A group is a name and instances with commas. -/
theorem reads_instanceGroup : InstanceGroup.step.Reads InstanceGroup.Spelled := by
  refine (Reads.expect fun t =>
    (reads_separated InstanceEntry.shrinks_step reads_instanceEntry).map fun entries =>
      (⟨t.value, entries, some t.position⟩ : InstanceGroup)).congr fun g run rest => ?_
  constructor
  · intro h
    obtain ⟨t, later, rfl, ht, entries, rfl, he⟩ := h
    exact .mk ht he
  · intro h
    cases h with
    | mk ht he => exact ⟨_, _, rfl, ht, _, rfl, he⟩

/-- A translation has two addresses in parentheses. -/
theorem reads_translation : Translation.step.Reads Translation.Spelled := by
  refine (Reads.expect fun a => Reads.expect fun n => Reads.expect fun _ =>
    reads_address.bind fun external => Reads.expect fun _ => reads_address.bind fun internal =>
    (reads_expect _ _).map fun _ =>
      (⟨n.value, external, internal, some a.position⟩ : Translation)).congr fun t run rest => ?_
  constructor
  · intro h
    obtain ⟨a, later, rfl, ha, n, later, rfl, hn, l, later, rfl, hl, external, run, later, rfl,
      he, c, later, rfl, hc, internal, run', later, rfl, hi, r, rfl, rfl, hr⟩ := h
    exact .mk ha hn hl (by simpa using he) hc hi hr
  · intro h
    cases h with
    | @mk a n l c r external internal run later _ ha hn hl he hc hi hr =>
        refine ⟨a, _, rfl, ha, n, _, rfl, hn, l, _, rfl, hl, external, run, _, rfl, ?_, c, _,
          rfl, hc, internal, later, _, rfl, hi, r, rfl, rfl, hr⟩
        simpa using he

-- ============================================== connections and includes

/-- A connection is two names with an arrow. -/
theorem reads_connection : Connection.step.Reads Connection.Spelled := by
  refine (Reads.expect fun s => Reads.expect fun _ => (reads_expect .name .targetName).map
    fun t => (⟨s.value, t.value, some s.position⟩ : Connection)).congr fun c run rest => ?_
  constructor
  · intro h
    obtain ⟨s, later, rfl, hs, w, later, rfl, hw, t, rfl, rfl, ht⟩ := h
    exact .mk hs hw ht
  · intro h
    cases h with
    | mk hs hw ht => exact ⟨_, _, rfl, hs, _, _, rfl, hw, _, rfl, rfl, ht⟩

/-- A directive is its word and a text. -/
theorem reads_include : Include.step.Reads Include.Spelled := by
  refine (Reads.expect fun w => (reads_expect .text .filePath).map
    fun p => (⟨p.value, some w.position⟩ : Include)).congr fun i run rest => ?_
  constructor
  · intro h
    obtain ⟨w, later, rfl, hw, p, rfl, rfl, hp⟩ := h
    exact .mk hw hp
  · intro h
    cases h with
    | mk hw hp => exact ⟨_, _, rfl, hw, _, rfl, rfl, hp⟩

end SystemMap
