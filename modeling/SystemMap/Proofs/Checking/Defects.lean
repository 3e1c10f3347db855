/-
What a check finds wrong. A document is sound if no name is declared twice where it has to be
unique and every reference leads to a declaration; `Document.Sound` says so without the check.
Each repeated name and each reference that leads nowhere makes exactly one defect
(`length_defects`), so the defects are counted by the causes, and a document without defects
is a sound one.

A check breaks off only at a number that cannot be read or written: an octet of an address, a
port, or the place of a declaration (`check_error`).
-/
import Mathlib.Algebra.GroupWithZero.Nat
import SystemMap.Check
import SystemMap.Proofs.Names

namespace SystemMap

/-- A defect of an end of a link class. -/
def Defect.IsOfLink : Defect → Prop
  | .linkOfUnknownClass .. | .linkOfUnknownConnector .. => True
  | _ => False

/-- A defect of an end of a connection. -/
def Defect.IsOfConnection : Defect → Prop
  | .unknownEndpoint .. => True
  | _ => False

namespace Document

variable (d : Document)

-- ====================================================== what a document declares

/-- A node class is declared. -/
def HasClass (name : String) : Prop := ∃ c ∈ d.nodeClasses, c.name = name

/-- A connector is declared, by some declaration of its node class. -/
def HasConnector (ref : ConnectorRef) : Prop :=
  ∃ c ∈ d.nodeClasses, c.name = ref.nodeClass ∧ ∃ k ∈ c.connectors, k.name = ref.connector

/-- A name is that of an instance or of a translation. -/
def HasEndpoint (name : String) : Prop :=
  (∃ g ∈ d.instances, ∃ e ∈ g.entries, e.name = name) ∨ ∃ t ∈ d.translations, t.name = name

instance (name : String) : Decidable (d.HasClass name) :=
  inferInstanceAs (Decidable (∃ c ∈ d.nodeClasses, c.name = name))

instance (ref : ConnectorRef) : Decidable (d.HasConnector ref) :=
  inferInstanceAs (Decidable (∃ c ∈ d.nodeClasses,
    c.name = ref.nodeClass ∧ ∃ k ∈ c.connectors, k.name = ref.connector))

instance (name : String) : Decidable (d.HasEndpoint name) :=
  inferInstanceAs (Decidable ((∃ g ∈ d.instances, ∃ e ∈ g.entries, e.name = name) ∨
    ∃ t ∈ d.translations, t.name = name))

/-- Both ends of all link classes. -/
def linkEnds : List ConnectorRef := d.linkClasses.flatMap fun l => [l.source, l.target]

/-- Both ends of all connections. -/
def connectionEnds : List String := d.connections.flatMap fun c => [c.source, c.target]

/-- Names are unique where they have to be, and references lead to declarations. -/
structure Sound : Prop where
  classes : (d.nodeClasses.map (·.name)).Nodup
  connectors : ∀ c ∈ d.nodeClasses, (c.connectors.map (·.name)).Nodup
  endpoints : d.endpointNames.Nodup
  groups : ∀ g ∈ d.instances, d.HasClass g.nodeClass
  links : ∀ l ∈ d.linkClasses, d.HasConnector l.source ∧ d.HasConnector l.target
  connections : ∀ c ∈ d.connections, d.HasEndpoint c.source ∧ d.HasEndpoint c.target

-- ==================================================== what the check looks up

variable {d}

/-- The check looks a class up by name and finds it if it is declared. -/
theorem declaresClass_iff {name : String} : d.declaresClass name = true ↔ d.HasClass name := by
  unfold declaresClass HasClass
  simp

/-- The check finds a connector if any class of the name declares it. -/
theorem declaresConnector_iff {ref : ConnectorRef} :
    d.declaresConnector ref = true ↔ d.HasConnector ref := by
  unfold declaresConnector HasConnector
  simp

/-- A connector that is declared has a class that is. -/
theorem HasConnector.hasClass {ref : ConnectorRef} (h : d.HasConnector ref) :
    d.HasClass ref.nodeClass := by
  obtain ⟨c, hc, hname, -⟩ := h
  exact ⟨c, hc, hname⟩

/-- The names that a connection can end at are those of instances and of translations. -/
theorem mem_endpointNames {name : String} : name ∈ d.endpointNames ↔ d.HasEndpoint name := by
  unfold endpointNames deployed HasEndpoint
  rw [List.map_flatMap]
  simp

-- ========================================================== one defect for each cause

/-- Each name that is there more than once is told once. -/
theorem length_duplicates (names : List String) :
    (duplicates names).length = (repeated names).card := by
  have hnodup : (duplicates names).Nodup := (nodup_eraseDups names).filter _
  rw [← List.toFinset_card_of_nodup hnodup]
  congr 1
  ext name
  simp [duplicates, repeated]

/-- An end of a link class is told once if it is no declared connector, whichever part of it
is unknown. -/
theorem length_linkEndDefects (position : Option Position) (ref : ConnectorRef) :
    (d.linkEndDefects position ref).length = if d.HasConnector ref then 0 else 1 := by
  unfold linkEndDefects
  by_cases hclass : d.HasClass ref.nodeClass
  · rw [declaresClass_iff.2 hclass]
    by_cases href : d.HasConnector ref
    · simp [declaresConnector_iff.2 href, href]
    · have hno : d.declaresConnector ref = false :=
        Bool.eq_false_iff.2 fun h => href (declaresConnector_iff.1 h)
      simp [hno, href]
  · have hno : d.declaresClass ref.nodeClass = false :=
      Bool.eq_false_iff.2 fun h => hclass (declaresClass_iff.1 h)
    -- the connector is then unknown too, which is not told besides
    have href : ¬ d.HasConnector ref := fun h => hclass h.hasClass
    simp [hno, href]

/-- An end of a link lacks its class or only the connector. -/
theorem mem_linkEndDefects {position : Option Position} {ref : ConnectorRef} {x : Defect}
    (hx : x ∈ d.linkEndDefects position ref) :
    x = .linkOfUnknownClass position ref.nodeClass ∨ x = .linkOfUnknownConnector position ref := by
  unfold linkEndDefects at hx
  split at hx
  · exact .inl (List.mem_singleton.1 hx)
  · split at hx
    · exact .inr (List.mem_singleton.1 hx)
    · cases hx

/-- The defects of a document, kind by kind, in the order in which they are told. -/
theorem mem_defects {x : Defect} : x ∈ d.defects ↔
    (∃ name ∈ duplicates (d.nodeClasses.map (·.name)), .duplicateClass name = x) ∨
      (∃ c ∈ d.nodeClasses, ∃ name ∈ duplicates (c.connectors.map (·.name)),
        .duplicateConnector c.name name = x) ∨
      (∃ name ∈ duplicates d.endpointNames, .duplicateEndpoint name = x) ∨
      (∃ g ∈ d.instances, ¬ d.HasClass g.nodeClass ∧
        .groupOfUnknownClass g.position g.nodeClass = x) ∨
      (∃ l ∈ d.linkClasses, ∃ ref ∈ [l.source, l.target], x ∈ d.linkEndDefects l.position ref) ∨
      ∃ c ∈ d.connections, ∃ name ∈ [c.source, c.target], ¬ d.HasEndpoint name ∧
        .unknownEndpoint c.position name = x := by
  have hgroup : ∀ g : InstanceGroup, (x ∈ if d.declaresClass g.nodeClass then []
      else [Defect.groupOfUnknownClass g.position g.nodeClass]) ↔
        ¬ d.HasClass g.nodeClass ∧ .groupOfUnknownClass g.position g.nodeClass = x := by
    intro g
    rw [← declaresClass_iff]
    split
    · next h => simp [h]
    · next h => simp [h, eq_comm]
  unfold defects duplicateNames danglingNames
  simp only [List.mem_append, List.mem_map, List.mem_flatMap, List.mem_filter, hgroup, or_assoc,
    List.exists_mem_cons_iff, List.not_mem_nil, false_and, exists_false, or_false, and_assoc,
    ← mem_endpointNames, List.contains_iff_mem, Bool.not_eq_true', Bool.eq_false_iff, ne_eq]

/-- One defect is told for each repeated name of a class, of a connector in its class, and of what
a connection can end at. -/
theorem length_duplicateNames :
    d.duplicateNames.length = (repeated (d.nodeClasses.map (·.name))).card +
      (d.nodeClasses.map fun c => (repeated (c.connectors.map (·.name))).card).sum +
      (repeated d.endpointNames).card := by
  unfold duplicateNames
  simp only [List.length_append, List.length_map, List.length_flatMap, length_duplicates]

private theorem length_toldGroups (groups : List InstanceGroup) :
    (groups.flatMap fun g => if d.declaresClass g.nodeClass then []
      else [Defect.groupOfUnknownClass g.position g.nodeClass]).length
      = groups.countP (¬ d.HasClass ·.nodeClass) := by
  induction groups with
  | nil => rfl
  | cons g later ih =>
      rw [List.flatMap_cons, List.length_append, ih, List.countP_cons, Nat.add_comm]
      by_cases h : d.HasClass g.nodeClass
      · simp [declaresClass_iff.2 h, h]
      · have hno : d.declaresClass g.nodeClass = false :=
          Bool.eq_false_iff.2 fun hc => h (declaresClass_iff.1 hc)
        simp [hno, h]

private theorem length_toldLinks (links : List LinkClass) :
    (links.flatMap fun l =>
      d.linkEndDefects l.position l.source ++ d.linkEndDefects l.position l.target).length
      = (links.flatMap fun l => [l.source, l.target]).countP (¬ d.HasConnector ·) := by
  rw [List.length_flatMap, List.countP_flatMap]
  congr 1
  refine List.map_congr_left fun l _ => ?_
  rw [List.length_append, length_linkEndDefects, length_linkEndDefects]
  by_cases hs : d.HasConnector l.source <;> by_cases ht : d.HasConnector l.target <;>
    simp [hs, ht]

private theorem length_toldConnections (connections : List Connection) :
    (connections.flatMap fun c =>
      ([c.source, c.target].filter fun name => !d.endpointNames.contains name).map
        (Defect.unknownEndpoint c.position)).length
      = (connections.flatMap fun c => [c.source, c.target]).countP (¬ d.HasEndpoint ·) := by
  rw [List.length_flatMap, List.countP_flatMap]
  congr 1
  refine List.map_congr_left fun c _ => ?_
  rw [List.length_map, ← List.countP_eq_length_filter]
  refine List.countP_congr fun name _ => ?_
  simp [← mem_endpointNames]

/-- One defect is told for each group without a class, each end of a link class without a
connector, and each end of a connection that nothing has the name of. -/
theorem length_danglingNames :
    d.danglingNames.length = d.instances.countP (¬ d.HasClass ·.nodeClass) +
      d.linkEnds.countP (¬ d.HasConnector ·) + d.connectionEnds.countP (¬ d.HasEndpoint ·) := by
  unfold danglingNames linkEnds connectionEnds
  rw [List.length_append, List.length_append, length_toldGroups, length_toldLinks,
    length_toldConnections]

/-- The defects of a document are as many as their causes: names that are repeated, groups of
an unknown class, ends of link classes and ends of connections that nothing declares. -/
theorem length_defects :
    d.defects.length = (repeated (d.nodeClasses.map (·.name))).card +
      (d.nodeClasses.map fun c => (repeated (c.connectors.map (·.name))).card).sum +
      (repeated d.endpointNames).card + d.instances.countP (¬ d.HasClass ·.nodeClass) +
      d.linkEnds.countP (¬ d.HasConnector ·) + d.connectionEnds.countP (¬ d.HasEndpoint ·) := by
  unfold defects
  rw [List.length_append, length_duplicateNames, length_danglingNames]
  omega

/-- No defect is told of an end exactly if its connector is declared. -/
theorem linkEndDefects_eq_nil_iff (position : Option Position) {ref : ConnectorRef} :
    d.linkEndDefects position ref = [] ↔ d.HasConnector ref := by
  rw [← List.length_eq_zero_iff, length_linkEndDefects]
  simp

/-- No defect of a link class means that all ends of link classes are declared connectors. -/
theorem no_defect_of_link_iff : (∀ x ∈ d.defects, ¬ x.IsOfLink) ↔
    ∀ l ∈ d.linkClasses, d.HasConnector l.source ∧ d.HasConnector l.target := by
  constructor
  · intro h l hl
    have hend : ∀ ref ∈ [l.source, l.target], d.HasConnector ref := by
      intro ref href
      rw [← linkEndDefects_eq_nil_iff l.position, List.eq_nil_iff_forall_not_mem]
      intro x hx
      have hdefect : x ∈ d.defects :=
        mem_defects.2 (.inr (.inr (.inr (.inr (.inl ⟨l, hl, ref, href, hx⟩)))))
      refine h x hdefect ?_
      rcases mem_linkEndDefects hx with rfl | rfl <;> exact trivial
    exact ⟨hend _ (by simp), hend _ (by simp)⟩
  · intro h x hx hlink
    rcases mem_defects.1 hx with ⟨_, -, rfl⟩ | ⟨_, -, _, -, rfl⟩ | ⟨_, -, rfl⟩ | ⟨_, -, -, rfl⟩ |
      ⟨l, hl, ref, href, hx⟩ | ⟨_, -, _, -, -, rfl⟩
    iterate 4 exact hlink
    · have hends := h l hl
      rcases List.mem_pair.1 href with rfl | rfl
      · rw [(linkEndDefects_eq_nil_iff _).2 hends.1] at hx
        cases hx
      · rw [(linkEndDefects_eq_nil_iff _).2 hends.2] at hx
        cases hx
    · exact hlink

/-- No defect is one of a connection exactly if both ends of all connections are known. -/
theorem no_defect_of_connection_iff : (∀ x ∈ d.defects, ¬ x.IsOfConnection) ↔
    ∀ c ∈ d.connections, d.HasEndpoint c.source ∧ d.HasEndpoint c.target := by
  constructor
  · intro h c hc
    have hend : ∀ name ∈ [c.source, c.target], d.HasEndpoint name := by
      intro name hname
      by_contra hno
      have hdefect : .unknownEndpoint c.position name ∈ d.defects :=
        mem_defects.2 (.inr (.inr (.inr (.inr (.inr ⟨c, hc, name, hname, hno, rfl⟩)))))
      exact h _ hdefect trivial
    exact ⟨hend _ (by simp), hend _ (by simp)⟩
  · intro h x hx hconnection
    rcases mem_defects.1 hx with ⟨_, -, rfl⟩ | ⟨_, -, _, -, rfl⟩ | ⟨_, -, rfl⟩ | ⟨_, -, -, rfl⟩ |
      ⟨_, _, _, _, hx⟩ | ⟨c, hc, name, hname, hno, rfl⟩
    iterate 4 exact hconnection
    · rcases mem_linkEndDefects hx with rfl | rfl <;> exact hconnection
    · have hends := h c hc
      rcases List.mem_pair.1 hname with rfl | rfl
      · exact hno hends.1
      · exact hno hends.2

/-- There is no defect exactly if there is no cause for one. -/
theorem defects_eq_nil_iff : d.defects = [] ↔ d.Sound := by
  rw [← List.length_eq_zero_iff, length_defects]
  simp only [Nat.add_eq_zero_iff, card_repeated_eq_zero_iff, List.countP_eq_zero,
    List.sum_eq_zero_iff_forall_eq_nat, List.forall_mem_map, decide_eq_true_eq, not_not]
  constructor
  · rintro ⟨⟨⟨⟨⟨hclasses, hconnectors⟩, hendpoints⟩, hgroups⟩, hlinks⟩, hconnections⟩
    refine ⟨hclasses, hconnectors, hendpoints, hgroups, fun l hl => ?_, fun c hc => ?_⟩
    · exact ⟨hlinks _ (List.mem_flatMap.2 ⟨l, hl, by simp⟩),
        hlinks _ (List.mem_flatMap.2 ⟨l, hl, by simp⟩)⟩
    · exact ⟨hconnections _ (List.mem_flatMap.2 ⟨c, hc, by simp⟩),
        hconnections _ (List.mem_flatMap.2 ⟨c, hc, by simp⟩)⟩
  · intro h
    refine ⟨⟨⟨⟨⟨h.classes, h.connectors⟩, h.endpoints⟩, h.groups⟩, fun ref href => ?_⟩,
      fun name hname => ?_⟩
    · obtain ⟨l, hl, href⟩ := List.mem_flatMap.1 href
      have hends := h.links l hl
      rcases List.mem_pair.1 href with rfl | rfl
      · exact hends.1
      · exact hends.2
    · obtain ⟨c, hc, hname⟩ := List.mem_flatMap.1 hname
      have hends := h.connections c hc
      rcases List.mem_pair.1 hname with rfl | rfl
      · exact hends.1
      · exact hends.2

-- ================================================================ breaking off

end Document

namespace Ports

/-- The numbers of ports. -/
def numbers : Ports → List Int
  | .single port => [port]
  | .range first last => [first, last]

/-- What is told of ports for being reversed. -/
def reversal (ref : ConnectorRef) : Ports → List Suspicion
  | .single _ => []
  | .range first last => if last < first then [.reversedRange ref first last] else []

variable {ports : Ports} {ref : ConnectorRef}

/-- Ports are doubted as a range first, and then number by number. -/
theorem suspicions_eq : ports.suspicions ref
    = ports.reversal ref ++ (ports.numbers.filter (65535 < ·)).map (.portOutOfRange ref) := by
  cases ports with
  | single port =>
      by_cases hgreat : 65535 < port <;> simp [suspicions, reversal, numbers, maxPort, hgreat]
  | range first last => rfl

/-- A reversed range is suspected only where ports are one. -/
theorem mem_reversal {x : Suspicion} (hx : x ∈ ports.reversal ref) :
    ∃ first last, ports = .range first last ∧ last < first ∧ x = .reversedRange ref first last := by
  cases ports with
  | single port => cases hx
  | range first last =>
      by_cases hreversed : last < first
      · have hone : x = .reversedRange ref first last := by simpa [reversal, hreversed] using hx
        exact ⟨first, last, rfl, hreversed, hone⟩
      · simp [reversal, hreversed] at hx

/-- What is told of ports has no numbers but theirs. -/
theorem mem_numbers_of_suspicion {x : Suspicion} (hx : x ∈ ports.suspicions ref) {n : Int}
    (hn : n ∈ x.numbers) : n ∈ ports.numbers := by
  rw [suspicions_eq] at hx
  rcases List.mem_append.1 hx with hx | hx
  · obtain ⟨first, last, rfl, -, rfl⟩ := mem_reversal hx
    exact hn
  · obtain ⟨port, hport, rfl⟩ := List.mem_map.1 hx
    cases List.mem_singleton.1 hn
    exact (List.mem_filter.1 hport).1

end Ports

namespace Document

variable (d : Document)

/-- The numbers of all ports. -/
def portNumbers : List Int :=
  d.nodeClasses.flatMap fun c => c.connectors.flatMap fun k =>
    k.ports.flatMap fun spec => spec.ports.numbers

/-- The numbers in the places of the declarations that refer to others. -/
def placeNumbers : List Int :=
  (d.instances.map (·.position) ++ d.linkClasses.map (·.position) ++
    d.connections.map (·.position)).flatMap Position.numbers

variable {d}

/-- The numbers of places that can be told are those of groups, link classes and connections. -/
theorem mem_placeNumbers {n : Int} : n ∈ d.placeNumbers ↔
    (∃ g ∈ d.instances, n ∈ Position.numbers g.position) ∨
      (∃ l ∈ d.linkClasses, n ∈ Position.numbers l.position) ∨
      ∃ c ∈ d.connections, n ∈ Position.numbers c.position := by
  unfold placeNumbers
  simp only [List.flatMap_append, List.mem_append, List.flatMap_map, List.mem_flatMap, or_assoc]

/-- The numbers in the wording of defects are those of places. -/
theorem mem_placeNumbers_of_defect {x : Defect} (hx : x ∈ d.defects) {n : Int}
    (hn : n ∈ x.numbers) : n ∈ d.placeNumbers := by
  rw [mem_placeNumbers]
  rcases mem_defects.1 hx with ⟨_, -, rfl⟩ | ⟨_, -, _, -, rfl⟩ | ⟨_, -, rfl⟩ | ⟨g, hg, -, rfl⟩ |
    ⟨l, hl, ref, -, hx⟩ | ⟨c, hc, _, -, -, rfl⟩
  iterate 3 cases hn
  · exact .inl ⟨g, hg, hn⟩
  · refine .inr (.inl ⟨l, hl, ?_⟩)
    rcases mem_linkEndDefects hx with rfl | rfl <;> exact hn
  · exact .inr (.inr ⟨c, hc, hn⟩)

/-- A suspicion of the direction of a link has the numbers of its place. -/
theorem mem_placeNumbers_of_misdirected {x : Suspicion} (hx : x ∈ d.misdirectedLinks) {n : Int}
    (hn : n ∈ x.numbers) : n ∈ d.placeNumbers := by
  rw [mem_placeNumbers]
  obtain ⟨l, hl, hx⟩ := List.mem_flatMap.1 hx
  refine .inr (.inl ⟨l, hl, ?_⟩)
  rcases List.mem_append.1 hx with hx | hx <;> split at hx
  · cases List.mem_singleton.1 hx
    exact hn
  · cases hx
  · cases List.mem_singleton.1 hx
    exact hn
  · cases hx

/-- A suspicion of ports has the numbers of ports. -/
theorem mem_portNumbers_of_doubtful {x : Suspicion} (hx : x ∈ d.doubtfulPorts) {n : Int}
    (hn : n ∈ x.numbers) : n ∈ d.portNumbers := by
  unfold doubtfulPorts at hx
  simp only [List.mem_flatMap] at hx
  obtain ⟨c, hc, k, hk, spec, hspec, hx⟩ := hx
  simp only [portNumbers, List.mem_flatMap]
  exact ⟨c, hc, k, hk, spec, hspec, Ports.mem_numbers_of_suspicion hx hn⟩

/-- A part of some address fails to be read as an octet. -/
def OctetFails (parts : List (List Char)) (f : Text.Numeral.Fault) : Prop :=
  ∃ part ∈ parts, Text.Numeral.read (String.ofList part) = .error f

/-- Only an octet that is no numeral ends a test of octets early. -/
theorem areOctets_error {parts : List (List Char)} {f : Text.Numeral.Fault}
    (h : areOctets parts = .error f) : OctetFails parts f := by
  induction parts with
  | nil => cases h
  | cons part later ih =>
      unfold areOctets at h
      split at h
      · split at h
        · next hread =>
          cases h
          exact ⟨part, List.mem_cons_self, hread⟩
        · split at h
          · obtain ⟨p, hp, hread⟩ := ih h
            exact ⟨p, List.mem_cons_of_mem _ hp, hread⟩
          · cases h
      · cases h

/-- Only the address of some instance or translation ends the test of addresses early. -/
theorem suspectAddresses_error {items : List (String × Suspicion)} {f : Text.Numeral.Fault}
    (h : suspectAddresses items = .error f) :
    ∃ item ∈ items, OctetFails (Text.splitAt '.' item.1.toList) f := by
  induction items with
  | nil => cases h
  | cons item later ih =>
      unfold suspectAddresses at h
      cases hgood : isAddress item.1 with
      | error e =>
          rw [hgood] at h
          cases h
          refine ⟨item, List.mem_cons_self, ?_⟩
          unfold isAddress at hgood
          dsimp only at hgood
          split at hgood
          · exact areOctets_error hgood
          · cases hgood
      | ok good =>
          cases hlater : suspectAddresses later with
          | error e =>
              rw [hgood, hlater] at h
              cases h
              obtain ⟨x, hx, hfails⟩ := ih hlater
              exact ⟨x, List.mem_cons_of_mem _ hx, hfails⟩
          | ok rest =>
              rw [hgood, hlater] at h
              cases h

/-- Only a number of too many digits cannot be told. -/
theorem demandWritable_error {numbers : List Int} {f : Text.Numeral.Fault}
    (h : demandWritable numbers = .error f) :
    f = .unwritable ∧ ∃ n ∈ numbers, Text.Numeral.isWritable n = false := by
  unfold demandWritable at h
  split at h
  · cases h
  · next hall =>
    cases h
    refine ⟨rfl, ?_⟩
    simpa using hall

/-- The numbers in the findings that are told before addresses are looked at. -/
def toldNumbers (d : Document) : List Int :=
  d.defects.flatMap Defect.numbers ++
    (d.misdirectedLinks ++ d.doubtfulPorts).flatMap Suspicion.numbers

/-- A check breaks off at a number, breaks off at an address, or returns. -/
theorem check_cases (d : Document) :
    (∃ f, demandWritable d.toldNumbers = .error f ∧ d.check = .error f) ∨
      (∃ f, suspectAddresses d.addresses = .error f ∧ d.check = .error f) ∨
      ∃ doubtful, suspectAddresses d.addresses = .ok doubtful ∧
        d.check = .ok ⟨d.defects,
          d.misdirectedLinks ++ d.doubtfulPorts ++ doubtful ++ d.unpermittedConnections⟩ := by
  have hopen : d.check = (demandWritable d.toldNumbers).bind fun _ =>
      (suspectAddresses d.addresses).bind fun doubtful => .ok ⟨d.defects,
        d.misdirectedLinks ++ d.doubtfulPorts ++ doubtful ++ d.unpermittedConnections⟩ := rfl
  rw [hopen]
  cases demandWritable d.toldNumbers with
  | error f => exact .inl ⟨f, rfl, rfl⟩
  | ok _ =>
      cases suspectAddresses d.addresses with
      | error f => exact .inr (.inl ⟨f, rfl, rfl⟩)
      | ok doubtful => exact .inr (.inr ⟨doubtful, rfl, rfl⟩)

/-- A check that returns has tested all addresses, and it reports what each of its parts found. -/
theorem exists_of_check {r : Report} (h : d.check = .ok r) :
    ∃ doubtful, suspectAddresses d.addresses = .ok doubtful ∧ r = ⟨d.defects,
      d.misdirectedLinks ++ d.doubtfulPorts ++ doubtful ++ d.unpermittedConnections⟩ := by
  rcases check_cases d with ⟨f, -, hf⟩ | ⟨f, -, hf⟩ | ⟨doubtful, hdoubtful, hok⟩
  · cases hf.symm.trans h
  · cases hf.symm.trans h
  · exact ⟨doubtful, hdoubtful, Except.ok.inj (h.symm.trans hok)⟩

/-- The defects of a report are those of the document. -/
theorem defects_of_check {r : Report} (h : d.check = .ok r) : r.defects = d.defects := by
  obtain ⟨doubtful, -, rfl⟩ := exists_of_check h
  rfl

/-- All numbers that a check tells are ports or places. -/
theorem mem_of_toldNumbers {n : Int} (hn : n ∈ d.toldNumbers) :
    n ∈ d.portNumbers ++ d.placeNumbers := by
  unfold toldNumbers at hn
  simp only [List.flatMap_append, List.mem_append, List.mem_flatMap] at hn
  rw [List.mem_append]
  rcases hn with ⟨x, hx, hn⟩ | ⟨x, hx, hn⟩ | ⟨x, hx, hn⟩
  · exact .inr (mem_placeNumbers_of_defect hx hn)
  · exact .inr (mem_placeNumbers_of_misdirected hx hn)
  · exact .inl (mem_portNumbers_of_doubtful hx hn)

/-- A check breaks off at an octet that cannot be read, or at the number of a port or of a
place that cannot be written. -/
theorem check_error {f : Text.Numeral.Fault} (h : d.check = .error f) :
    (∃ a ∈ d.addresses, OctetFails (Text.splitAt '.' a.1.toList) f) ∨
      f = .unwritable ∧ ∃ n ∈ d.portNumbers ++ d.placeNumbers,
        Text.Numeral.isWritable n = false := by
  rcases check_cases d with ⟨e, hnumbers, he⟩ | ⟨e, haddresses, he⟩ | ⟨doubtful, -, hok⟩
  · cases he.symm.trans h
    obtain ⟨hf, n, hn, hlong⟩ := demandWritable_error hnumbers
    exact .inr ⟨hf, n, mem_of_toldNumbers hn, hlong⟩
  · cases he.symm.trans h
    exact .inl (suspectAddresses_error haddresses)
  · cases hok.symm.trans h

-- ================================================================== the check

/-- A check finds what is wrong and nothing else. If it returns, it has no defects exactly for
a sound document, and otherwise one for each repeated name, where the names of connectors
count for each declaration of a class, one for each group of an unknown class, and one for
each end of a link class or of a connection that nothing declares. -/
theorem check_counts_causes (d : Document) :
    (∀ f, d.check = .error f →
      (∃ a ∈ d.addresses, OctetFails (Text.splitAt '.' a.1.toList) f) ∨
        f = .unwritable ∧ ∃ n ∈ d.portNumbers ++ d.placeNumbers,
          Text.Numeral.isWritable n = false) ∧
    ∀ r, d.check = .ok r →
      (r.defects = [] ↔ d.Sound) ∧
      r.defects.length = (repeated (d.nodeClasses.map (·.name))).card +
        (d.nodeClasses.map fun c => (repeated (c.connectors.map (·.name))).card).sum +
        (repeated d.endpointNames).card + d.instances.countP (¬ d.HasClass ·.nodeClass) +
        d.linkEnds.countP (¬ d.HasConnector ·) + d.connectionEnds.countP (¬ d.HasEndpoint ·) := by
  refine ⟨fun f hf => check_error hf, fun r hr => ?_⟩
  rw [defects_of_check hr]
  exact ⟨defects_eq_nil_iff, length_defects⟩

/-- A document with one cause of each kind, the two parts of a connector's name counted apart.
One node class is declared twice, and one declaration repeats a connector. -/
def unsound : Document where
  includes := []
  nodeClasses := [⟨"A", [⟨"x", .client, [], none⟩, ⟨"x", .server, [], none⟩], none⟩,
    ⟨"A", [⟨"y", .server, [⟨.udp, .single 70000⟩], none⟩], none⟩]
  linkClasses := [⟨⟨"A", "x"⟩, ⟨"A", "z"⟩, some ⟨4, 1⟩⟩, ⟨⟨"C", "q"⟩, ⟨"A", "y"⟩, none⟩]
  instances := [⟨"A", [⟨"e", some "10.0.0.1", none⟩], none⟩,
    ⟨"B", [⟨"g", none, none⟩], some ⟨7, 1⟩⟩]
  translations := [⟨"e", "203.0.113.10", "10.0.0.1.5", none⟩]
  connections := [⟨"e", "f", none⟩, ⟨"g", "e", none⟩]

/-- The check of that document tells each cause once. -/
theorem unsound_counted :
    ∃ r, unsound.check = .ok r ∧ (r.defects = [] ↔ unsound.Sound) ∧ r.defects.length = 7 := by
  have hcheck : unsound.check = .ok ⟨unsound.defects, unsound.misdirectedLinks ++
      unsound.doubtfulPorts ++ [.translationAddress "e" .internal "10.0.0.1.5"] ++
        unsound.unpermittedConnections⟩ := by decide +kernel
  obtain ⟨hiff, hcount⟩ := (check_counts_causes unsound).2 _ hcheck
  refine ⟨_, hcheck, hiff, hcount.trans ?_⟩
  decide +kernel

/-- A document with one connection, of unknown ends and at some line. -/
def strayAt (line : Int) : Document :=
  { Document.empty with connections := [⟨"a", "b", some ⟨line, 1⟩⟩] }

/-- Findings tell places, so a line can be too far down to be told. -/
theorem check_strayAt {line : Int} (h : Text.Numeral.isWritable line = false) :
    (strayAt line).check = .error .unwritable := by
  have hnumbers : (strayAt line).defects.flatMap Defect.numbers = [line, 1, line, 1] := rfl
  have hrefused : demandWritable ([line, 1, line, 1] ++
      ((strayAt line).misdirectedLinks ++ (strayAt line).doubtfulPorts).flatMap Suspicion.numbers)
        = .error .unwritable := by
    unfold demandWritable
    rw [if_neg]
    simp [h]
  unfold check
  dsimp only
  rw [hnumbers, hrefused]
  rfl

/-- A number as long as no number is written. -/
def farLine : Int := Int.ofNat (Nat.pow 10 Text.Numeral.digitLimit)

/-- The number of the line has one digit too many. -/
theorem isWritable_farLine : Text.Numeral.isWritable farLine = false := by
  have hlong : ∀ n : Nat, Nat.pow 10 Text.Numeral.digitLimit ≤ n →
      Text.Numeral.isWritable (Int.ofNat n) = false := by
    intro n hn
    unfold Text.Numeral.isWritable
    exact decide_eq_false (Nat.not_lt.2 hn)
  exact hlong _ (Nat.le_refl _)

/-- A document without ports and addresses on which the check does not return. -/
theorem farLine_unchecked : (strayAt farLine).check = .error .unwritable ∧
    (strayAt farLine).addresses = [] ∧ (strayAt farLine).portNumbers = [] :=
  ⟨check_strayAt isWritable_farLine, rfl, rfl⟩

end Document

end SystemMap
