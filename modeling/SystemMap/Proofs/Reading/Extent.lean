/-
How far what a text declares extends. It has no more parts than the text has tokens, its places
are those of tokens, and the octets of its addresses are numbers among the tokens. So a text
bounds whatever is counted or written of it, and a document is bounded by the texts that it was
gathered from.
-/
import Mathlib.Algebra.Order.BigOperators.Group.List
import Mathlib.Algebra.Order.Group.Nat
import SystemMap.Proofs.Checking.Defects
import SystemMap.Proofs.Drawing.Stored
import SystemMap.Proofs.Reading.Sources
import SystemMap.Proofs.Scan.Places

namespace SystemMap

-- ===================================================================== runs

section Runs

variable {α : Type} {item : Shape α} {as : List α} {run rest : List Token}

/-- Each item after the first has a sign of its own. -/
theorem After.length_le {sign : TokenKind} (h : After sign item as run rest) :
    as.length ≤ run.length := by
  induction h with
  | stop hs => exact Nat.le_refl _
  | more hs ha hl ih =>
      simp only [List.length_cons, List.length_append]
      omega

/-- A list has no more items than tokens, if no item is without one. -/
theorem Listed.length_le {sign : TokenKind} (hitem : ∀ a run rest, item a run rest → run ≠ [])
    (h : Listed sign item as run rest) : as.length ≤ run.length := by
  cases h with
  | mk ha hl =>
      have hpos := List.length_pos_iff.2 (hitem _ _ _ ha)
      have hle := hl.length_le
      simp only [List.length_cons, List.length_append]
      omega

/-- The same for items in a row. -/
theorem Many.length_le {starts : List Token → Prop}
    (hitem : ∀ a run rest, item a run rest → run ≠ [])
    (h : Many starts item as run rest) : as.length ≤ run.length := by
  induction h with
  | stop hs => exact Nat.le_refl _
  | more hs ha hl ih =>
      have hpos := List.length_pos_iff.2 (hitem _ _ _ ha)
      simp only [List.length_cons, List.length_append]
      omega

end Runs

-- ===================================================================== size

namespace Document

/-- Sizes add up. -/
theorem size_append (a b : Document) : (a ++ b).size = a.size + b.size := by
  have hdeployed : (a ++ b).deployed = a.deployed ++ b.deployed := List.flatMap_append
  have hnodes : (a ++ b).nodeClasses = a.nodeClasses ++ b.nodeClasses := rfl
  have htranslations : (a ++ b).translations = a.translations ++ b.translations := rfl
  unfold size
  rw [hdeployed, hnodes, htranslations]
  simp only [List.length_append, List.map_append, List.sum_append]
  omega

/-- A document is put together segment by segment. -/
theorem ofSegments_cons (s : Segment) (later : List Segment) :
    ofSegments (s :: later) = ofSegments [s] ++ ofSegments later := by
  cases s with
  | declared d => cases d <;> rfl
  | _ => rfl

end Document

/-- A connector has a name at least. -/
theorem Connector.Spelled.run_ne_nil {c : Connector} {run rest : List Token}
    (h : c.Spelled run rest) : run ≠ [] := by
  cases h <;> exact List.cons_ne_nil _ _

theorem InstanceEntry.Spelled.run_ne_nil {e : InstanceEntry} {run rest : List Token}
    (h : e.Spelled run rest) : run ≠ [] := by
  cases h
  exact List.cons_ne_nil _ _

/-- What a segment declares has no more parts than the segment has tokens. -/
theorem Segment.Spelled.size_le {current : Option Section} {s : Segment} {run rest : List Token}
    (h : s.Spelled current run rest) : (Document.ofSegments [s]).size ≤ run.length := by
  cases h with
  | @nodeClass c _ _ hs h =>
      have hsize : (Document.ofSegments [.declared (.nodeClass c)]).size
          = 1 + c.connectors.length := rfl
      cases h with
      | mk ht hc hm =>
          have hle := hm.length_le fun _ _ _ h => h.run_ne_nil
          rw [hsize, List.length_cons, List.length_cons]
          dsimp only
          omega
  | @instances g _ _ hs h =>
      have hsize : (Document.ofSegments [.declared (.instances g)]).size = g.entries.length := by
        show 0 + (g.entries.map _ ++ []).length + 0 + 0 = _
        simp
      cases h with
      | mk ht he =>
          have hle := he.length_le fun _ _ _ h => h.run_ne_nil
          rw [hsize, List.length_cons]
          dsimp only
          omega
  | @translation t _ _ hs h =>
      have hsize : (Document.ofSegments [.declared (.translation t)]).size = 1 := rfl
      cases h with
      | mk ha hn hl he hc hi hr =>
          rw [hsize, List.length_cons]
          omega
  | _ => exact Nat.zero_le _

/-- A document is no larger than there are tokens that it was read from. -/
theorem Split.size_le {current : Option Section} {ts : List Token}
    {parts : List (Segment × List Token)} (h : Split current ts parts) :
    (Document.ofSegments (parts.map Prod.fst)).size ≤ ts.length := by
  induction h with
  | nil => exact Nat.le_refl _
  | cons hs hp ih =>
      rw [List.map_cons, Document.ofSegments_cons, Document.size_append, List.length_append]
      exact Nat.add_le_add hs.size_le ih

-- ============================================================ what spells what

section Spelled

variable {current : Option Section} {s : Segment} {run rest : List Token}
  (h : s.Spelled current run rest)
include h

/-- A segment that declares a group spells it. -/
theorem spelled_of_instances? {g : InstanceGroup} (hs : s.instances? = some g) :
    g.Spelled run rest := by
  cases h with
  | instances _ h =>
      cases hs
      exact h
  | _ => cases hs

theorem spelled_of_linkClass? {l : LinkClass} (hs : s.linkClass? = some l) :
    l.Spelled run rest := by
  cases h with
  | linkClass _ h =>
      cases hs
      exact h
  | _ => cases hs

theorem spelled_of_translation? {t : Translation} (hs : s.translation? = some t) :
    t.Spelled run rest := by
  cases h with
  | translation _ h =>
      cases hs
      exact h
  | _ => cases hs

theorem spelled_of_connection? {c : Connection} (hs : s.connection? = some c) :
    c.Spelled run rest := by
  cases h with
  | connection _ h =>
      cases hs
      exact h
  | _ => cases hs

end Spelled

/-- The constructs of one kind among the segments of a split are spelled by its tokens. -/
theorem Split.exists_spelled {α : Type} {kind? : Segment → Option α} {shape : Shape α}
    (hkind : ∀ {current s run rest}, s.Spelled current run rest →
      ∀ {a}, kind? s = some a → shape a run rest)
    {current : Option Section} {ts : List Token} {parts : List (Segment × List Token)}
    (h : Split current ts parts) {a : α} (ha : a ∈ (parts.map Prod.fst).filterMap kind?) :
    ∃ run rest, run ⊆ ts ∧ shape a run rest := by
  obtain ⟨s, hs, hsa⟩ := List.mem_filterMap.1 ha
  obtain ⟨current', run, rest, hsub, hspelled⟩ := h.exists_run s hs
  exact ⟨run, rest, hsub, hkind hspelled hsa⟩

-- ======================================================= places and addresses

/-- A group stands where its first token does. -/
theorem InstanceGroup.Spelled.position {g : InstanceGroup} {run rest : List Token}
    (h : g.Spelled run rest) : ∃ t ∈ run, g.position = some t.position := by
  cases h
  exact ⟨_, List.mem_cons_self, rfl⟩

/-- So does a link class. -/
theorem LinkClass.Spelled.position {l : LinkClass} {run rest : List Token}
    (h : l.Spelled run rest) : ∃ t ∈ run, l.position = some t.position := by
  cases h
  exact ⟨_, List.mem_cons_self, rfl⟩

/-- So does a connection. -/
theorem Connection.Spelled.position {c : Connection} {run rest : List Token}
    (h : c.Spelled run rest) : ∃ t ∈ run, c.position = some t.position := by
  cases h
  exact ⟨_, List.mem_cons_self, rfl⟩

/-- Numbers among some tokens are the octets of an address. -/
def OctetsAmong (ts : List Token) (address : String) : Prop :=
  ∀ o ∈ octets address, ∃ t ∈ ts, t.kind = .number ∧ t.value.toList = o

/-- Octets among tokens are among more tokens. -/
theorem OctetsAmong.of_subset {run ts : List Token} {address : String}
    (h : OctetsAmong run address) (hsub : run ⊆ ts) : OctetsAmong ts address := by
  intro o ho
  obtain ⟨t, ht, hk, hvalue⟩ := h o ho
  exact ⟨t, hsub ht, hk, hvalue⟩

/-- The octets of an address are numbers among the tokens that spell it. -/
theorem InstanceEntry.Spelled.octets_among {e : InstanceEntry} {run rest : List Token}
    (hrun : Sound run) (h : e.Spelled run rest) :
    ∀ a, e.address = some a → OctetsAmong run a := by
  cases h with
  | mk ht ha =>
      cases ha with
      | absent hl => nofun
      | given hl ha hr =>
          intro a hgiven
          cases hgiven
          exact OctetsAmong.of_subset (ha.exists_number (hrun.of_subset fun t ht => by simp [ht]))
            fun t ht => by simp [ht]

/-- So are those of the instances of a group. -/
theorem InstanceGroup.Spelled.octets_among {g : InstanceGroup} {run rest : List Token}
    (hrun : Sound run) (h : g.Spelled run rest) :
    ∀ e ∈ g.entries, ∀ a, e.address = some a → OctetsAmong run a := by
  cases h with
  | mk ht he =>
      intro e hmem a ha
      obtain ⟨run', rest', hsub, hspelled⟩ := he.exists_item e hmem
      have hamong := hspelled.octets_among (hrun.of_subset fun t ht => by simp [hsub ht]) a ha
      exact hamong.of_subset fun t ht => by simp [hsub ht]

/-- A translation spells both its addresses. -/
theorem Translation.Spelled.octets_among {t : Translation} {run rest : List Token}
    (hrun : Sound run) (h : t.Spelled run rest) :
    OctetsAmong run t.external ∧ OctetsAmong run t.internal := by
  cases h with
  | mk ha hn hl he hc hi hr =>
      constructor
      · exact OctetsAmong.of_subset (he.exists_number (hrun.of_subset fun t ht => by simp [ht]))
          fun t ht => by simp [ht]
      · exact OctetsAmong.of_subset (hi.exists_number (hrun.of_subset fun t ht => by simp [ht]))
          fun t ht => by simp [ht]

-- ================================================================== a text

section Text

variable {text : String} (h : (Outline.ofText text).fault = none)
include h

/-- A text without a fault falls into segments, each of them spelled by tokens of it. -/
theorem exists_split_of_text : ∃ ts parts, scan text = .ok ts ∧ Split none ts.list parts ∧
    declaredBy text = .ofSegments (parts.map Prod.fst) := by
  unfold declaredBy
  unfold Outline.ofText at h ⊢
  cases hscan : scan text with
  | error e =>
      rw [hscan] at h
      cases h
  | ok ts =>
      rw [hscan] at h
      obtain ⟨parts, hsplit⟩ := exists_split h
      have houtline : Outline.ofTokens ts = _ := hsplit.outline ts.finish
      refine ⟨ts, parts, rfl, hsplit, ?_⟩
      dsimp only
      rw [houtline]

/-- A document is not larger than its text is long. -/
theorem size_declaredBy_le : (declaredBy text).size ≤ text.length := by
  obtain ⟨ts, parts, hscan, hsplit, hd⟩ := exists_split_of_text h
  rw [hd, ← String.length_toList]
  exact Nat.le_trans hsplit.size_le (scans_of_scanFrom hscan).length_le

/-- Nothing that a text declares stands further down or further right than the text is long. -/
theorem placeNumbers_declaredBy {n : Int} (hn : n ∈ (declaredBy text).placeNumbers) :
    n.natAbs ≤ text.length + 1 := by
  obtain ⟨ts, parts, hscan, hsplit, hd⟩ := exists_split_of_text h
  have hwithin : ∀ {run : List Token} {p : Option Position}, run ⊆ ts.list →
      (∃ t ∈ run, p = some t.position) → n ∈ Position.numbers p → n.natAbs ≤ text.length + 1 := by
    intro run p hsub hp hn
    obtain ⟨t, ht, rfl⟩ := hp
    obtain ⟨hline, hcolumn⟩ := within_of_scan hscan t (hsub ht)
    rw [String.length_toList] at hline hcolumn
    simp only [Position.numbers, List.mem_cons, List.not_mem_nil, or_false] at hn
    rcases hn with rfl | rfl
    · omega
    · omega
  rw [hd, Document.mem_placeNumbers] at hn
  rcases hn with ⟨g, hg, hn⟩ | ⟨l, hl, hn⟩ | ⟨c, hc, hn⟩
  · obtain ⟨run, rest, hsub, hg⟩ := hsplit.exists_spelled spelled_of_instances? hg
    exact hwithin hsub hg.position hn
  · obtain ⟨run, rest, hsub, hl⟩ := hsplit.exists_spelled spelled_of_linkClass? hl
    exact hwithin hsub hl.position hn
  · obtain ⟨run, rest, hsub, hc⟩ := hsplit.exists_spelled spelled_of_connection? hc
    exact hwithin hsub hc.position hn

/-- The octets of all addresses of a text are numbers among its tokens. -/
theorem octets_declaredBy : ∃ ts, scan text = .ok ts ∧
    ∀ a ∈ (declaredBy text).addresses, OctetsAmong ts.list a.1 := by
  obtain ⟨ts, parts, hscan, hsplit, hd⟩ := exists_split_of_text h
  have hsound : Sound ts.list := (scans_of_scanFrom hscan).sound
  refine ⟨ts, hscan, fun a ha => ?_⟩
  rw [hd] at ha
  rcases List.mem_append.1 ha with ha | ha
  · obtain ⟨⟨nodeClass, e⟩, he, ha⟩ := List.mem_filterMap.1 ha
    obtain ⟨address, haddress, rfl⟩ := Option.map_eq_some_iff.1 ha
    obtain ⟨g, hg, he⟩ := List.mem_flatMap.1 he
    obtain ⟨e', he', heq⟩ := List.mem_map.1 he
    cases heq
    obtain ⟨run, rest, hsub, hg⟩ := hsplit.exists_spelled spelled_of_instances? hg
    have hamong := hg.octets_among (hsound.of_subset hsub) e he' address haddress
    exact hamong.of_subset hsub
  · obtain ⟨t, ht, ha⟩ := List.mem_flatMap.1 ha
    obtain ⟨run, rest, hsub, ht⟩ := hsplit.exists_spelled spelled_of_translation? ht
    obtain ⟨hexternal, hinternal⟩ := ht.octets_among (hsound.of_subset hsub)
    simp only [List.mem_cons, List.not_mem_nil, or_false] at ha
    rcases ha with rfl | rfl
    · exact hexternal.of_subset hsub
    · exact hinternal.of_subset hsub

end Text

-- ============================================================== a document

namespace Gathered

variable {ε : Type} {library : Option (Library ε)} {text : String}
  {included : List (String × String)} {d : Document} (h : Gathered library text included d)
include h

/-- A gathered document is not larger than all its texts together. -/
theorem size_le : d.size ≤ ((text :: included.map (·.2)).map String.length).sum := by
  have hclasses : d.nodeClasses.length = (declaredBy text).nodeClasses.length +
      ((included.map (·.2)).map fun t => (declaredBy t).nodeClasses.length).sum := by
    rw [h.nodeClasses.length_eq, List.length_flatMap, List.map_cons, List.sum_cons]
  have hconnectors : (d.nodeClasses.map (·.connectors.length)).sum =
      ((declaredBy text).nodeClasses.map (·.connectors.length)).sum +
        ((included.map (·.2)).map fun t =>
          ((declaredBy t).nodeClasses.map (·.connectors.length)).sum).sum := by
    rw [(h.nodeClasses.map _).sum_nat, List.map_flatMap, List.flatMap_def, List.sum_flatten,
      List.map_map, List.map_cons, List.sum_cons]
    rfl
  have hdeployed : d.deployed = (declaredBy text).deployed := by
    unfold Document.deployed
    rw [h.instances]
  have hown := size_declaredBy_le (h.faultless text List.mem_cons_self)
  have hothers : ((included.map (·.2)).map fun t => (declaredBy t).nodeClasses.length +
      ((declaredBy t).nodeClasses.map (·.connectors.length)).sum).sum ≤
        ((included.map (·.2)).map String.length).sum := by
    refine List.sum_le_sum fun t ht => ?_
    have hsize := size_declaredBy_le (h.faultless t (List.mem_cons_of_mem _ ht))
    unfold Document.size at hsize
    omega
  rw [List.sum_map_add] at hothers
  unfold Document.size at hown ⊢
  rw [hclasses, hconnectors, hdeployed, h.translations, List.map_cons, List.sum_cons]
  omega

/-- No place lies further off than all texts together are long. -/
theorem placeNumbers_le {n : Int} (hn : n ∈ d.placeNumbers) :
    n.natAbs ≤ ((text :: included.map (·.2)).map String.length).sum + 1 := by
  have hlengths : ∀ t ∈ text :: included.map (·.2),
      t.length ≤ ((text :: included.map (·.2)).map String.length).sum := fun t ht =>
    List.single_le_sum (fun _ _ => Nat.zero_le _) _ (List.mem_map_of_mem ht)
  have hfrom : ∃ t ∈ text :: included.map (·.2), n ∈ (declaredBy t).placeNumbers := by
    rw [Document.mem_placeNumbers] at hn
    rcases hn with ⟨g, hg, hn⟩ | ⟨l, hl, hn⟩ | ⟨c, hc, hn⟩
    · refine ⟨text, List.mem_cons_self, Document.mem_placeNumbers.2 (.inl ⟨g, ?_, hn⟩)⟩
      exact h.instances ▸ hg
    · obtain ⟨t, ht, hl⟩ := List.mem_flatMap.1 (h.linkClasses.mem_iff.1 hl)
      exact ⟨t, ht, Document.mem_placeNumbers.2 (.inr (.inl ⟨l, hl, hn⟩))⟩
    · refine ⟨text, List.mem_cons_self, Document.mem_placeNumbers.2 (.inr (.inr ⟨c, ?_, hn⟩))⟩
      exact h.connections ▸ hc
  obtain ⟨t, ht, hn⟩ := hfrom
  have hle := placeNumbers_declaredBy (h.faultless t ht) hn
  have hlength := hlengths t ht
  omega

/-- Included texts add no addresses. -/
theorem addresses_eq : d.addresses = (declaredBy text).addresses := by
  unfold Document.addresses Document.deployed
  rw [h.instances, h.translations]

end Gathered

end SystemMap
