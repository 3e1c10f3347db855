/-
What a check tells of ports. Whatever document is checked, the numbers that are told to be out of
range are those above 65535, and the ranges that are told to be reversed are those whose first is
above its last, each occurrence once, in the order of declaration (`strayPorts_of_check`,
`reversed_of_check`). Only these warnings have the words of one about ports, and the words name the
connector and the numbers (`message_eq_portOutOfRange_iff`, `message_eq_reversedRange_iff`). So the
occurrences can be counted in the texts of the warnings.

The words also name a range of ports, which has a lower end; but a check looks at the upper end
only. What it tells agrees with the range exactly for documents without negative ports
(`port_warnings_agree_iff`). Texts declare no others, while the image of a document may hold any
integers.
-/
import SystemMap.Document.Json
import SystemMap.Proofs.Reading.Returns
import SystemMap.Proofs.Text.Parts

namespace SystemMap

open Text.Numeral (not_mem_toString toString_inj toString_dash_inj)

-- ================================================================= wording

/-- The warnings of a check. -/
def Report.warnings (r : Report) : List String := r.suspicions.map Suspicion.message

namespace Suspicion

/-- Warnings about ports, and no others, start with the word for a connector. -/
theorem prefix_message_iff {x : Suspicion} : "Connector '".toList <+: x.message.toList ↔
    x.kind = .reversedRange ∨ x.kind = .portOutOfRange := by
  cases x <;> unfold message <;> simp [kind]

/-- A message worded like one about ports is about ports. -/
theorem kind_of_message_eq {x y : Suspicion} (h : x.message = y.message)
    (hy : y.kind = .reversedRange ∨ y.kind = .portOutOfRange) :
    x.kind = .reversedRange ∨ x.kind = .portOutOfRange := by
  rw [← prefix_message_iff] at hy ⊢
  rwa [h]

section Words

variable {ref ref' : ConnectorRef}

/-- A name may be any text, so a warning is taken apart from its end. -/
theorem message_portOutOfRange_inj {n n' : Int}
    (h : (portOutOfRange ref n).message = (portOutOfRange ref' n').message) :
    ref.dotted = ref'.dotted ∧ n = n' := by
  have hsplit : ∀ (label : String) (n : Int),
      label.toList ++ ("' uses port ".toList ++ (toString n).toList)
        = (label.toList ++ "' uses port".toList) ++ ' ' :: (toString n).toList := by
    intro label n
    simp
  have hchars := congrArg String.toList ((String.append_left_inj _).1 h)
  simp only [String.toList_append, List.append_assoc] at hchars
  have hcut := List.append_cancel_left hchars
  rw [hsplit, hsplit] at hcut
  obtain ⟨hlabel, hnumber⟩ := append_cons_inj_last (not_mem_toString rfl (by decide) n)
    (not_mem_toString rfl (by decide) n') hcut
  exact ⟨String.toList_injective (List.append_cancel_right hlabel), toString_inj hnumber⟩

/-- A range as it is written. -/
def span (first last : Int) : List Char := (toString first).toList ++ '-' :: (toString last).toList

/-- A range is written without a blank, so the last blank of a message is in front of it. -/
theorem blank_not_mem_span (first last : Int) : ' ' ∉ span first last := by
  intro hblank
  rcases List.mem_append.1 hblank with hblank | hblank
  · exact not_mem_toString rfl (by decide) first hblank
  · have hlast := List.mem_of_ne_of_mem (by decide) hblank
    exact not_mem_toString rfl (by decide) last hlast

/-- The message about a reversed range, cut at its last blank. -/
theorem toList_message_reversedRange (ref : ConnectorRef) (first last : Int) :
    (reversedRange ref first last).message.toList
      = ("Connector '".toList ++ ref.dotted.toList ++ "' has reversed port range".toList) ++
        ' ' :: (span first last ++ ['.']) := by
  unfold message span
  simp

/-- A message about a reversed range tells the connector and the range. -/
theorem message_reversedRange_inj {first last first' last' : Int}
    (h : (reversedRange ref first last).message = (reversedRange ref' first' last').message) :
    ref.dotted = ref'.dotted ∧ first = first' ∧ last = last' := by
  have hchars := congrArg String.toList h
  rw [toList_message_reversedRange, toList_message_reversedRange] at hchars
  obtain ⟨hlabel, hspan⟩ := append_cons_inj_last (by simp [blank_not_mem_span])
    (by simp [blank_not_mem_span]) hchars
  have hname := List.append_cancel_left (List.append_cancel_right hlabel)
  exact ⟨String.toList_injective hname, toString_dash_inj (List.append_cancel_right hspan)⟩

/-- The two warnings about ports differ in the word before the last blank. -/
theorem message_portOutOfRange_ne {n first last : Int} :
    (portOutOfRange ref n).message ≠ (reversedRange ref' first last).message := by
  intro h
  have hstray : (portOutOfRange ref n).message.toList
      = ("Connector '".toList ++ ref.dotted.toList ++ "' uses port ".toList ++
        (toString n).toList ++ " outside".toList) ++ ' ' :: "0-65535.".toList := by
    unfold message
    simp
  have hchars := congrArg String.toList h
  rw [hstray, toList_message_reversedRange] at hchars
  obtain ⟨hwords, -⟩ := append_cons_inj_last (by simp) (by simp [blank_not_mem_span]) hchars
  have hturned := congrArg List.reverse hwords
  simp at hturned

end Words

/-- A warning has the words of a number out of range exactly if it is about that number, and about
a connector whose name reads the same. -/
theorem message_eq_portOutOfRange_iff {x : Suspicion} {ref : ConnectorRef} {n : Int} :
    x.message = (portOutOfRange ref n).message ↔
      ∃ ref', x = portOutOfRange ref' n ∧ ref'.dotted = ref.dotted := by
  constructor
  · intro h
    have hkind := kind_of_message_eq h (.inr rfl)
    cases x with
    | portOutOfRange ref' n' =>
        obtain ⟨hlabel, rfl⟩ := message_portOutOfRange_inj h
        exact ⟨ref', rfl, hlabel⟩
    | reversedRange ref' first last => exact (message_portOutOfRange_ne h.symm).elim
    | _ => simp [kind] at hkind
  · rintro ⟨ref', rfl, hlabel⟩
    unfold message
    simp only [hlabel]

/-- A warning has the words of a reversed range exactly if it is about that range, and about a
connector whose name reads the same. -/
theorem message_eq_reversedRange_iff {x : Suspicion} {ref : ConnectorRef} {first last : Int} :
    x.message = (reversedRange ref first last).message ↔
      ∃ ref', x = reversedRange ref' first last ∧ ref'.dotted = ref.dotted := by
  constructor
  · intro h
    have hkind := kind_of_message_eq h (.inl rfl)
    cases x with
    | portOutOfRange ref' n => exact (message_portOutOfRange_ne h).elim
    | reversedRange ref' first' last' =>
        obtain ⟨hlabel, rfl, rfl⟩ := message_reversedRange_inj h
        exact ⟨ref', rfl, hlabel⟩
    | _ => simp [kind] at hkind
  · rintro ⟨ref', rfl, hlabel⟩
    unfold message
    simp only [hlabel]

/-- The use of a number that is told to be out of range. -/
def strayPort? : Suspicion → Option (ConnectorRef × Int)
  | portOutOfRange ref n => some (ref, n)
  | _ => none

/-- The range that is told to be reversed. -/
def reversed? : Suspicion → Option (ConnectorRef × Ports)
  | reversedRange ref first last => some (ref, .range first last)
  | _ => none

end Suspicion

-- ============================================================== one declaration

namespace Ports

variable (ports : Ports) (ref : ConnectorRef)

/-- Of the ports that are out of range, those that are too large are suspected. -/
theorem strayPorts_suspicions : (ports.suspicions ref).filterMap Suspicion.strayPort?
    = (ports.numbers.map fun n => (ref, n)).filter (65535 < ·.2) := by
  have hnone : (ports.reversal ref).filterMap Suspicion.strayPort? = [] := by
    apply List.filterMap_eq_nil_iff.2
    intro x hx
    obtain ⟨first, last, -, -, rfl⟩ := mem_reversal hx
    rfl
  rw [suspicions_eq, List.filterMap_append, hnone, List.filterMap_map, List.filter_map]
  exact congrFun List.filterMap_eq_map _

/-- Ports are suspected once of being a reversed range if they are one. -/
theorem reversed_suspicions : (ports.suspicions ref).filterMap Suspicion.reversed?
    = [(ref, ports)].filter (·.2.Reversed) := by
  have hnone : ((ports.numbers.filter (65535 < ·)).map (Suspicion.portOutOfRange ref)).filterMap
      Suspicion.reversed? = [] := by
    rw [List.filterMap_map]
    exact List.filterMap_eq_nil_iff.2 fun _ _ => rfl
  rw [suspicions_eq, List.filterMap_append, hnone, List.append_nil]
  cases ports with
  | single port => rfl
  | range first last =>
      have hdecide : decide (range first last).Reversed = decide (last < first) := rfl
      by_cases hreversed : last < first <;>
        simp [reversal, hreversed, hdecide, Suspicion.reversed?]

end Ports

namespace Document

-- ================================================================ occurrences

section Occurrences

variable (d : Document)

/-- Single ports and ranges with their connectors, as often as they are declared. -/
def portSpecs : List (ConnectorRef × Ports) :=
  d.nodeClasses.flatMap fun c => c.connectors.flatMap fun k =>
    k.ports.map fun spec => (⟨c.name, k.name⟩, spec.ports)

/-- Single ports and ends of ranges with their connectors, as often as they are declared. -/
def portUses : List (ConnectorRef × Int) :=
  d.portSpecs.flatMap fun s => s.2.numbers.map fun n => (s.1, n)

end Occurrences

variable {d : Document}

/-- A number of a document is used by some connector. -/
theorem mem_portNumbers_iff {n : Int} : n ∈ d.portNumbers ↔ ∃ ref, (ref, n) ∈ d.portUses := by
  have huses : d.portUses.map (·.2) = d.portNumbers := by
    unfold portUses portSpecs portNumbers
    simp only [List.map_flatMap, List.flatMap_assoc, List.flatMap_map, List.map_map,
      Function.comp_def, List.map_id']
  rw [← huses]
  simp

/-- Ports are suspected one after the other. -/
theorem doubtfulPorts_eq :
    d.doubtfulPorts = d.portSpecs.flatMap fun s => s.2.suspicions s.1 := by
  unfold doubtfulPorts portSpecs
  simp only [List.flatMap_assoc, List.flatMap_map]

/-- Ports that are too large are suspected use by use, in order. -/
theorem strayPorts_doubtful :
    d.doubtfulPorts.filterMap Suspicion.strayPort? = d.portUses.filter (65535 < ·.2) := by
  unfold portUses
  rw [doubtfulPorts_eq, List.filterMap_flatMap, List.filter_flatMap]
  simp only [Ports.strayPorts_suspicions]

/-- Reversed ranges are suspected in order. -/
theorem reversed_doubtful :
    d.doubtfulPorts.filterMap Suspicion.reversed? = d.portSpecs.filter (·.2.Reversed) := by
  have hsingly : d.portSpecs = d.portSpecs.flatMap fun s => [s] :=
    (List.flatMap_singleton' _).symm
  rw [doubtfulPorts_eq, List.filterMap_flatMap]
  conv => rhs; rw [hsingly, List.filter_flatMap]
  simp only [Ports.reversed_suspicions]

-- =========================================================== parts of a check

/-- Links are suspected of either end. -/
theorem kind_of_misdirected {x : Suspicion} (hx : x ∈ d.misdirectedLinks) :
    x.kind = .linkFromServer ∨ x.kind = .linkToClient := by
  obtain ⟨l, -, hx⟩ := List.mem_flatMap.1 hx
  rcases List.mem_append.1 hx with hx | hx <;> split at hx
  · cases List.mem_singleton.1 hx
    exact .inl rfl
  · cases hx
  · cases List.mem_singleton.1 hx
    exact .inr rfl
  · cases hx

/-- Addresses are those of instances and translations. -/
theorem kind_of_address {item : String × Suspicion} (h : item ∈ d.addresses) :
    item.2.kind = .instanceAddress ∨ item.2.kind = .translationAddress := by
  rcases List.mem_append.1 h with h | h
  · obtain ⟨e, -, he⟩ := List.mem_filterMap.1 h
    obtain ⟨a, -, rfl⟩ := Option.map_eq_some_iff.1 he
    exact .inl rfl
  · obtain ⟨t, -, ht⟩ := List.mem_flatMap.1 h
    rcases List.mem_pair.1 ht with rfl | rfl <;> exact .inr rfl

/-- A connection is suspected of nothing but being unpermitted. -/
theorem kind_of_unpermitted {x : Suspicion} (hx : x ∈ d.unpermittedConnections) :
    x.kind = .unpermitted := by
  unfold unpermittedConnections at hx
  split at hx
  · cases hx
  obtain ⟨c, -, hc⟩ := List.mem_filterMap.1 hx
  split at hc
  · split at hc
    · cases hc
    · cases hc
      rfl
  · cases hc

/-- What can be told of ports only, is told in one part of a check. -/
theorem filterMap_of_check {β : Type} {f : Suspicion → Option β} {r : Report}
    (hr : d.check = .ok r)
    (hf : ∀ x, x.kind ≠ .reversedRange → x.kind ≠ .portOutOfRange → f x = none) :
    r.suspicions.filterMap f = d.doubtfulPorts.filterMap f := by
  obtain ⟨doubtful, hdoubtful, rfl⟩ := exists_of_check hr
  have hlinks : d.misdirectedLinks.filterMap f = [] := by
    apply List.filterMap_eq_nil_iff.2
    intro x hx
    rcases kind_of_misdirected hx with hkind | hkind <;> apply hf <;> simp [hkind]
  have haddresses : doubtful.filterMap f = [] := by
    apply List.filterMap_eq_nil_iff.2
    intro x hx
    obtain ⟨item, hitem, rfl⟩ := exists_item_of_suspectAddresses hdoubtful x hx
    rcases kind_of_address hitem with hkind | hkind <;> apply hf <;> simp [hkind]
  have hconnections : d.unpermittedConnections.filterMap f = [] := by
    apply List.filterMap_eq_nil_iff.2
    intro x hx
    apply hf <;> simp [kind_of_unpermitted hx]
  simp only [List.filterMap_append, hlinks, haddresses, hconnections, List.nil_append,
    List.append_nil]

section Check

variable {r : Report} (hr : d.check = .ok r)
include hr

/-- The numbers that a check tells to be out of range, in order. -/
theorem strayPorts_of_check :
    r.suspicions.filterMap Suspicion.strayPort? = d.portUses.filter (65535 < ·.2) := by
  rw [filterMap_of_check hr, strayPorts_doubtful]
  intro x _ hx
  cases x with
  | portOutOfRange ref n => exact absurd rfl hx
  | _ => rfl

/-- The ranges that a check tells to be reversed, in order. -/
theorem reversed_of_check :
    r.suspicions.filterMap Suspicion.reversed? = d.portSpecs.filter (·.2.Reversed) := by
  rw [filterMap_of_check hr, reversed_doubtful]
  intro x hx _
  cases x with
  | reversedRange ref first last => exact absurd rfl hx
  | _ => rfl

end Check

-- ================================================================ counting

/-- Where a condition depends on what is counted, it holds for all that is counted or for none. -/
theorem countP_filter_eq_ite {α : Type} {p q : α → Bool} {b : Prop} [Decidable b] {l : List α}
    (h : ∀ a, p a = true → (q a = true ↔ b)) :
    (l.filter q).countP p = if b then l.countP p else 0 := by
  rw [List.countP_filter]
  by_cases hb : b
  · rw [if_pos hb]
    refine List.countP_congr fun a _ => ?_
    rw [Bool.and_eq_true, and_iff_left_iff_imp]
    exact fun hp => (h a hp).2 hb
  · rw [if_neg hb]
    refine List.countP_eq_zero.2 fun a _ => ?_
    rw [Bool.and_eq_true, not_and]
    exact fun hp hq => hb ((h a hp).1 hq)

/-- If findings of a kind are certain occurrences, and only findings about some of these have a
wording, then the wording is told for each of them. -/
theorem count_warnings {β : Type} {f : Suspicion → Option β} {p q : β → Bool} {uses : List β}
    {b : Prop} [Decidable b] {r : Report} {m : String}
    (hfound : r.suspicions.filterMap f = uses.filter q)
    (hwords : ∀ x : Suspicion, x.message = m ↔ ∃ u ∈ f x, p u = true)
    (hq : ∀ u, p u = true → (q u = true ↔ b)) :
    r.warnings.count m = if b then uses.countP p else 0 := by
  have htold : r.warnings.count m = (r.suspicions.filterMap f).countP p := by
    unfold Report.warnings
    rw [List.count_eq_countP, List.countP_map, List.countP_filterMap]
    refine List.countP_congr fun x _ => ?_
    rw [Function.comp_apply, beq_iff_eq, hwords]
    cases f x <;> simp
  rw [htold, hfound, countP_filter_eq_ite hq]

section Counting

variable {r : Report} (hr : d.check = .ok r) (ref : ConnectorRef)
include hr

/-- A number above the limit is told, in words, for each of its occurrences. -/
theorem count_portOutOfRange (n : Int) :
    r.warnings.count (Suspicion.portOutOfRange ref n).message =
      if 65535 < n then d.portUses.countP fun u => u.1.dotted = ref.dotted ∧ u.2 = n else 0 := by
  apply count_warnings (strayPorts_of_check hr)
  · intro x
    rw [Suspicion.message_eq_portOutOfRange_iff]
    cases x <;> simp [Suspicion.strayPort?, and_comm]
  · intro u hu
    rw [decide_eq_true_eq] at hu ⊢
    rw [hu.2]

/-- A range with its first above its last is told, in words, for each of its occurrences. -/
theorem count_reversedRange (first last : Int) :
    r.warnings.count (Suspicion.reversedRange ref first last).message =
      if last < first then
        d.portSpecs.countP fun s => s.1.dotted = ref.dotted ∧ s.2 = .range first last
      else 0 := by
  apply count_warnings (reversed_of_check hr)
  · intro x
    rw [Suspicion.message_eq_reversedRange_iff]
    cases x <;> simp [Suspicion.reversed?, and_comm]
  · intro s hs
    rw [decide_eq_true_eq] at hs ⊢
    rw [hs.2]
    exact Iff.rfl

end Counting

-- ======================================================== the range of ports

/-- Warnings tell exactly the numbers that are not from 0 to 65535, for each occurrence. -/
def TellsStrayPorts (d : Document) (warnings : List String) : Prop :=
  ∀ (ref : ConnectorRef) (n : Int), warnings.count (Suspicion.portOutOfRange ref n).message =
    if 0 ≤ n ∧ n ≤ 65535 then 0 else d.portUses.countP fun u => u.1.dotted = ref.dotted ∧ u.2 = n

/-- All ports out of range are told of exactly if none is below zero. -/
theorem tellsStrayPorts_iff {r : Report} (hr : d.check = .ok r) :
    d.TellsStrayPorts r.warnings ↔ ∀ n ∈ d.portNumbers, 0 ≤ n := by
  constructor
  · intro htells n hn
    obtain ⟨ref, huse⟩ := mem_portNumbers_iff.1 hn
    by_contra hnegative
    have hcount := htells ref n
    rw [count_portOutOfRange hr, if_neg (by omega), if_neg (by omega)] at hcount
    have hnone := List.countP_eq_zero.1 hcount.symm (ref, n) huse
    simp at hnone
  · intro hnatural ref n
    rw [count_portOutOfRange hr]
    by_cases hgreat : 65535 < n
    · rw [if_pos hgreat, if_neg (by omega)]
    · rw [if_neg hgreat]
      split
      · rfl
      · next hstray =>
        -- the number is negative, so nothing uses it
        refine (List.countP_eq_zero.2 fun u hu => ?_).symm
        have hpositive := hnatural u.2 (mem_portNumbers_iff.2 ⟨u.1, hu⟩)
        rw [decide_eq_true_eq]
        rintro ⟨-, rfl⟩
        omega

end Document

/-- Texts declare natural numbers of ports. -/
theorem portNumbers_nonneg_of_read {ε : Type} {library : Option (Library ε)}
    {path : Option String} {text : String} {d : Document}
    (hd : (read library path text).result = .ok d) : ∀ n ∈ d.portNumbers, 0 ≤ n := by
  obtain ⟨included, h⟩ := exists_gathered hd
  exact fun n hn => (h.writable.isPort n hn).1

namespace Document

/-- What a check tells of ports, of any document. It returns if no number of a port or of a place
is too long to be written, and addresses are digits with dots between them, few enough to be read.
If it returns, its warnings tell each number above 65535 and each range whose first is above its
last, for each of their occurrences, and with them no others. So they tell exactly the numbers that
are not from 0 to 65535 if and only if no port is negative, as it is with all that is read from
texts. -/
theorem port_warnings_agree_iff (d : Document) :
    ((∀ n ∈ d.portNumbers ++ d.placeNumbers, Text.Numeral.isWritable n = true) →
      (∀ a ∈ d.addresses, ∀ o ∈ octets a.1, ShortDigits o) → ∃ r, d.check = .ok r) ∧
    (∀ r, d.check = .ok r →
      (∀ ref n, r.warnings.count (Suspicion.portOutOfRange ref n).message =
        if 65535 < n then d.portUses.countP fun u => u.1.dotted = ref.dotted ∧ u.2 = n else 0) ∧
      (∀ ref first last, r.warnings.count (Suspicion.reversedRange ref first last).message =
        if last < first then
          d.portSpecs.countP fun s => s.1.dotted = ref.dotted ∧ s.2 = .range first last
        else 0) ∧
      (d.TellsStrayPorts r.warnings ↔ ∀ n ∈ d.portNumbers, 0 ≤ n)) ∧
    ∀ {ε : Type} (library : Option (Library ε)) (path : Option String) (text : String),
      (read library path text).result = .ok d → ∀ n ∈ d.portNumbers, 0 ≤ n := by
  refine ⟨check_returns, fun r hr => ?_, fun _ _ _ => portNumbers_nonneg_of_read⟩
  exact ⟨count_portOutOfRange hr, count_reversedRange hr, tellsStrayPorts_iff hr⟩

/-- A text with a range of one number, and a reversed one. -/
def bothEndsText : String := "#nodeclass A:: x (70000-70000, 9-8) #instances A a (10.0.0.1)"

/-- What it declares. -/
def bothEnds : Document where
  includes := []
  nodeClasses := [⟨"A", [⟨"x", .server, [⟨.tcp, .range 70000 70000⟩, ⟨.tcp, .range 9 8⟩],
    some ⟨1, 16⟩⟩], some ⟨1, 12⟩⟩]
  linkClasses := []
  instances := [⟨"A", [⟨"a", some "10.0.0.1", some ⟨1, 50⟩⟩], some ⟨1, 48⟩⟩]
  translations := []
  connections := []

/-- Both ends of the first range are told, and the other one for being reversed. -/
theorem bothEnds_told :
    (read (none : Option (Library Unit)) none bothEndsText).result = .ok bothEnds ∧
    ∃ r, bothEnds.check = .ok r ∧ bothEnds.TellsStrayPorts r.warnings ∧
      r.warnings.count "Connector 'A.x' uses port 70000 outside 0-65535." = 2 ∧
      r.warnings.count "Connector 'A.x' has reversed port range 9-8." = 1 := by
  have hdeclared : (Outline.ofText bothEndsText).fault = none ∧
      declaredBy bothEndsText = bothEnds := by decide +kernel
  have hread : (read (none : Option (Library Unit)) none bothEndsText).result = .ok bothEnds :=
    result_alone_ok_iff.2 ⟨hdeclared.1, hdeclared.2.symm⟩
  obtain ⟨hreturns, htold, hnatural⟩ := port_warnings_agree_iff bothEnds
  have hoctets : ∀ a ∈ bothEnds.addresses, ∀ o ∈ octets a.1,
      o.all isDigit = true ∧ o.length ≤ 2 := by decide +kernel
  have hshort : ∀ a ∈ bothEnds.addresses, ∀ o ∈ octets a.1, ShortDigits o := by
    intro a ha o ho
    obtain ⟨hdigits, hlength⟩ := hoctets a ha o ho
    exact ⟨List.all_eq_true.1 hdigits, Nat.le_trans hlength (by decide)⟩
  obtain ⟨r, hr⟩ := hreturns (by decide +kernel) hshort
  obtain ⟨hstray, hreversed, hagree⟩ := htold r hr
  refine ⟨hread, r, hr, hagree.2 (hnatural none none bothEndsText hread), ?_, ?_⟩
  · exact (hstray ⟨"A", "x"⟩ 70000).trans (by decide +kernel)
  · exact (hreversed ⟨"A", "x"⟩ 9 8).trans (by decide +kernel)

/-- A document with a negative port. -/
def negativePort : Document where
  includes := []
  nodeClasses := [⟨"A", [⟨"x", .server, [⟨.tcp, .single (-1)⟩], none⟩], none⟩]
  linkClasses := []
  instances := []
  translations := []
  connections := []

/-- Its image, without what may be left out. -/
def negativePortImage : Json :=
  .object [("node_classes", .array [.object [("kind", .text "node_class"), ("name", .text "A"),
    ("connectors", .array [.object [("name", .text "x"),
      ("ports", .array [.object [("port", .int (-1))]])]])]])]

/-- Nothing is told of it, although a connector uses a number that is not from 0 to 65535. -/
theorem negativePort_untold :
    ofJson negativePortImage = .ok negativePort ∧
    (∀ n ∈ negativePort.portNumbers ++ negativePort.placeNumbers,
      Text.Numeral.isWritable n = true) ∧ negativePort.addresses = [] ∧
    negativePort.check = .ok ⟨[], []⟩ ∧ (⟨"A", "x"⟩, -1) ∈ negativePort.portUses ∧
    ¬ negativePort.TellsStrayPorts (Report.warnings ⟨[], []⟩) := by
  have himage : ofJson negativePortImage = .ok negativePort := by decide +kernel
  have hcheck : negativePort.check = .ok ⟨[], []⟩ := by decide +kernel
  refine ⟨himage, by decide +kernel, rfl, hcheck, by decide +kernel, fun htells => ?_⟩
  have hcount := htells ⟨"A", "x"⟩ (-1)
  have huses : (negativePort.portUses.countP fun u =>
      u.1.dotted = (⟨"A", "x"⟩ : ConnectorRef).dotted ∧ u.2 = -1) = 1 := by decide +kernel
  rw [huses] at hcount
  simp [Report.warnings] at hcount

end Document

end SystemMap
