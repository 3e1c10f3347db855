/-
What is read can be used. A check, a drawing and a flowchart of a document break off only at a
number: one that cannot be read from a text, one too long to be written, or a coordinate too
large to be stored. The numbers of a document that was read come from tokens that were read,
from places in the texts, and from the count of what the texts declare. So where the numbers of
its text are short enough, and its texts fit into a memory, all three return. What the check of
such a text doubts is then counted by the causes.
-/
import SystemMap.Flowchart
import SystemMap.Proofs.Checking.Suspicions
import SystemMap.Proofs.Reading.Extent

namespace SystemMap

-- ================================================================= numbers

/-- Every number of a text is short enough to be read. -/
def ReadableNumbers (text : String) : Prop :=
  ∀ ts, scan text = .ok ts → ∀ t ∈ ts.list, t.kind = .number →
    ∃ n, Text.Numeral.read t.value = .ok n

/-- A number of a text can be read unless it has too many digits. -/
theorem exists_read_of_length_le {t : Token} (h : t.lexeme.Sound) (hk : t.kind = .number)
    (hlength : t.value.toList.length ≤ Text.Numeral.digitLimit) :
    ∃ n, Text.Numeral.read t.value = .ok n := by
  have hread := Text.Numeral.read_of_isDigits (isDigits_of_sound h hk)
  rw [String.ofList_toList, if_neg (Nat.not_lt.2 hlength)] at hread
  exact ⟨_, hread⟩

/-- No run of digits in some characters is too long. -/
def ShortRuns (cs : List Char) : Prop :=
  ∀ run, run <:+: cs → (∀ c ∈ run, isDigit c = true) → run.length ≤ Text.Numeral.digitLimit

/-- Numbers are runs of digits, so they can be read if all runs are short. -/
theorem ShortRuns.readableNumbers {text : String} (h : ShortRuns text.toList) :
    ReadableNumbers text := by
  intro ts hscan t ht hk
  have hscans := scans_of_scanFrom hscan
  have hdigits := isDigits_of_sound (hscans.sound t ht) hk
  exact exists_read_of_length_le (hscans.sound t ht) hk
    (h _ (hscans.number_infix t ht hk) hdigits.2)

-- =================================================================== memory

/-- Texts that fit into a memory together: their lengths sum up to less than a thousand bits. -/
def FitsMemory (texts : List String) : Prop := (texts.map String.length).sum.log2 < 1000

theorem lt_two_pow_of_log2 {n bits : Nat} (h : n.log2 < bits) : n < 2 ^ bits :=
  Nat.lt_of_lt_of_le Nat.lt_log2_self (Nat.pow_le_pow_right (by decide) h)

theorem log2_lt_of_le {m n bits : Nat} (h : m ≤ n) (hn : n.log2 < bits) : m.log2 < bits := by
  by_cases hm : m = 0
  · rw [hm]
    exact Nat.lt_of_le_of_lt (Nat.zero_le _) hn
  · rw [Nat.log2_lt hm]
    exact Nat.lt_of_le_of_lt h (lt_two_pow_of_log2 hn)

/-- A number can be written if it has fewer bits than may be digits. -/
theorem isWritable_of_log2 {n : Int} {k bits : Nat} (hbits : bits < Text.Numeral.digitLimit)
    (hk : k.log2 < bits) (hn : n.natAbs ≤ k + 1) : Text.Numeral.isWritable n = true := by
  unfold Text.Numeral.isWritable
  rw [decide_eq_true_eq]
  generalize Text.Numeral.digitLimit = limit at hbits ⊢
  calc n.natAbs ≤ 2 ^ bits := Nat.le_trans hn (lt_two_pow_of_log2 hk)
    _ ≤ 10 ^ bits := Nat.pow_le_pow_left (by decide) bits
    _ < 10 ^ limit := Nat.pow_lt_pow_right (by decide) hbits

/-- A port that was read is short enough to be written. -/
theorem IsPort.isWritable {n : Int} (h : IsPort n) : Text.Numeral.isWritable n = true := by
  unfold IsPort at h
  unfold Text.Numeral.isWritable
  rw [decide_eq_true_eq]
  generalize Text.Numeral.digitLimit = limit at h ⊢
  have habs : n.natAbs = n.toNat := by omega
  rw [habs]
  exact h.2

-- ================================================================ documents

/-- Ports that can be written have no sign, and not too many digits. -/
theorem Ports.Writable.isPort {ports : Ports} (h : ports.Writable) :
    ∀ n ∈ ports.numbers, IsPort n := by
  cases ports with
  | single port => simpa [numbers, Writable] using h
  | range first last => simpa [numbers, Writable] using h

/-- So are those of a document. -/
theorem Document.Writable.isPort {d : Document} (h : d.Writable) :
    ∀ n ∈ d.portNumbers, IsPort n := by
  intro n hn
  simp only [Document.portNumbers, List.mem_flatMap] at hn
  obtain ⟨c, hc, k, hk, spec, hspec, hn⟩ := hn
  exact Ports.Writable.isPort (((h.nodeClasses c hc).2 k hk).2 spec hspec) n hn

/-- So a check can tell each of them. -/
theorem Document.Writable.isWritable {d : Document} (h : d.Writable) :
    ∀ n ∈ d.portNumbers, Text.Numeral.isWritable n = true :=
  fun n hn => (h.isPort n hn).isWritable

/-- All addresses are numbers with dots. -/
theorem Document.Writable.isAddress {d : Document} (h : d.Writable) :
    ∀ a ∈ d.addresses, IsAddress a.1 := by
  intro a ha
  rcases List.mem_append.1 ha with ha | ha
  · obtain ⟨e, he, ha⟩ := List.mem_filterMap.1 ha
    obtain ⟨address, haddress, rfl⟩ := Option.map_eq_some_iff.1 ha
    obtain ⟨g, hg, he⟩ := List.mem_flatMap.1 he
    obtain ⟨entry, hentry, rfl⟩ := List.mem_map.1 he
    exact ((h.instances g hg).2.2 entry hentry).2 address haddress
  · obtain ⟨t, ht, ha⟩ := List.mem_flatMap.1 ha
    obtain ⟨-, hexternal, hinternal⟩ := h.translations t ht
    rcases List.mem_pair.1 ha with rfl | rfl
    · exact hexternal
    · exact hinternal

/-- A flowchart writes no numbers but ports. -/
theorem Document.Writable.render_returns {d : Document} (h : d.Writable) (view : View)
    (direction : Flowchart.Direction) : ∃ s, Flowchart.render d view direction = .ok s := by
  have hports : ∀ n ∈ Flowchart.numbers d view, Text.Numeral.isWritable n = true := by
    cases view with
    | schema => exact h.isWritable
    | instances => nofun
  unfold Flowchart.render
  rw [if_pos (List.all_eq_true.2 hports)]
  exact ⟨_, rfl⟩

namespace Gathered

variable {ε : Type} {library : Option (Library ε)} {text : String}
  {included : List (String × String)} {d : Document}

/-- Octets are numbers of the text, since included texts add no addresses. -/
theorem octets_readable (h : Gathered library text included d) (hnumbers : ReadableNumbers text) :
    ∀ a ∈ d.addresses, ∀ o ∈ octets a.1, ∃ n, Text.Numeral.read (String.ofList o) = .ok n := by
  intro a ha o ho
  obtain ⟨ts, hscan, hamong⟩ := octets_declaredBy (h.faultless text List.mem_cons_self)
  rw [h.addresses_eq] at ha
  obtain ⟨t, ht, hk, rfl⟩ := hamong a ha o ho
  rw [String.ofList_toList]
  exact hnumbers ts hscan t ht hk

/-- A check of what was gathered returns: octets are read, and no number is too long to be told.
-/
theorem check_returns (h : Gathered library text included d) (hnumbers : ReadableNumbers text)
    (hmemory : FitsMemory (text :: included.map (·.2))) : ∃ r, d.check = .ok r := by
  apply Document.check_returns
  · intro n hn
    rcases List.mem_append.1 hn with hn | hn
    · exact h.writable.isWritable n hn
    · exact isWritable_of_log2 (by decide) hmemory (h.placeNumbers_le hn)
  · intro a ha o ho
    obtain ⟨n, hread⟩ := h.octets_readable hnumbers a ha o ho
    exact shortDigits_of_read (h.writable.isAddress a ha o ho) hread

/-- A drawing of what was gathered returns: all coordinates are small enough to be stored. -/
theorem draw_returns (h : Gathered library text included d)
    (hmemory : FitsMemory (text :: included.map (·.2))) (view : View) :
    ∃ g, d.draw {} view = .ok g :=
  ⟨_, Document.draw_returns (log2_lt_of_le h.size_le hmemory) view⟩

/-- A flowchart of what was gathered returns. -/
theorem render_returns (h : Gathered library text included d) (view : View)
    (direction : Flowchart.Direction) : ∃ s, Flowchart.render d view direction = .ok s :=
  h.writable.render_returns view direction

end Gathered

-- ============================================================ what is doubted

/-- What a check doubts of a text without defects is counted by the causes. Whatever library the
text is read with, if no run of digits in it is too long, the check of its document returns, unless
the texts are too large for any memory. If it finds nothing wrong, it tells each cause of each kind
once and nothing else. It tells nothing of connections where there are no link classes, and
nothing of those that touch a translation. -/
theorem read_suspicions_counted {ε : Type} {library : Option (Library ε)} {path : Option String}
    {text : String} {d : Document} (hruns : ShortRuns text.toList)
    (hd : (read library path text).result = .ok d) :
    (∃ included, Gathered library text included d ∧
      (FitsMemory (text :: included.map (·.2)) → ∃ r, d.check = .ok r)) ∧
    ∀ r, d.check = .ok r → r.defects = [] →
      (∀ k, r.suspicions.countP (·.kind = k) = d.causes k) ∧
      r.suspicions.length = (Suspicion.Kind.all.map d.causes).sum ∧
      ∀ source target a b, .unpermitted source target a b ∈ r.suspicions →
        d.linkClasses ≠ [] ∧ ∀ t ∈ d.translations, t.name ≠ source ∧ t.name ≠ target := by
  obtain ⟨included, h⟩ := exists_gathered hd
  refine ⟨⟨included, h, h.check_returns hruns.readableNumbers⟩, fun r hr hdefects => ?_⟩
  have hsound : d.Sound := Document.defects_eq_nil_iff.1 (Document.defects_of_check hr ▸ hdefects)
  have hplain := h.writable.isAddress
  have hcount := hsound.countP_suspicions hplain hr
  refine ⟨hcount, ?_, fun _ _ _ _ => hsound.restricted_of_unpermitted hplain hr⟩
  rw [Suspicion.length_eq_sum]
  exact congrArg _ (List.map_congr_left fun k _ => hcount k)

/-- A text with causes of almost every kind. -/
def doubtfulText : String := "#nodeclass A:: x (70000-8) B:: *y " ++
  "#linkclass A.x -> B.y #instances A a, c (1.2) #connections a -> c"

/-- What it declares. -/
def doubtfulDocument : Document where
  includes := []
  nodeClasses := [⟨"A", [⟨"x", .server, [⟨.tcp, .range 70000 8⟩], some ⟨1, 16⟩⟩], some ⟨1, 12⟩⟩,
    ⟨"B", [⟨"y", .client, [], some ⟨1, 32⟩⟩], some ⟨1, 28⟩⟩]
  linkClasses := [⟨⟨"A", "x"⟩, ⟨"B", "y"⟩, some ⟨1, 46⟩⟩]
  instances := [⟨"A", [⟨"a", none, some ⟨1, 70⟩⟩, ⟨"c", some "1.2", some ⟨1, 73⟩⟩], some ⟨1, 68⟩⟩]
  translations := []
  connections := [⟨"a", "c", some ⟨1, 94⟩⟩]

/-- All of these are told: both ends of the link class, the range and its first port, the address,
and the connection within one class. -/
theorem doubtful_told :
    (read (none : Option (Library Unit)) none doubtfulText).result = .ok doubtfulDocument ∧
    ∃ r, doubtfulDocument.check = .ok r ∧ r.defects = [] ∧
      Suspicion.Kind.all.map doubtfulDocument.causes = [1, 1, 1, 1, 1, 0, 1] ∧
      r.suspicions.length = 6 := by
  have hdeclared : (Outline.ofText doubtfulText).fault = none ∧
      declaredBy doubtfulText = doubtfulDocument := by decide +kernel
  have hread : (read (none : Option (Library Unit)) none doubtfulText).result
      = .ok doubtfulDocument := result_alone_ok_iff.2 ⟨hdeclared.1, hdeclared.2.symm⟩
  have hruns : ShortRuns doubtfulText.toList := by
    intro run hrun _
    exact Nat.le_trans hrun.length_le (by decide +kernel)
  have hcheck : doubtfulDocument.check = .ok ⟨[], doubtfulDocument.misdirectedLinks ++
      doubtfulDocument.doubtfulPorts ++ [.instanceAddress "c" "1.2"] ++
        doubtfulDocument.unpermittedConnections⟩ := by decide +kernel
  have hcauses : Suspicion.Kind.all.map doubtfulDocument.causes = [1, 1, 1, 1, 1, 0, 1] := by
    decide +kernel
  obtain ⟨-, hlength, -⟩ := (read_suspicions_counted hruns hread).2 _ hcheck rfl
  rw [hcauses] at hlength
  exact ⟨hread, _, hcheck, rfl, hcauses, hlength⟩

end SystemMap
