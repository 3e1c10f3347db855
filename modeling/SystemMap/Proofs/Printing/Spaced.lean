/-
A printed document is scanned into its lexemes. Every lexeme of a writable document is sound,
and none runs into the next: a word or a number only ever stands before a blank or a sign
(`Barred`), and the dash between two ports only before a digit.
-/
import SystemMap.Proofs.Printing.Print

namespace SystemMap

open Layout (Spaced)

/-- What comes next makes no word and no number longer. -/
def Barred (tail : List Char) : Prop := ∀ c ∈ tail.head?, isWordPart c = false

/-- A word ends before any character that is no part of words. -/
theorem barred_cons {c : Char} (h : isWordPart c = false) (tail : List Char) :
    Barred (c :: tail) := by
  intro d hd
  cases hd
  exact h

/-- A blank is a gap. -/
theorem gap_blank {c : Char} (h : isSpace c = true) : Gap [c] := .blank h .nil

-- ================================================================ lexemes

/-- A name is a word of its own kind. -/
theorem sound_name {s : String} (h : IsName s) : Lexeme.Sound ⟨.name, s.toList⟩ := by
  have hkind : TokenKind.ofWord s.toList = .name := ofWord_eq_name_iff.2 h.2
  exact hkind ▸ .word h.1

theorem isDigits_port {n : Int} (h : IsPort n) : IsDigits (toString n).toList := by
  obtain ⟨m, rfl⟩ := Int.eq_ofNat_of_zero_le h.1
  exact Text.Numeral.isDigits_toString m

/-- A number ends where a word would. -/
theorem ends_number {w tail : List Char} (h : Barred tail) : Lexeme.Ends ⟨.number, w⟩ tail := by
  intro c hc
  refine Bool.eq_false_iff.2 fun hdigit => ?_
  cases (h c hc).symm.trans (isWordPart_of_isDigit hdigit)

theorem spaced_number {w tail : List Char} (hw : IsDigits w) (h : Barred tail) :
    Spaced [.lexeme ⟨.number, w⟩] tail := ⟨.number hw, ends_number h, trivial⟩

-- ================================================================== lists

/-- Items one after another, each of which bars what stands before it, by induction along
the items. -/
theorem spaced_flatMap {α : Type} {ink : α → Layout} {as : List α}
    (hitem : ∀ a ∈ as, ∀ tail, Barred tail →
      Spaced (ink a) tail ∧ Barred ((ink a).text ++ tail))
    {tail : List Char} (htail : Barred tail) :
    Spaced (as.flatMap ink) tail ∧ Barred (Layout.text (as.flatMap ink) ++ tail) := by
  induction as with
  | nil => exact ⟨trivial, htail⟩
  | cons a as ih =>
      obtain ⟨hlater, hbar⟩ := ih fun a ha => hitem a (List.mem_cons_of_mem _ ha)
      obtain ⟨hspaced, hbarred⟩ := hitem a List.mem_cons_self _ hbar
      rw [List.flatMap_cons]
      refine ⟨hspaced.append hlater, ?_⟩
      rw [Layout.text_append, List.append_assoc]
      exact hbarred

/-- Items with separators between them. -/
theorem spaced_separated {α : Type} {separator : Layout} {ink : α → Layout}
    (hsep : ∀ tail, Spaced separator tail) (hbar : ∀ tail, Barred (separator.text ++ tail))
    {as : List α} (hitem : ∀ a ∈ as, ∀ tail, Barred tail → Spaced (ink a) tail)
    {tail : List Char} (htail : Barred tail) :
    Spaced (Layout.separated separator ink as) tail := by
  cases as with
  | nil => trivial
  | cons a as =>
      have hlater : ∀ a' ∈ as, ∀ tail, Barred tail → Spaced (separator ++ ink a') tail ∧
          Barred (Layout.text (separator ++ ink a') ++ tail) := by
        intro a' ha tail htail
        rw [Layout.text_append, List.append_assoc]
        exact ⟨(hsep _).append (hitem a' (List.mem_cons_of_mem _ ha) _ htail), hbar _⟩
      obtain ⟨hspaced, hbarred⟩ := spaced_flatMap hlater htail
      exact (hitem a List.mem_cons_self _ hbarred).append hspaced

/-- Commas with a space after them. -/
theorem spaced_listed {α : Type} {ink : α → Layout} {as : List α}
    (hitem : ∀ a ∈ as, ∀ tail, Barred tail → Spaced (ink a) tail) {tail : List Char}
    (htail : Barred tail) :
    Spaced (Layout.separated [.comma, .space] ink as) tail := by
  have hsep : ∀ tail, Spaced [.comma, .space] tail :=
    fun _ => ⟨.sign rfl, trivial, gap_blank rfl, trivial⟩
  exact spaced_separated hsep (fun _ => barred_cons rfl _) hitem htail

-- ================================================================== ports

/-- Printed ports can be told from what follows if a word ends there. -/
theorem Ports.spaced {ports : Ports} (hw : ports.Writable) {tail : List Char}
    (htail : Barred tail) : Spaced ports.ink tail := by
  cases ports with
  | single n => exact spaced_number (isDigits_port hw) htail
  | range a b =>
      have hdigits := isDigits_port hw.2
      refine ⟨.number (isDigits_port hw.1), ends_number (barred_cons rfl _), .dash, ?_,
        spaced_number hdigits htail⟩
      obtain ⟨c, cs, hcs, hc⟩ := hdigits.exists_cons
      show ∀ d ∈ ((toString b).toList ++ [] ++ tail).head?, d ≠ '>'
      rw [hcs]
      intro d hd hsign
      cases hd
      subst hsign
      exact absurd hc (by decide)

theorem PortSpec.spaced {spec : PortSpec} (hw : spec.ports.Writable) {tail : List Char}
    (htail : Barred tail) : Spaced spec.ink tail := by
  obtain ⟨protocol, ports⟩ := spec
  cases protocol with
  | tcp => exact Ports.spaced hw htail
  | udp =>
      have hword : Lexeme.Sound ⟨.udpWord, "UDP".toList⟩ :=
        .word ⟨'U', ['D', 'P'], rfl, rfl, List.all_eq_true.1 (by decide)⟩
      exact ⟨hword, barred_cons rfl _, .sign rfl, trivial,
        (Ports.spaced hw (barred_cons rfl _)).append ⟨.sign rfl, trivial, trivial⟩⟩

/-- Behind them, too, a word ends: there is a parenthesis or what followed before. -/
theorem spaced_portList {ports : List PortSpec} (hw : ∀ s ∈ ports, s.ports.Writable)
    {tail : List Char} (htail : Barred tail) :
    Spaced (portListInk ports) tail ∧ Barred ((portListInk ports).text ++ tail) := by
  cases ports with
  | nil => exact ⟨trivial, htail⟩
  | cons spec specs =>
      refine ⟨⟨gap_blank rfl, .sign rfl, trivial, ?_⟩, barred_cons rfl _⟩
      exact (spaced_listed (fun s hs _ => PortSpec.spaced (hw s hs)) (barred_cons rfl _)).append
        ⟨.sign rfl, trivial, trivial⟩

-- ======================================================== nodes and links

/-- A name before what makes no word longer. -/
theorem spaced_named {s : String} (h : IsName s) {later : Layout} {tail : List Char}
    (hbar : Barred (later.text ++ tail)) (hlater : Spaced later tail) :
    Spaced (.named s :: later) tail := ⟨sound_name h, hbar, hlater⟩

/-- A printed connector can be told from what follows, and a word in front of it ends. -/
theorem Connector.spaced {c : Connector} (hw : c.Writable) {tail : List Char}
    (htail : Barred tail) : Spaced c.ink tail ∧ Barred (c.ink.text ++ tail) := by
  obtain ⟨name, role, ports, position⟩ := c
  obtain ⟨hports, hbar⟩ := spaced_portList hw.2 htail
  cases role with
  | server => exact ⟨⟨gap_blank rfl, spaced_named hw.1 hbar hports⟩, barred_cons rfl _⟩
  | client =>
      exact ⟨⟨gap_blank rfl, .sign rfl, trivial, spaced_named hw.1 hbar hports⟩,
        barred_cons rfl _⟩

/-- A printed node class can be told from what follows if a word ends there. -/
theorem NodeClass.spaced {c : NodeClass} (hw : c.Writable) {tail : List Char}
    (htail : Barred tail) : Spaced c.ink tail := by
  have hconnectors := spaced_flatMap (fun c hc _ => Connector.spaced (hw.2 c hc)) htail
  exact spaced_named hw.1 (barred_cons rfl _) ⟨.doubleColon, trivial, hconnectors.1⟩

/-- A reference ends with a name. -/
theorem ConnectorRef.spaced {r : ConnectorRef} (hw : r.Writable) {tail : List Char}
    (htail : Barred tail) : Spaced r.ink tail :=
  spaced_named hw.1 (barred_cons rfl _)
    ⟨.sign rfl, trivial, spaced_named hw.2 htail trivial⟩

/-- A printed link class can be told from what follows if a word ends there. -/
theorem LinkClass.spaced {l : LinkClass} (hw : l.Writable) {tail : List Char}
    (htail : Barred tail) : Spaced l.ink tail :=
  (ConnectorRef.spaced hw.1 (barred_cons rfl _)).append
    ⟨gap_blank rfl, .arrow, trivial, gap_blank rfl, ConnectorRef.spaced hw.2 htail⟩

-- =============================================== instances and addresses

/-- An address has its numbers apart by dots. -/
theorem spaced_address {address : String} (h : IsAddress address) {tail : List Char}
    (htail : Barred tail) : Spaced (addressInk address) tail := by
  have hsep : ∀ tail, Spaced [.dot] tail := fun _ => ⟨.sign rfl, trivial, trivial⟩
  exact spaced_separated hsep (fun _ => barred_cons rfl _)
    (fun o ho _ => spaced_number (h o ho)) htail

/-- An instance ends with a name or a parenthesis. -/
theorem InstanceEntry.spaced {e : InstanceEntry} (hw : e.Writable) {tail : List Char}
    (htail : Barred tail) : Spaced e.ink tail := by
  obtain ⟨name, address, position⟩ := e
  cases address with
  | none => exact spaced_named hw.1 htail trivial
  | some address =>
      exact spaced_named hw.1 (barred_cons rfl _) ⟨.sign rfl, trivial,
        (spaced_address (hw.2 _ rfl) (barred_cons rfl _)).append ⟨.sign rfl, trivial, trivial⟩⟩

/-- A printed group can be told from what follows if a word ends there. -/
theorem InstanceGroup.spaced {g : InstanceGroup} (hw : g.Writable) {tail : List Char}
    (htail : Barred tail) : Spaced g.ink tail :=
  spaced_named hw.1 (barred_cons rfl _)
    ⟨gap_blank rfl, spaced_listed (fun e he _ => InstanceEntry.spaced (hw.2.2 e he)) htail⟩

/-- A translation ends with a parenthesis, so anything may follow. -/
theorem Translation.spaced {t : Translation} (hw : t.Writable) (tail : List Char) :
    Spaced t.ink tail :=
  ⟨.sign rfl, trivial, spaced_named hw.1 (barred_cons rfl _) ⟨gap_blank rfl, .sign rfl, trivial,
    (spaced_address hw.2.1 (barred_cons rfl _)).append ⟨.sign rfl, trivial, gap_blank rfl,
      (spaced_address hw.2.2 (barred_cons rfl _)).append ⟨.sign rfl, trivial, trivial⟩⟩⟩⟩

-- ============================================== connections and includes

/-- A printed connection can be told from what follows if a word ends there. -/
theorem Connection.spaced {c : Connection} (hw : c.Writable) {tail : List Char}
    (htail : Barred tail) : Spaced c.ink tail :=
  spaced_named hw.1 (barred_cons rfl _) ⟨gap_blank rfl, .arrow, trivial, gap_blank rfl,
    spaced_named hw.2 htail trivial⟩

/-- A directive ends with a quotation mark, so anything may follow. -/
theorem Include.spaced {i : Include} (hw : i.Writable) (tail : List Char) :
    Spaced i.ink tail := by
  have hword : Lexeme.Sound ⟨.includeWord, "include".toList⟩ :=
    .word ⟨'i', "nclude".toList, rfl, rfl, List.all_eq_true.1 (by decide)⟩
  exact ⟨hword, barred_cons rfl _, gap_blank rfl, .text hw, trivial, trivial⟩

-- ================================================================== lines

/-- Each kind of declaration can be told from what follows if a word ends there. -/
theorem Declaration.spaced {d : Declaration} (hw : d.Writable) {tail : List Char}
    (htail : Barred tail) : Spaced d.ink tail := by
  cases d with
  | nodeClass c => exact NodeClass.spaced hw htail
  | linkClass l => exact LinkClass.spaced hw htail
  | instances g => exact InstanceGroup.spaced hw htail
  | translation t => exact Translation.spaced hw tail
  | connection c => exact Connection.spaced hw htail
  | directive i => exact Include.spaced hw tail

/-- The marker of a section is scanned as such. -/
theorem sound_marker (s : Section) : Lexeme.Sound ⟨.marker s, s.keyword.toList⟩ := by
  cases s <;> exact .marker (List.all_eq_true.1 (by decide)) (by decide)

/-- A printed line can be told from what follows if a word ends there. -/
theorem Segment.spaced {s : Segment} (hw : s.Writable) {tail : List Char}
    (htail : Barred tail) : Spaced s.ink tail := by
  cases s with
  | marker s => exact ⟨sound_marker s, htail, trivial⟩
  | declared d => exact Declaration.spaced hw htail
  | passed current kind position => trivial

/-- Lines of writable segments, whatever comes after them. -/
theorem spaced_lines {segments : List Segment} (hw : ∀ s ∈ segments, s.Writable)
    (tail : List Char) : Spaced (linesInk segments) tail := by
  induction segments with
  | nil => trivial
  | cons s later ih =>
      have hs := Segment.spaced (hw s List.mem_cons_self)
        (barred_cons (c := '\n') rfl (Layout.text (linesInk later) ++ tail))
      have hline : Spaced [.newline] (Layout.text (linesInk later) ++ tail) :=
        ⟨gap_blank rfl, trivial⟩
      exact (hs.append hline).append (ih fun s hs => hw s (List.mem_cons_of_mem _ hs))

end SystemMap
