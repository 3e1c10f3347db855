/-
Labels of connectors are source. A flowchart labels the box of a connector by a printer of its
own, which knows nothing of tokens; still what it writes is how a description writes the
connector. So labels in a row, each after blanks or comments, are read after the name of a node
class as its connectors, in order: an open list of connectors has no sign that ends one of
them, and the blanks are enough.

The text of a label is that of a layout (`text_labelInk`), and from there on the labels are read
as printed connectors are.
-/
import SystemMap.Flowchart
import SystemMap.Proofs.Reading.Frame
import SystemMap.Proofs.Reading.Returns

namespace SystemMap

open Ink (space newline named star)

-- ================================================================= layouts

/-- The text of items with a separator between them. -/
theorem Layout.text_separated {α : Type} (separator : Layout) (ink : α → Layout) (as : List α) :
    text (separated separator ink as)
      = separator.text.intercalate (as.map fun a => text (ink a)) := by
  cases as with
  | nil => rfl
  | cons a as =>
      rw [separated, text_append, List.map_cons]
      induction as generalizing a with
      | nil => simp [text]
      | cons b as ih =>
          rw [List.flatMap_cons, text_append, text_append, List.append_assoc, ih, List.map_cons,
            List.intercalate_cons_cons, List.append_assoc]

/-- A gap that is not empty bars words and numbers before it. -/
theorem Gap.barred {cs : List Char} (h : Gap cs) (hne : cs ≠ []) (tail : List Char) :
    Barred (cs ++ tail) := by
  cases h with
  | nil => exact absurd rfl hne
  | @blank c cs hc h =>
      refine barred_cons (Bool.eq_false_iff.2 fun hpart => ?_) _
      cases (isSpace_of_isWordPart hpart).symm.trans hc
  | comment hline hword h => exact barred_cons rfl _

namespace Flowchart

-- ================================================================== labels

/-- A printed connector without the space before it. -/
def labelInk (c : Connector) : Layout :=
  match c.role with
  | .server => named c.name :: portListInk c.ports
  | .client => star :: named c.name :: portListInk c.ports

/-- A connector is printed as its label, behind a blank. -/
theorem ink_eq (c : Connector) : c.ink = space :: labelInk c := by
  unfold Connector.ink labelInk
  cases c.role <;> rfl

/-- Ports are labelled as they are printed. -/
theorem text_portsInk (ports : Ports) : Layout.text ports.ink = (portsLabel ports).toList := by
  cases ports with
  | single n => exact List.append_nil _
  | range first last =>
      show _ ++ ('-' :: (_ ++ [])) = _
      rw [List.append_nil, portsLabel, String.toList_append, String.toList_append,
        List.append_assoc]
      rfl

theorem text_portInk (s : PortSpec) : Layout.text s.ink = (portLabel s).toList := by
  obtain ⟨protocol, ports⟩ := s
  cases protocol with
  | tcp => exact text_portsInk ports
  | udp =>
      show "UDP(".toList ++ Layout.text (ports.ink ++ [.rightParen]) = _
      rw [Layout.text_append, text_portsInk, portLabel, String.toList_append,
        String.toList_append, List.append_assoc]
      rfl

/-- So is a list of ports. -/
theorem text_portListInk (ports : List PortSpec) :
    Layout.text (portListInk ports) = (if ports.isEmpty then ""
      else " (" ++ ", ".intercalate (ports.map portLabel) ++ ")").toList := by
  cases ports with
  | nil => rfl
  | cons first later =>
      show " (".toList ++ Layout.text (Layout.separated [.comma, .space] PortSpec.ink
        (first :: later) ++ [.rightParen]) = (" (" ++ _ ++ ")").toList
      rw [Layout.text_append, Layout.text_separated, String.toList_append, String.toList_append,
        String.toList_intercalate, List.map_map, List.append_assoc]
      simp only [text_portInk]
      rfl

/-- The label of a connector is how a description writes it. -/
theorem text_labelInk (c : Connector) : (labelInk c).text = (connectorLabel c).toList := by
  obtain ⟨name, role, ports, position⟩ := c
  unfold connectorLabel
  rw [String.toList_append, String.toList_append, List.append_assoc, ← text_portListInk]
  cases role with
  | server => rfl
  | client => exact congrArg (· ++ _) (show ['*'] = "*".toList from rfl)

/-- A label can be told from what follows if a word ends there. -/
theorem spaced_labelInk {c : Connector} (hw : c.Writable) {tail : List Char}
    (htail : Barred tail) : Layout.Spaced (labelInk c) tail := by
  have hspaced := (Connector.spaced hw htail).1
  rw [ink_eq] at hspaced
  exact hspaced.2

-- ================================================================== source

/-- A node class, with the labels of its connectors for their source. Before each label, and
behind the last of them, stands what separates it. -/
def labelledClass (name : String) (labels : List (String × Connector)) (closing : String) :
    String :=
  "#nodeclass\n" ++ name ++ "::" ++ String.join (labels.map fun l => l.1 ++ connectorLabel l.2) ++
    closing

/-- The layout of that text. -/
def labelledInk (name : String) (labels : List (String × Connector)) (closing : String) : Layout :=
  .marker .nodeClasses :: newline :: named name :: .doubleColon ::
    (labels.flatMap (fun l => .gap l.1.toList :: labelInk l.2) ++ [.gap closing.toList])

section Labelled

variable {name closing : String} {labels : List (String × Connector)}

/-- The layout of a class with labels has the text of one. -/
theorem text_labelledInk : (labelledInk name labels closing).text
    = (labelledClass name labels closing).toList := by
  have hlabels : Layout.text (labels.flatMap fun l => .gap l.1.toList :: labelInk l.2)
      = (String.join (labels.map fun l => l.1 ++ connectorLabel l.2)).toList := by
    rw [String.toList_join, List.flatMap_map, Layout.text, List.flatMap_assoc]
    refine List.flatMap_congr fun l _ => ?_
    rw [String.toList_append, ← text_labelInk]
    rfl
  unfold labelledClass
  simp only [String.toList_append, List.append_assoc, ← hlabels]
  show "#nodeclass\n".toList ++ (name.toList ++ ("::".toList ++ Layout.text
    (labels.flatMap (fun l => .gap l.1.toList :: labelInk l.2) ++ [.gap closing.toList]))) = _
  rw [Layout.text_append, show Layout.text [.gap closing.toList] = closing.toList from
    List.append_nil _]

/-- Labels with any gaps in front, a line break or a blank at least, can be told apart. -/
theorem spaced_labelledInk (hname : IsName name) (hw : ∀ l ∈ labels, l.2.Writable)
    (hgap : ∀ l ∈ labels, Gap l.1.toList ∧ l.1 ≠ "") (hclosing : Gap closing.toList) :
    (labelledInk name labels closing).Spaced [] := by
  have hlabel : ∀ l ∈ labels, ∀ tail, Barred tail →
      Layout.Spaced (.gap l.1.toList :: labelInk l.2) tail ∧
        Barred (Layout.text (.gap l.1.toList :: labelInk l.2) ++ tail) := by
    intro l hl tail htail
    have hne : l.1.toList ≠ [] := fun h => (hgap l hl).2 (String.toList_injective h)
    refine ⟨⟨(hgap l hl).1, spaced_labelInk (hw l hl) htail⟩, ?_⟩
    show Barred ((l.1.toList ++ Layout.text (labelInk l.2)) ++ tail)
    rw [List.append_assoc]
    exact (hgap l hl).1.barred hne _
  have hend : Barred (Layout.text [.gap closing.toList] ++ []) := by
    show Barred ((closing.toList ++ []) ++ [])
    by_cases hnil : closing.toList = []
    · rw [hnil]
      exact nofun
    · rw [List.append_nil]
      exact hclosing.barred hnil []
  exact ⟨sound_marker _, barred_cons rfl _, gap_blank rfl, spaced_named hname (barred_cons rfl _)
    ⟨.doubleColon, trivial, (spaced_flatMap hlabel hend).1.append ⟨hclosing, trivial⟩⟩⟩

/-- Gaps aside, the class with labels is the printed one. -/
theorem lexemes_labelledInk : Layout.lexemes (labelledInk name labels closing)
    = [Segment.marker .nodeClasses,
        .declared (.nodeClass ⟨name, labels.map Prod.snd, none⟩)].flatMap
      fun s => Layout.lexemes s.ink := by
  have hconnectors : ∀ c : Connector, Layout.lexemes c.ink = Layout.lexemes (labelInk c) := by
    intro c
    rw [ink_eq]
    rfl
  have hclass : Layout.lexemes (NodeClass.ink ⟨name, labels.map Prod.snd, none⟩)
      = ⟨.name, name.toList⟩ :: ⟨.doubleColon, [':', ':']⟩ ::
        Layout.lexemes ((labels.map Prod.snd).flatMap Connector.ink) := rfl
  show _ :: _ :: _ :: Layout.lexemes (labels.flatMap _ ++ [.gap closing.toList])
    = _ :: (Layout.lexemes (NodeClass.ink ⟨name, labels.map Prod.snd, none⟩) ++ [])
  rw [hclass, Layout.lexemes_append, lexemes_flatMap, lexemes_flatMap, List.flatMap_map,
    List.append_nil]
  simp only [hconnectors]
  exact congrArg (_ :: _ :: _ :: ·) (List.append_nil _)

end Labelled

/-- Places do not tell directives. -/
theorem directive?_unplaced (s : Segment) :
    s.unplaced.directive? = s.directive?.map Include.unplaced := by
  cases s with
  | declared d => cases d <;> rfl
  | _ => rfl

/-- Labels are read back. A node class whose connectors can be written at all has a flowchart,
and its labels in a row, each after blanks or comments, are read after its name as just these
connectors, up to their places, whatever library there is. -/
theorem labels_read_back {ε : Type} (library : Option (Library ε)) (path : Option String)
    {name closing : String} {labels : List (String × Connector)} (hname : IsName name)
    (hw : ∀ l ∈ labels, l.2.Writable) (hgap : ∀ l ∈ labels, Gap l.1.toList ∧ l.1 ≠ "")
    (hclosing : Gap closing.toList) :
    (∀ direction, ∃ s,
      render { Document.empty with nodeClasses := [⟨name, labels.map Prod.snd, none⟩] }
        .schema direction = .ok s) ∧
    ∃ d, (read library path (labelledClass name labels closing)).result = .ok d ∧
      d.unplaced = { Document.empty with
        nodeClasses := [⟨name, labels.map fun l => l.2.unplaced, none⟩] } := by
  have hclass : NodeClass.Writable ⟨name, labels.map Prod.snd, none⟩ :=
    ⟨hname, List.forall_mem_map.2 hw⟩
  have hdocument : Document.Writable
      { Document.empty with nodeClasses := [⟨name, labels.map Prod.snd, none⟩] } :=
    ⟨nofun, List.forall_mem_singleton.2 hclass, nofun, nofun, nofun, nofun⟩
  refine ⟨hdocument.render_returns .schema, ?_⟩
  have horderly : Orderly none
      [.marker .nodeClasses, .declared (.nodeClass ⟨name, labels.map Prod.snd, none⟩)] :=
    ⟨trivial, trivial, rfl, hclass, trivial⟩
  obtain ⟨segments, houtline, hsegments⟩ := outline_of_layout horderly
    (spaced_labelledInk hname hw hgap hclosing) lexemes_labelledInk
  rw [text_labelledInk, String.ofList_toList] at houtline
  have hplain : ∀ s ∈ segments, s.directive? = none := by
    intro s hs
    have hmem : s.unplaced ∈ segments.map Segment.unplaced := List.mem_map_of_mem hs
    rw [hsegments] at hmem
    have hnone : s.unplaced.directive? = none := by
      rcases List.mem_cons.1 hmem with h | h
      · rw [h]
        rfl
      · rw [List.mem_singleton.1 h]
        rfl
    rw [directive?_unplaced] at hnone
    exact Option.map_eq_none_iff.1 hnone
  refine ⟨.ofSegments segments, ?_, ?_⟩
  · unfold read
    rw [houtline, result_of_no_directive hplain]
    exact result_alone_ok_iff.2 ⟨rfl, rfl⟩
  · rw [← ofSegments_unplaced, hsegments, ← Function.comp_def Connector.unplaced Prod.snd,
      ← List.map_map]
    rfl

/-- A client with a reversed range and a datagram port, and a server without ports on a line of
its own. -/
def querying : List (String × Connector) :=
  [(" ", ⟨"lookup", .client, [⟨.tcp, .range 90 80⟩, ⟨.udp, .single 53⟩], none⟩),
    ("\n", ⟨"log", .server, [], none⟩)]

/-- A port in range is one that can be written. -/
theorem isPort_of_le_maxPort {n : Int} (h : 0 ≤ n ∧ n ≤ maxPort) : IsPort n := by
  have hmax : n.toNat < 10 ^ 5 := by
    unfold maxPort at h
    omega
  exact ⟨h.1, Nat.lt_of_lt_of_le hmax (Nat.pow_le_pow_right (by decide) (by decide))⟩

/-- A client with a reversed range and a port of the second protocol, and a server without ports.
-/
theorem querying_read_back : IsName "C" ∧ (∀ l ∈ querying, l.2.Writable) ∧
    (∀ l ∈ querying, Gap l.1.toList ∧ l.1 ≠ "") ∧ Gap "".toList ∧
    ∃ d, (read (none : Option (Library Library.UnknownPath)) none
        "#nodeclass\nC:: *lookup (90-80, UDP(53))\nlog").result = .ok d ∧
      d.unplaced = { Document.empty with
        nodeClasses := [⟨"C", querying.map fun l => l.2.unplaced, none⟩] } := by
  have hword : ∀ c cs, isWordStart c = true → cs.all isWordPart = true → IsWord (c :: cs) :=
    fun c cs hc hcs => ⟨c, cs, rfl, hc, List.all_eq_true.1 hcs⟩
  have hname : IsName "C" := ⟨hword 'C' [] (by decide) (by decide), by decide, by decide⟩
  have hlookup : IsName "lookup" :=
    ⟨hword 'l' "ookup".toList (by decide) (by decide), by decide, by decide⟩
  have hlog : IsName "log" := ⟨hword 'l' "og".toList (by decide) (by decide), by decide, by decide⟩
  have hrange : PortSpec.ports ⟨.tcp, .range 90 80⟩ |>.Writable :=
    ⟨isPort_of_le_maxPort (by decide), isPort_of_le_maxPort (by decide)⟩
  have hsingle : PortSpec.ports ⟨.udp, .single 53⟩ |>.Writable :=
    isPort_of_le_maxPort (by decide)
  have hw : ∀ l ∈ querying, l.2.Writable := List.forall_mem_cons.2
    ⟨⟨hlookup, List.forall_mem_cons.2 ⟨hrange, List.forall_mem_singleton.2 hsingle⟩⟩,
      List.forall_mem_singleton.2 ⟨hlog, nofun⟩⟩
  have hgap : ∀ l ∈ querying, Gap l.1.toList ∧ l.1 ≠ "" := List.forall_mem_cons.2
    ⟨⟨gap_blank rfl, by decide⟩, List.forall_mem_singleton.2 ⟨gap_blank rfl, by decide⟩⟩
  have hsource : labelledClass "C" querying "" = "#nodeclass\nC:: *lookup (90-80, UDP(53))\nlog" :=
    by decide +kernel
  have hclosing : Gap "".toList := .nil
  have hread := (labels_read_back (none : Option (Library Library.UnknownPath)) none hname hw hgap
    hclosing).2
  rw [hsource] at hread
  exact ⟨hname, hw, hgap, hclosing, hread⟩

end Flowchart

end SystemMap
