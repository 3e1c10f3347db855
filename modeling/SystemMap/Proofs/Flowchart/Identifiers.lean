/-
When the identifiers of a flowchart tell what they name apart. The schema view names the frame
of a node class by the class, and the box of a connector by the class, an underscore and the
connector. Names may have underscores themselves, so names joined in this way can run into
each other: a class may be named like a connector with its class in front, and what one class
calls a connector another class, with a longer name, may leave to its own name.

In a document without defects these are the only ways in which an identifier is defined twice,
and none of them is there if no class has the name of another one and an underscore in front.
Where each identifier is defined once, both ends of each arrow lie at the connector that the
link class names.
-/
import Mathlib.Data.List.Nodup
import Mathlib.Data.List.Pairwise
import SystemMap.Flowchart
import SystemMap.Proofs.Checking.Defects
import SystemMap.Proofs.Reading.Sources

namespace SystemMap

namespace Flowchart

-- ============================================================= identifiers

/-- A name that is read is its own identifier. -/
theorem identifier_of_isName {name : String} (h : IsName name) : identifier name = name := by
  obtain ⟨c, cs, hname, hstart, hpart⟩ := h.1
  have hchars : ∀ d ∈ name.toList, isIdentifierChar d = true := by
    intro d hd
    have hd : isWordPart d = true := by
      rw [hname] at hd
      rcases List.mem_cons.1 hd with rfl | hd
      · exact isWordPart_of_isWordStart hstart
      · exact hpart d hd
    unfold isWordPart isWordStart isDigit at hd
    unfold isIdentifierChar
    grind
  unfold identifier
  rw [List.map_congr_left fun d hd => if_pos (hchars d hd), List.map_id', String.ofList_toList]

/-- Two pairs of names that come to one when they are joined are equal in front, or the longer
name in front has what the shorter one leaves to the name behind. -/
theorem join_eq_join {a b k l : String} (h : a ++ "_" ++ k = b ++ "_" ++ l) : a = b ∨
    (∃ part, b = a ++ "_" ++ part ∧ k = part ++ "_" ++ l) ∨
    (∃ part, a = b ++ "_" ++ part ∧ l = part ++ "_" ++ k) := by
  have hchars : a.toList ++ '_' :: k.toList = b.toList ++ '_' :: l.toList := by
    simpa [String.toList_append] using congrArg String.toList h
  have hsplit : ∀ {a b k l : String} (mid : List Char), b.toList = a.toList ++ mid →
      '_' :: k.toList = mid ++ '_' :: l.toList →
      a = b ∨ ∃ part, b = a ++ "_" ++ part ∧ k = part ++ "_" ++ l := by
    intro a b k l mid hb hk
    cases mid with
    | nil => exact .inl (String.toList_injective (by simp [hb]))
    | cons c part =>
        have hsign : '_' = c := (List.cons.inj hk).1
        have htail : k.toList = part ++ '_' :: l.toList := (List.cons.inj hk).2
        subst hsign
        refine .inr ⟨String.ofList part, ?_, ?_⟩
        · exact String.toList_injective (by simp [hb])
        · exact String.toList_injective (by simp [htail])
  rcases List.append_eq_append_iff.1 hchars with ⟨mid, hb, hk⟩ | ⟨mid, ha, hl⟩
  · rcases hsplit mid hb hk with heq | hlonger
    · exact .inl heq
    · exact .inr (.inl hlonger)
  · rcases hsplit mid ha hl with heq | hlonger
    · exact .inl heq.symm
    · exact .inr (.inr hlonger)

/-- Joining a name to another one makes it longer. -/
theorem join_ne (a k : String) : a ++ "_" ++ k ≠ a := by
  intro h
  have hlength := congrArg (·.toList.length) h
  simp only [String.toList_append, List.length_append] at hlength
  have hsign : "_".toList.length = 1 := rfl
  omega

/-- Names that are joined to the same one differ as they did. -/
theorem join_inj {a k l : String} (h : a ++ "_" ++ k = a ++ "_" ++ l) : k = l := by
  have hchars := congrArg String.toList h
  simp only [String.toList_append, List.append_right_inj] at hchars
  exact String.toList_injective hchars

-- ============================================================= definitions

/-- What an identifier is defined for: a node class, or a connector of it. -/
structure Definition where
  id : String
  nodeClass : NodeClass
  connector : Option Connector
deriving DecidableEq

/-- The line of a definition. -/
def Definition.line (x : Definition) : String :=
  match x.connector with
  | none => "    subgraph " ++ x.id ++ "[" ++ x.nodeClass.name ++ "]"
  | some k => boxLine "        " x.id (connectorLabel k)

/-- A definition is that of the box of a connector. -/
def Definition.IsBoxOf (x : Definition) (ref : ConnectorRef) : Prop :=
  x.nodeClass.name = ref.nodeClass ∧ x.connector.map (·.name) = some ref.connector

/-- The definitions that a node class makes. -/
def definitionsOf (c : NodeClass) : List Definition :=
  ⟨identifier c.name, c, none⟩ ::
    c.connectors.map fun k => ⟨connectorId c.name k.name, c, some k⟩

/-- The definitions of the schema view, in order. -/
def definitions (d : Document) : List Definition := d.nodeClasses.flatMap definitionsOf

/-- The lines of a frame are the lines of its definitions and one that closes it. -/
theorem classLines_eq (c : NodeClass) :
    classLines c = (definitionsOf c).map Definition.line ++ ["    end"] := by
  unfold classLines definitionsOf
  rw [List.map_cons, List.map_map]
  rfl

/-- The schema view writes its definitions, a frame at a time, and then its arrows. -/
theorem lines_schema (d : Document) :
    lines d .schema =
      (d.nodeClasses.flatMap fun c => (definitionsOf c).map Definition.line ++ ["    end"]) ++
        d.linkClasses.map linkLine := by
  unfold lines
  rw [funext classLines_eq]

-- ====================================================== when they are unique

/-- No names of node classes run into names of connectors where they are joined. -/
structure Unambiguous (d : Document) : Prop where
  /-- No class is named like a connector with its class in front. -/
  frames : ∀ a ∈ d.nodeClasses, ∀ k ∈ a.connectors, ∀ b ∈ d.nodeClasses,
    b.name ≠ a.name ++ "_" ++ k.name
  /-- No connector of a class has in its name what leads from there to a connector of a
  class with a longer name. -/
  boxes : ∀ a ∈ d.nodeClasses, ∀ b ∈ d.nodeClasses, ∀ part, b.name = a.name ++ "_" ++ part →
    ∀ k ∈ a.connectors, ∀ l ∈ b.connectors, k.name ≠ part ++ "_" ++ l.name

/-- Classes none of which has the name of another one and an underscore in front. -/
theorem unambiguous_of_apart {d : Document}
    (h : ∀ a ∈ d.nodeClasses, ∀ b ∈ d.nodeClasses, ∀ part, b.name ≠ a.name ++ "_" ++ part) :
    Unambiguous d where
  frames := fun a ha _ _ b hb => h a ha b hb _
  boxes := fun a ha b hb part hpart => absurd hpart (h a ha b hb part)

section Unique

variable {d : Document}

/-- The identifiers of a class that is read. -/
theorem ids_definitionsOf {c : NodeClass} (hc : c.Writable) :
    (definitionsOf c).map (·.id) =
      c.name :: c.connectors.map fun k => c.name ++ "_" ++ k.name := by
  unfold definitionsOf
  rw [List.map_cons, List.map_map, identifier_of_isName hc.1]
  refine congrArg _ (List.map_congr_left fun k hk => ?_)
  show connectorId c.name k.name = _
  unfold connectorId
  rw [identifier_of_isName hc.1, identifier_of_isName (hc.2 k hk).1]

/-- One class defines no identifier twice if no two of its connectors have one name. -/
theorem nodup_ids_definitionsOf {c : NodeClass} (hc : c.Writable)
    (hnames : (c.connectors.map (·.name)).Nodup) : ((definitionsOf c).map (·.id)).Nodup := by
  rw [ids_definitionsOf hc]
  refine List.nodup_cons.2 ⟨?_, ?_⟩
  · intro hmem
    obtain ⟨k, -, hk⟩ := List.mem_map.1 hmem
    exact join_ne c.name k.name hk
  · have hjoined : c.connectors.map (fun k => c.name ++ "_" ++ k.name)
        = (c.connectors.map (·.name)).map (c.name ++ "_" ++ ·) := by
      rw [List.map_map]
      rfl
    rw [hjoined]
    exact hnames.map fun k l h => join_inj h

/-- Classes of different names define different identifiers, if no names run into each
other. -/
theorem Unambiguous.disjoint (h : Unambiguous d) (hwritable : d.Writable) {a b : NodeClass}
    (ha : a ∈ d.nodeClasses) (hb : b ∈ d.nodeClasses) (hne : a.name ≠ b.name) :
    ((definitionsOf a).map (·.id)).Disjoint ((definitionsOf b).map (·.id)) := by
  rw [ids_definitionsOf (hwritable.nodeClasses a ha),
    ids_definitionsOf (hwritable.nodeClasses b hb), List.disjoint_left]
  intro id hida hidb
  rcases List.mem_cons.1 hida with rfl | hida
  · rcases List.mem_cons.1 hidb with heq | hidb
    · exact hne heq
    · obtain ⟨l, hl, heq⟩ := List.mem_map.1 hidb
      exact h.frames b hb l hl a ha heq.symm
  · obtain ⟨k, hk, rfl⟩ := List.mem_map.1 hida
    rcases List.mem_cons.1 hidb with heq | hidb
    · exact h.frames a ha k hk b hb heq.symm
    · obtain ⟨l, hl, heq⟩ := List.mem_map.1 hidb
      rcases join_eq_join heq.symm with heq | ⟨part, hname, hk'⟩ | ⟨part, hname, hl'⟩
      · exact hne heq
      · exact h.boxes a ha b hb part hname k hk l hl hk'
      · exact h.boxes b hb a ha part hname l hl k hk hl'

/-- In a document without defects, each identifier is defined once exactly if no names run
into each other. -/
theorem nodup_ids_iff (hwritable : d.Writable) (hsound : d.Sound) :
    ((definitions d).map (·.id)).Nodup ↔ Unambiguous d := by
  unfold definitions
  rw [List.map_flatMap, List.nodup_flatMap]
  constructor
  · rintro ⟨-, hpairs⟩
    have : Std.Symm (Function.onFun List.Disjoint fun c => (definitionsOf c).map (·.id)) :=
      ⟨fun _ _ h => h.symm⟩
    -- an identifier of two classes shows that they are one
    have hone : ∀ a ∈ d.nodeClasses, ∀ b ∈ d.nodeClasses, ∀ id,
        id ∈ (definitionsOf a).map (·.id) → id ∈ (definitionsOf b).map (·.id) → a = b := by
      intro a ha b hb id hida hidb
      by_contra hne
      exact hpairs.forall ha hb hne hida hidb
    have hids := fun c hc => ids_definitionsOf (hwritable.nodeClasses c hc)
    constructor
    · intro a ha k hk b hb heq
      have hab := hone a ha b hb b.name
        (by rw [hids a ha, heq]; exact List.mem_cons_of_mem _ (List.mem_map_of_mem hk))
        (by rw [hids b hb]; exact List.mem_cons_self)
      subst hab
      exact join_ne _ _ heq.symm
    · intro a ha b hb part hname k hk l hl heq
      have hjoined : a.name ++ "_" ++ k.name = b.name ++ "_" ++ l.name := by
        rw [hname, heq]
        simp only [String.append_assoc]
      have hab := hone a ha b hb (a.name ++ "_" ++ k.name)
        (by rw [hids a ha]; exact List.mem_cons_of_mem _ (List.mem_map_of_mem hk))
        (by rw [hids b hb, hjoined]; exact List.mem_cons_of_mem _ (List.mem_map_of_mem hl))
      subst hab
      exact join_ne _ _ hname.symm
  · intro h
    refine ⟨fun c hc => ?_, ?_⟩
    · exact nodup_ids_definitionsOf (hwritable.nodeClasses c hc) (hsound.connectors c hc)
    · have hnames := List.pairwise_map.1 hsound.classes
      exact hnames.imp_of_mem fun ha hb hne => h.disjoint hwritable ha hb hne

/-- Where each identifier is defined once, a reference to a connector finds its box and
nothing else. -/
theorem exists_only_definition (hids : ((definitions d).map (·.id)).Nodup) {ref : ConnectorRef}
    (href : d.HasConnector ref) :
    ∃ x : Definition, x.id = connectorId ref.nodeClass ref.connector ∧
      (definitions d).filter (·.id = x.id) = [x] ∧ x.IsBoxOf ref := by
  obtain ⟨c, hc, hname, k, hk, hconnector⟩ := href
  let x : Definition := ⟨connectorId c.name k.name, c, some k⟩
  have hmem : x ∈ definitions d :=
    List.mem_flatMap.2 ⟨c, hc, List.mem_cons_of_mem _ (List.mem_map_of_mem hk)⟩
  exact ⟨x, by rw [← hname, ← hconnector], filter_eq_singleton hids hmem, hname,
    congrArg some hconnector⟩

end Unique

/-- In the schema view of a document that was read and is without defects, the identifiers
that its frames write are defined once each exactly if no names run into each other; so they
are if no class has the name of another one and an underscore in front. Then both ends of each
arrow lie at one connector, the one that its link class names. -/
theorem identifiers_unique_iff {ε : Type} {library : Option (Library ε)} {path : Option String}
    {text : String} {d : Document} {r : Report} (hread : (read library path text).result = .ok d)
    (hcheck : d.check = .ok r) (hnone : r.defects = []) :
    lines d .schema =
      (d.nodeClasses.flatMap fun c => (definitionsOf c).map Definition.line ++ ["    end"]) ++
        d.linkClasses.map linkLine ∧
    (((definitions d).map (·.id)).Nodup ↔ Unambiguous d) ∧
    ((∀ a ∈ d.nodeClasses, ∀ b ∈ d.nodeClasses, ∀ part, b.name ≠ a.name ++ "_" ++ part) →
      Unambiguous d) ∧
    (Unambiguous d → ∀ l ∈ d.linkClasses, ∃ source target : Definition,
      linkLine l = arrowLine source.id target.id ∧
      (definitions d).filter (·.id = source.id) = [source] ∧ source.IsBoxOf l.source ∧
      (definitions d).filter (·.id = target.id) = [target] ∧ target.IsBoxOf l.target) := by
  obtain ⟨included, hgathered⟩ := exists_gathered hread
  have hsound : d.Sound := by
    apply Document.defects_eq_nil_iff.1
    rw [← Document.defects_of_check hcheck, hnone]
  have hiff := nodup_ids_iff hgathered.writable hsound
  refine ⟨lines_schema d, hiff, unambiguous_of_apart, fun h l hl => ?_⟩
  obtain ⟨source, hsource, hsourceOnly, hsourceBox⟩ :=
    exists_only_definition (hiff.2 h) (hsound.links l hl).1
  obtain ⟨target, htarget, htargetOnly, htargetBox⟩ :=
    exists_only_definition (hiff.2 h) (hsound.links l hl).2
  refine ⟨source, target, ?_, hsourceOnly, hsourceBox, htargetOnly, htargetBox⟩
  rw [hsource, htarget]
  rfl

/-- A class whose name starts with that of another one, and their identifiers all the same
distinct. -/
def upstream : String := "#nodeclass web:: *up web_api:: http #linkclass web.up -> web_api.http"

/-- The arrow of this view lies at one connector with either end. -/
theorem upstream_arrow_found : ∃ d r,
    (read (none : Option (Library Library.UnknownPath)) none upstream).result = .ok d ∧
    d.check = .ok r ∧ r.defects = [] ∧ d.linkClasses.length = 1 ∧
    ∀ l ∈ d.linkClasses, ∃ source target : Definition,
      linkLine l = arrowLine source.id target.id ∧
      (definitions d).filter (·.id = source.id) = [source] ∧ source.IsBoxOf l.source ∧
      (definitions d).filter (·.id = target.id) = [target] ∧ target.IsBoxOf l.target := by
  have hread : (read (none : Option (Library Library.UnknownPath)) none upstream).result
      = .ok (declaredBy upstream) := result_alone_ok_iff.2 ⟨by decide +kernel, rfl⟩
  have hcheck : (declaredBy upstream).check = .ok ⟨[], []⟩ := by decide +kernel
  have hids : ((definitions (declaredBy upstream)).map (·.id)).Nodup := by decide +kernel
  obtain ⟨-, hiff, -, harrows⟩ := identifiers_unique_iff hread hcheck rfl
  exact ⟨_, _, hread, hcheck, rfl, by decide +kernel, harrows (hiff.1 hids)⟩

/-- A class and a connector that share what joins them. -/
def runTogether : String := "#nodeclass web:: api_http web_api:: http"

/-- Without a defect, two boxes have one identifier. -/
theorem runTogether_ambiguous : ¬ ∀ text d r,
    (read (none : Option (Library Library.UnknownPath)) none text).result = .ok d →
    d.check = .ok r → r.defects = [] → ((definitions d).map (·.id)).Nodup := by
  intro h
  have hread : (read (none : Option (Library Library.UnknownPath)) none runTogether).result
      = .ok (declaredBy runTogether) := result_alone_ok_iff.2 ⟨by decide +kernel, rfl⟩
  have hcheck : (declaredBy runTogether).check = .ok ⟨[], []⟩ := by decide +kernel
  have hids := h runTogether _ _ hread hcheck rfl
  have htwice : ¬ ((definitions (declaredBy runTogether)).map (·.id)).Nodup := by decide +kernel
  exact htwice hids

end Flowchart

end SystemMap
