/-
What the instance view of a flowchart shows, it keeps: from the text of the view of a document
that was read, all instances with their addresses, all translations and all connections can be
told again, in order.

A line has four blanks, a name that is a word, and then a sign that is none of a word: a bracket
for an instance, a brace for a translation, a blank for a connection. So names, signs and what
comes after them are told apart (`line_injective`); and as no name and no address breaks a line,
the lines are told apart in the text.
-/
import SystemMap.Proofs.Flowchart.Identifiers
import SystemMap.Proofs.Reading.Returns
import SystemMap.Proofs.Text.Parts

namespace SystemMap

-- ================================================================= characters

/-- What is in pieces with separators is a separator or in a piece. -/
theorem eq_or_mem_of_mem_intercalate {sep c : Char} {pieces : List (List Char)}
    (h : c ∈ [sep].intercalate pieces) : c = sep ∨ ∃ piece ∈ pieces, c ∈ piece := by
  induction pieces with
  | nil => cases h
  | cons piece pieces ih =>
      cases pieces with
      | nil => exact .inr ⟨piece, List.mem_cons_self, by rwa [List.intercalate_singleton] at h⟩
      | cons next pieces =>
          rw [List.intercalate_cons_cons, List.mem_append, List.mem_append] at h
          rcases h with (h | h) | h
          · exact .inr ⟨piece, List.mem_cons_self, h⟩
          · exact .inl (List.mem_singleton.1 h)
          · rcases ih h with hsep | ⟨piece', hpiece', hc⟩
            · exact .inl hsep
            · exact .inr ⟨piece', List.mem_cons_of_mem _ hpiece', hc⟩

/-- A name has parts of words only. -/
theorem IsName.chars {name : String} (h : IsName name) :
    ∀ c ∈ name.toList, isWordPart c = true := by
  obtain ⟨first, later, hname, hstart, hpart⟩ := h.1
  rw [hname]
  exact List.forall_mem_cons.2 ⟨isWordPart_of_isWordStart hstart, hpart⟩

/-- A character of an address. -/
def isAddressChar (c : Char) : Bool := isDigit c || c == '.'

/-- An address has digits and dots only. -/
theorem IsAddress.chars {address : String} (h : IsAddress address) :
    ∀ c ∈ address.toList, isAddressChar c = true := by
  intro c hc
  have hsplit : ['.'].intercalate (address.toList.splitOn '.') = address.toList :=
    List.intercalate_splitOn '.'
  rw [← hsplit] at hc
  rcases eq_or_mem_of_mem_intercalate hc with rfl | ⟨octet, hoctet, hc⟩
  · rfl
  · exact Bool.or_eq_true_iff.2 (.inl ((h octet hoctet).2 c hc))

/-- An address has a digit at least. -/
theorem IsAddress.ne_empty {address : String} (h : IsAddress address) : address ≠ "" := by
  rintro rfl
  exact (h [] (by decide)).1 rfl

namespace Flowchart

-- ================================================================= lines

/-- What a line of the instance view shows. -/
inductive Shown where
  | deployed (name : String) (address : Option String)
  | translation (name external internal : String)
  | connection (source target : String)

namespace Shown

/-- The line that shows it. -/
def line : Shown → String
  | .deployed name address =>
    boxLine "    " (identifier name) (instanceLabel ⟨name, address, none⟩)
  | .translation name external internal => translationLine ⟨name, external, internal, none⟩
  | .connection source target => arrowLine (identifier source) (identifier target)

/-- Names and addresses are such as can be read. -/
def Writable : Shown → Prop
  | .deployed name address => IsName name ∧ ∀ a ∈ address, IsAddress a
  | .translation name external internal => IsName name ∧ IsAddress external ∧ IsAddress internal
  | .connection source target => IsName source ∧ IsName target

/-- The name and the address of an instance. -/
def deployed? : Shown → Option (String × Option String)
  | .deployed name address => some (name, address)
  | _ => none

/-- The name and the addresses of a translation. -/
def translation? : Shown → Option (String × String × String)
  | .translation name external internal => some (name, external, internal)
  | _ => none

/-- The ends of a connection. -/
def connection? : Shown → Option (String × String)
  | .connection source target => some (source, target)
  | _ => none

/-- The name in front. -/
def name : Shown → String
  | .deployed name _ => name
  | .translation name _ _ => name
  | .connection source _ => source

/-- The sign behind that name. -/
def sign : Shown → Char
  | .deployed .. => '['
  | .translation .. => '\x7b'
  | .connection .. => ' '

/-- What comes behind the sign. -/
def rest : Shown → List Char
  | .deployed name none => name.toList ++ [']']
  | .deployed name (some address) => name.toList ++ ("<br/>".toList ++ (address.toList ++ [']']))
  | .translation name external internal =>
    '\x7b' :: (name.toList ++ ("<br/>".toList ++ (external.toList ++ ' ' :: ("-> ".toList ++
      (internal.toList ++ "\x7d\x7d".toList)))))
  | .connection _ target => "--> ".toList ++ target.toList

section Line

variable {a b : Shown}

/-- Whatever a line shows bears a name that can be written. -/
theorem Writable.name (h : a.Writable) : IsName a.name := by
  cases a with
  | deployed name address => exact h.1
  | translation name external internal => exact h.1
  | connection source target => exact h.1

/-- A line in its parts. -/
theorem toList_line (h : a.Writable) :
    a.line.toList = "    ".toList ++ (a.name.toList ++ a.sign :: a.rest) := by
  have hname := identifier_of_isName h.name
  cases a with
  | deployed name address =>
      cases address with
      | none =>
          simp only [line, boxLine, instanceLabel, show identifier name = name from hname,
            String.toList_append, List.append_assoc]
          rfl
      | some address =>
          have hlabel : instanceLabel ⟨name, some address, none⟩ = name ++ "<br/>" ++ address := by
            unfold instanceLabel
            split
            · contradiction
            · next heq => exact absurd (Option.some.inj heq) (h.2 address rfl).ne_empty
            · next heq => rw [Option.some.inj heq]
          simp only [line, boxLine, hlabel, show identifier name = name from hname,
            String.toList_append, List.append_assoc]
          rfl
  | translation name external internal =>
      simp only [line, translationLine, show identifier name = name from hname,
        String.toList_append, List.append_assoc]
      rfl
  | connection source target =>
      simp only [line, arrowLine, identifier_of_isName h.1, identifier_of_isName h.2,
        String.toList_append, List.append_assoc]
      rfl

/-- The name and what is behind its sign tell what is shown. -/
theorem eq_of_rest (ha : a.Writable) (hb : b.Writable) (hname : a.name = b.name)
    (hsign : a.sign = b.sign) (hrest : a.rest = b.rest) : a = b := by
  cases a with
  | deployed name address =>
      cases b with
      | deployed name' address' =>
          obtain rfl : name = name' := hname
          cases address with
          | none =>
              cases address' with
              | none => rfl
              | some address' => cases List.append_cancel_left hrest
          | some address =>
              cases address' with
              | none => cases List.append_cancel_left hrest
              | some address' =>
                  have haddress := List.append_cancel_right
                    (List.append_cancel_left (List.append_cancel_left hrest))
                  rw [String.toList_injective haddress]
      | translation name' external' internal' => cases hsign
      | connection source' target' => cases hsign
  | translation name external internal =>
      cases b with
      | deployed name' address' => cases hsign
      | translation name' external' internal' =>
          obtain rfl : name = name' := hname
          have haddresses :=
            List.append_cancel_left (List.append_cancel_left (List.cons.inj hrest).2)
          obtain ⟨hexternal, -, hinternal⟩ := append_cons_inj ha.2.1.chars hb.2.1.chars rfl rfl
            haddresses
          have hinternal := List.append_cancel_right (List.append_cancel_left hinternal)
          rw [String.toList_injective hexternal, String.toList_injective hinternal]
      | connection source' target' => cases hsign
  | connection source target =>
      cases b with
      | deployed name' address' => cases hsign
      | translation name' external' internal' => cases hsign
      | connection source' target' =>
          obtain rfl : source = source' := hname
          rw [String.toList_injective (List.append_cancel_left hrest)]

/-- Lines that are equal show the same. -/
theorem line_injective (ha : a.Writable) (hb : b.Writable) (h : a.line = b.line) : a = b := by
  have hchars := congrArg String.toList h
  rw [toList_line ha, toList_line hb] at hchars
  have hsigns : ∀ x : Shown, isWordPart x.sign = false := by
    intro x
    cases x <;> rfl
  obtain ⟨hname, hsign, hrest⟩ := append_cons_inj ha.name.chars hb.name.chars (hsigns a) (hsigns b)
    (List.append_cancel_left hchars)
  exact eq_of_rest ha hb (String.toList_injective hname) hsign hrest

/-- A line is one line. -/
theorem no_break_line (h : a.Writable) : '\n' ∉ a.line.toList := by
  have hword : ∀ {name : String}, IsName name → '\n' ∉ name.toList := fun hname hbreak => by
    cases hname.chars _ hbreak
  have haddress : ∀ {address : String}, IsAddress address → '\n' ∉ address.toList :=
    fun haddress hbreak => by cases haddress.chars _ hbreak
  rw [toList_line h]
  cases a with
  | deployed name address =>
      cases address with
      | none => simp [Shown.name, sign, rest, hword h.1]
      | some address => simp [Shown.name, sign, rest, hword h.1, haddress (h.2 address rfl)]
  | translation name external internal =>
      simp [Shown.name, sign, rest, hword h.1, haddress h.2.1, haddress h.2.2]
  | connection source target => simp [Shown.name, sign, rest, hword h.1, hword h.2]

end Line

end Shown

-- ==================================================================== views

/-- What the instance view of a document shows, line by line. -/
def shown (d : Document) : List Shown :=
  d.deployed.map (fun e => .deployed e.2.name e.2.address) ++
    d.translations.map (fun t => .translation t.name t.external t.internal) ++
    d.connections.map fun c => .connection c.source c.target

section Views

variable {d d' : Document}

/-- The lines of the instance view are those of what it shows. -/
theorem lines_eq_map_shown (d : Document) : lines d .instances = (shown d).map Shown.line := by
  unfold lines shown
  rw [List.map_append, List.map_append, List.map_map, List.map_map, List.map_map]
  rfl

/-- All that the view of a writable document shows can be written. -/
theorem writable_shown (h : d.Writable) : ∀ x ∈ shown d, x.Writable := by
  unfold shown
  intro x hx
  rcases List.mem_append.1 hx with hx | hx
  · rcases List.mem_append.1 hx with hx | hx
    · obtain ⟨e, he, rfl⟩ := List.mem_map.1 hx
      obtain ⟨g, hg, he⟩ := List.mem_flatMap.1 he
      obtain ⟨entry, hentry, rfl⟩ := List.mem_map.1 he
      exact (h.instances g hg).2.2 entry hentry
    · obtain ⟨t, ht, rfl⟩ := List.mem_map.1 hx
      exact h.translations t ht
  · obtain ⟨c, hc, rfl⟩ := List.mem_map.1 hx
    exact h.connections c hc

/-- Equal texts have equal lines. -/
theorem lines_eq_of_text_eq (h : d.Writable) (h' : d'.Writable) {direction : Direction}
    (htext : text d .instances direction = text d' .instances direction) :
    lines d .instances = lines d' .instances := by
  have hcut : ∀ {d : Document}, d.Writable → (text d .instances direction).toList.splitOn '\n'
      = (("flowchart " ++ direction.label) :: lines d .instances).map String.toList := by
    intro d h
    unfold text
    rw [String.toList_intercalate]
    refine List.splitOn_intercalate '\n' ?_ (List.cons_ne_nil _ _)
    refine List.forall_mem_map.2 (List.forall_mem_cons.2 ⟨by cases direction <;> decide, ?_⟩)
    rw [lines_eq_map_shown]
    exact List.forall_mem_map.2 fun x hx => Shown.no_break_line (writable_shown h x hx)
  have hlines := (hcut h).symm.trans ((congrArg (·.toList.splitOn '\n') htext).trans (hcut h'))
  have hlines := List.map_injective_iff.2 (fun _ _ => String.toList_injective) hlines
  exact (List.cons.inj hlines).2

/-- Equal lines show the same. -/
theorem shown_eq_of_lines_eq (h : d.Writable) (h' : d'.Writable)
    (hlines : lines d .instances = lines d' .instances) : shown d = shown d' := by
  rw [lines_eq_map_shown, lines_eq_map_shown] at hlines
  have hd := writable_shown h
  have hd' := writable_shown h'
  generalize shown d = as at hlines hd
  generalize shown d' = bs at hlines hd'
  induction as generalizing bs with
  | nil => exact (List.map_eq_nil_iff.1 hlines.symm).symm
  | cons a as ih =>
      cases bs with
      | nil => cases hlines
      | cons b bs =>
          obtain ⟨hline, hlater⟩ := List.cons.inj hlines
          have heq :=
            Shown.line_injective (hd a List.mem_cons_self) (hd' b List.mem_cons_self) hline
          rw [heq, ih (fun x hx => hd x (List.mem_cons_of_mem _ hx)) bs hlater
            (fun x hx => hd' x (List.mem_cons_of_mem _ hx))]

/-- The three lists of what is shown. -/
theorem filterMap_shown (d : Document) :
    (shown d).filterMap Shown.deployed? = d.deployed.map (fun e => (e.2.name, e.2.address)) ∧
    (shown d).filterMap Shown.translation?
      = d.translations.map (fun t => (t.name, t.external, t.internal)) ∧
    (shown d).filterMap Shown.connection? = d.connections.map fun c => (c.source, c.target) := by
  refine ⟨?_, ?_, ?_⟩
  · simp [shown, Function.comp_def, Shown.deployed?]
  · simp [shown, Function.comp_def, Shown.translation?]
  · simp [shown, Function.comp_def, Shown.connection?]

/-- What is shown is the same exactly if instances, translations and connections are. -/
theorem shown_eq_iff : shown d = shown d' ↔
    d.deployed.map (fun e => (e.2.name, e.2.address))
        = d'.deployed.map (fun e => (e.2.name, e.2.address)) ∧
      d.translations.map (fun t => (t.name, t.external, t.internal))
        = d'.translations.map (fun t => (t.name, t.external, t.internal)) ∧
      d.connections.map (fun c => (c.source, c.target))
        = d'.connections.map (fun c => (c.source, c.target)) := by
  obtain ⟨hdeployed, htranslations, hconnections⟩ := filterMap_shown d
  obtain ⟨hdeployed', htranslations', hconnections'⟩ := filterMap_shown d'
  constructor
  · intro h
    rw [← hdeployed, ← htranslations, ← hconnections, h]
    exact ⟨hdeployed', htranslations', hconnections'⟩
  · rintro ⟨h, h₁, h₂⟩
    have hparts : ∀ d : Document, shown d
        = (d.deployed.map fun e => (e.2.name, e.2.address)).map (fun p => .deployed p.1 p.2) ++
          (d.translations.map fun t => (t.name, t.external, t.internal)).map
            (fun p => .translation p.1 p.2.1 p.2.2) ++
          (d.connections.map fun c => (c.source, c.target)).map fun p => .connection p.1 p.2 := by
      intro d
      simp only [List.map_map]
      rfl
    rw [hparts d, hparts d', h, h₁, h₂]

end Views

/-- The instance view keeps what it shows. Documents that were read, each with a library of its
own, all have a text of the view, and the texts of two of them are equal exactly if the
documents have the same instances with the same addresses, the same translations and the same
connections, in the same order. -/
theorem render_instances_eq_iff {ε ε' : Type} {library : Option (Library ε)}
    {library' : Option (Library ε')} {path path' : Option String} {source source' : String}
    {d d' : Document} (hread : (read library path source).result = .ok d)
    (hread' : (read library' path' source').result = .ok d') (direction : Direction) :
    (∃ s, render d .instances direction = .ok s) ∧
    (render d .instances direction = render d' .instances direction ↔
      d.deployed.map (fun e => (e.2.name, e.2.address))
          = d'.deployed.map (fun e => (e.2.name, e.2.address)) ∧
        d.translations.map (fun t => (t.name, t.external, t.internal))
          = d'.translations.map (fun t => (t.name, t.external, t.internal)) ∧
        d.connections.map (fun c => (c.source, c.target))
          = d'.connections.map (fun c => (c.source, c.target))) := by
  obtain ⟨included, hgathered⟩ := exists_gathered hread
  obtain ⟨included', hgathered'⟩ := exists_gathered hread'
  have hw := hgathered.writable
  have hw' := hgathered'.writable
  refine ⟨hw.render_returns .instances direction, ?_⟩
  rw [← shown_eq_iff]
  -- no number stands in this view, so both texts are there
  have hrender : ∀ d, render d .instances direction = .ok (text d .instances direction) :=
    fun _ => rfl
  rw [hrender, hrender]
  constructor
  · intro h
    exact shown_eq_of_lines_eq hw hw' (lines_eq_of_text_eq hw hw' (Except.ok.inj h))
  · intro h
    unfold text
    rw [lines_eq_map_shown, lines_eq_map_shown, h]

/-- A deployment in two groups. -/
def apart : String := "#instances w a(10.0.0.1) w b #connections a -> b"

/-- The same in one group. -/
def together : String := "#instances w a(10.0.0.1), b #connections a -> b"

/-- Two groups of one class, and one group with the instances of both. -/
theorem apart_together_text_eq : ∃ d d',
    (read (none : Option (Library Library.UnknownPath)) none apart).result = .ok d ∧
    (read (none : Option (Library Library.UnknownPath)) none together).result = .ok d' ∧
    d.instances.length = 2 ∧ d'.instances.length = 1 ∧
    (∃ s, render d .instances .leftToRight = .ok s) ∧
    render d .instances .leftToRight = render d' .instances .leftToRight := by
  have hread : (read (none : Option (Library Library.UnknownPath)) none apart).result
      = .ok (declaredBy apart) := result_alone_ok_iff.2 ⟨by decide +kernel, rfl⟩
  have hread' : (read (none : Option (Library Library.UnknownPath)) none together).result
      = .ok (declaredBy together) := result_alone_ok_iff.2 ⟨by decide +kernel, rfl⟩
  obtain ⟨hrender, hiff⟩ := render_instances_eq_iff hread hread' .leftToRight
  refine ⟨_, _, hread, hread', ?_, ?_, hrender, hiff.2 ⟨?_, ?_, ?_⟩⟩
  all_goals decide +kernel

end Flowchart

end SystemMap
