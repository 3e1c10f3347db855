/-
The lexemes of a printed document, as tokens, are split into its segments again. Tokens have
positions, which printing does not keep, so what comes out of them is the construct that was
printed up to its positions.

For each construct: tokens whose lexemes are those of the construct spell it, as long as what
follows them does not go on with it. That what follows a construct of a document never does
is the point of `Orderly`: the next line starts with a marker, a directive or a construct of
the same section, and none of these goes on with anything.
-/
import SystemMap.Proofs.Printing.Print
import SystemMap.Proofs.Grammar.Shape

namespace SystemMap

open Layout (lexemes lexemes_append)

-- ================================================================ lexemes

/-- Tokens of some lexemes, cut behind the first. -/
theorem exists_of_cons {run : List Token} {l : Lexeme} {ls : List Lexeme}
    (h : run.map Token.lexeme = l :: ls) :
    ∃ t later, run = t :: later ∧ t.kind = l.kind ∧ t.value = String.ofList l.value ∧
      later.map Token.lexeme = ls := by
  obtain ⟨t, later, rfl, rfl, hlater⟩ := List.map_eq_cons_iff.1 h
  exact ⟨t, later, rfl, rfl, String.ofList_toList.symm, hlater⟩

/-- The token of a name has the name for its value. -/
theorem exists_of_named {run : List Token} {s : String} {later : Layout}
    (h : run.map Token.lexeme = lexemes (.named s :: later)) :
    ∃ t rest, run = t :: rest ∧ t.kind = .name ∧ t.value = s ∧
      rest.map Token.lexeme = lexemes later := by
  obtain ⟨t, rest, hrun, hk, hv, hrest⟩ := exists_of_cons h
  exact ⟨t, rest, hrun, hk, hv.trans String.ofList_toList, hrest⟩

/-- Gaps aside, layouts in a row have the lexemes of each in a row. -/
theorem lexemes_flatMap {α : Type} (ink : α → Layout) (as : List α) :
    lexemes (as.flatMap ink) = as.flatMap fun a => lexemes (ink a) :=
  List.filterMap_flatMap

/-- A list written with a sign between its items has that sign before each item but the first. -/
theorem lexemes_separated {α : Type} {separator : Layout} {l : Lexeme}
    (hsep : lexemes separator = [l]) (ink : α → Layout) (a : α) (as : List α) :
    lexemes (Layout.separated separator ink (a :: as))
      = lexemes (ink a) ++ as.flatMap fun a => l :: lexemes (ink a) := by
  rw [Layout.separated, lexemes_append, lexemes_flatMap]
  simp only [lexemes_append, hsep, List.cons_append, List.nil_append]

-- =========================================================== what is next

/-- What comes next is of one kind only. -/
theorem not_next_of_kind {kind : TokenKind} {t : Token} {rest : List Token}
    (h : t.kind ≠ kind) : ¬ Next kind (t :: rest) := h

/-- Whether a token of some kind starts a line. -/
def TokenKind.opens : TokenKind → Bool
  | .marker _ | .includeWord | .at | .name => true
  | _ => false

/-- What comes next starts a line. -/
def Fresh (ts : List Token) : Prop := ∀ t ∈ ts.head?, t.kind.opens = true

/-- Where a line can end, no token follows that goes on with it. -/
theorem Fresh.not_next {ts : List Token} (h : Fresh ts) {kind : TokenKind}
    (hk : kind.opens = false) : ¬ Next kind ts := by
  intro hnext
  cases ts with
  | nil => exact hnext
  | cons t ts =>
      rw [← show t.kind = kind from hnext, h t rfl] at hk
      cases hk

-- ================================================================== lists

/-- What holds before a separator and before what follows the list holds where more of the
list may come. -/
theorem After.ok_next {α : Type} {sign : TokenKind} {item : Shape α} {as : List α}
    {run rest : List Token} (h : After sign item as run rest) (ok : List Token → Prop)
    (hok : ∀ t rest, t.kind = sign → ok (t :: rest)) (hrest : ok rest) : ok (run ++ rest) := by
  cases h with
  | stop hs => exact hrest
  | more hs ha hl => exact hok _ _ hs

section Lists

variable {α β γ : Type} {ink : α → Layout} (f : α → γ) (g : β → γ) (item : Shape β)
  (sign : TokenKind) {separator : Layout} {value : List Char} (ok : List Token → Prop)

/-- Items after a separator, by induction along them. An item is spelled wherever `ok` holds
of what comes next. -/
theorem respell_after (hok : ∀ t rest, t.kind = sign → ok (t :: rest)) {as : List α}
    (hitem : ∀ a ∈ as, ∀ run rest, run.map Token.lexeme = lexemes (ink a) → ok rest →
      ∃ b, g b = f a ∧ item b run rest) {run rest : List Token}
    (hrun : run.map Token.lexeme = as.flatMap fun a => ⟨sign, value⟩ :: lexemes (ink a))
    (hrest : ok rest) (hnext : ¬ Next sign rest) :
    ∃ bs, bs.map g = as.map f ∧ After sign item bs run rest := by
  induction as generalizing run with
  | nil =>
      rw [List.map_eq_nil_iff.1 hrun]
      exact ⟨[], rfl, .stop hnext⟩
  | cons a as ih =>
      rw [List.flatMap_cons, List.cons_append] at hrun
      obtain ⟨s, run, rfl, hs, -, hrun⟩ := exists_of_cons hrun
      obtain ⟨first, later, rfl, hfirst, hlater⟩ := List.map_eq_append_iff.1 hrun
      obtain ⟨bs, hbs, hafter⟩ := ih (fun a ha => hitem a (List.mem_cons_of_mem _ ha)) hlater
      obtain ⟨b, hb, hspelled⟩ := hitem a List.mem_cons_self first _ hfirst
        (hafter.ok_next ok hok hrest)
      refine ⟨b :: bs, ?_, .more hs hspelled hafter⟩
      rw [List.map_cons, List.map_cons, hb, hbs]

/-- Items with separators between them. -/
theorem respell_listed (hsep : lexemes separator = [⟨sign, value⟩])
    (hok : ∀ t rest, t.kind = sign → ok (t :: rest)) {as : List α} (hne : as ≠ [])
    (hitem : ∀ a ∈ as, ∀ run rest, run.map Token.lexeme = lexemes (ink a) → ok rest →
      ∃ b, g b = f a ∧ item b run rest) {run rest : List Token}
    (hrun : run.map Token.lexeme = lexemes (Layout.separated separator ink as))
    (hrest : ok rest) (hnext : ¬ Next sign rest) :
    ∃ bs, bs.map g = as.map f ∧ Listed sign item bs run rest := by
  cases as with
  | nil => exact absurd rfl hne
  | cons a as =>
      rw [lexemes_separated hsep] at hrun
      obtain ⟨first, later, rfl, hfirst, hlater⟩ := List.map_eq_append_iff.1 hrun
      obtain ⟨bs, hbs, hafter⟩ := respell_after f g item sign ok hok
        (fun a ha => hitem a (List.mem_cons_of_mem _ ha)) hlater hrest hnext
      obtain ⟨b, hb, hspelled⟩ := hitem a List.mem_cons_self first _ hfirst
        (hafter.ok_next ok hok hrest)
      refine ⟨b :: bs, ?_, .mk hspelled hafter⟩
      rw [List.map_cons, List.map_cons, hb, hbs]

end Lists

-- ================================================================== ports

/-- A port is written as a numeral that is read as itself. -/
theorem writes_of_port {n : Int} (hn : IsPort n) {t : Token} (hk : t.kind = .number)
    (hv : t.value = String.ofList (toString n).toList) : t.Writes n := by
  obtain ⟨hpos, hlimit⟩ := hn
  obtain ⟨m, rfl⟩ := Int.eq_ofNat_of_zero_le hpos
  rw [String.ofList_toList] at hv
  exact ⟨hk, by rw [hv]; exact Text.Numeral.read_toString hlimit⟩

/-- Tokens with the lexemes of printed ports spell these ports. A dash behind them would go on
with a range. -/
theorem Ports.respell {ports : Ports} (hw : ports.Writable) {run rest : List Token}
    (hrun : run.map Token.lexeme = lexemes ports.ink) (hrest : ¬ Next .dash rest) :
    ports.Spelled run rest := by
  cases ports with
  | single n =>
      obtain ⟨t, run, rfl, ht, hv, hrun⟩ := exists_of_cons hrun
      rw [List.map_eq_nil_iff.1 hrun]
      exact .single (writes_of_port hw ht hv) hrest
  | range a b =>
      obtain ⟨t, run, rfl, ht, htv, hrun⟩ := exists_of_cons hrun
      obtain ⟨d, run, rfl, hd, -, hrun⟩ := exists_of_cons hrun
      obtain ⟨u, run, rfl, hu, huv, hrun⟩ := exists_of_cons hrun
      rw [List.map_eq_nil_iff.1 hrun]
      exact .range (writes_of_port hw.1 ht htv) hd (writes_of_port hw.2 hu huv)

theorem PortSpec.respell {spec : PortSpec} (hw : spec.ports.Writable) {run rest : List Token}
    (hrun : run.map Token.lexeme = lexemes spec.ink) (hrest : ¬ Next .dash rest) :
    spec.Spelled run rest := by
  obtain ⟨protocol, ports⟩ := spec
  cases protocol with
  | tcp => exact .tcp (Ports.respell hw hrun hrest)
  | udp =>
      obtain ⟨u, run, rfl, hu, -, hrun⟩ := exists_of_cons hrun
      obtain ⟨l, run, rfl, hl, -, hrun⟩ := exists_of_cons hrun
      obtain ⟨inside, run, rfl, hinside, hrun⟩ :=
        List.map_eq_append_iff.1 (hrun.trans (lexemes_append ..))
      obtain ⟨r, run, rfl, hr, -, hrun⟩ := exists_of_cons hrun
      rw [List.map_eq_nil_iff.1 hrun]
      refine .udp hu hl (Ports.respell hw hinside ?_) hr
      exact not_next_of_kind (by rw [hr]; decide)

/-- A parenthesis behind a connector without ports would be taken for its own. -/
theorem respell_portList {ports : List PortSpec} (hw : ∀ s ∈ ports, s.ports.Writable)
    {run rest : List Token} (hrun : run.map Token.lexeme = lexemes (portListInk ports))
    (hrest : ¬ Next .leftParen rest) : PortList ports run rest := by
  cases ports with
  | nil =>
      rw [List.map_eq_nil_iff.1 hrun]
      exact .absent hrest
  | cons spec specs =>
      obtain ⟨l, run, rfl, hl, -, hrun⟩ := exists_of_cons hrun
      obtain ⟨inside, run, rfl, hinside, hrun⟩ :=
        List.map_eq_append_iff.1 (hrun.trans (lexemes_append ..))
      obtain ⟨r, run, rfl, hr, -, hrun⟩ := exists_of_cons hrun
      rw [List.map_eq_nil_iff.1 hrun]
      have hnext : ∀ kind, kind ≠ .rightParen → ¬ Next kind (r :: rest) :=
        fun kind hk => not_next_of_kind (by rw [hr]; exact hk.symm)
      obtain ⟨ports, hports, hlisted⟩ := respell_listed id id PortSpec.Spelled .comma
        (fun rest => ¬ Next .dash rest) rfl
        (fun t rest ht => not_next_of_kind (by rw [ht]; decide)) (List.cons_ne_nil _ _)
        (fun s hs run rest hrun hrest => ⟨s, rfl, PortSpec.respell (hw s hs) hrun hrest⟩)
        hinside (hnext _ (by decide)) (hnext _ (by decide))
      rw [List.map_id, List.map_id] at hports
      rw [← hports]
      exact .listed hl hlisted hr

-- ======================================================== nodes and links

/-- Tokens with the lexemes of a printed connector spell it, though at other places. -/
theorem Connector.respell {c : Connector} (hw : c.Writable) {run rest : List Token}
    (hrun : run.map Token.lexeme = lexemes c.ink) (hrest : ¬ Next .leftParen rest) :
    ∃ c' : Connector, c'.unplaced = c.unplaced ∧ c'.Spelled run rest := by
  obtain ⟨name, role, ports, position⟩ := c
  cases role with
  | server =>
      obtain ⟨t, run, rfl, ht, hv, hrun⟩ := exists_of_named
        (show run.map Token.lexeme = lexemes (.named name :: portListInk ports) from hrun)
      refine ⟨_, ?_, .server ht (respell_portList hw.2 hrun hrest)⟩
      rw [hv]
      rfl
  | client =>
      obtain ⟨s, run, rfl, hs, -, hrun⟩ := exists_of_cons hrun
      obtain ⟨t, run, rfl, ht, hv, hrun⟩ := exists_of_named
        (show run.map Token.lexeme = lexemes (.named name :: portListInk ports) from hrun)
      refine ⟨_, ?_, .client hs ht (respell_portList hw.2 hrun hrest)⟩
      rw [hv]
      rfl

/-- A connector starts with its name or with a star. -/
theorem StartsConnector.not_next {ts : List Token} (h : StartsConnector ts) {kind : TokenKind}
    (hstar : kind ≠ .star) (hname : kind ≠ .name) : ¬ Next kind ts := by
  intro hnext
  cases ts with
  | nil => exact hnext
  | cons t ts =>
      obtain h | ⟨h, -⟩ := h
      · exact hstar ((show t.kind = kind from hnext).symm.trans h)
      · exact hname ((show t.kind = kind from hnext).symm.trans h)

/-- A connector starts one, unless a double colon makes its name that of a node class. -/
theorem Connector.Spelled.starts {c : Connector} {run rest : List Token}
    (h : c.Spelled run rest) (hrest : ¬ Next .doubleColon rest) :
    StartsConnector (run ++ rest) := by
  cases h with
  | client hs ht hp => exact Or.inl hs
  | server ht hp =>
      refine Or.inr ⟨ht, ?_⟩
      cases hp with
      | absent hl => exact hrest
      | listed hl hp hr => exact not_next_of_kind (by rw [hl]; decide)

/-- The connectors of a node class, by induction along them. -/
theorem respell_connectors {cs : List Connector} (hw : ∀ c ∈ cs, c.Writable)
    {run rest : List Token}
    (hrun : run.map Token.lexeme = cs.flatMap fun c => lexemes c.ink)
    (hparen : ¬ Next .leftParen rest) (hcolon : ¬ Next .doubleColon rest)
    (hstop : ¬ StartsConnector rest) :
    ∃ cs', cs'.map Connector.unplaced = cs.map Connector.unplaced ∧
      Many StartsConnector Connector.Spelled cs' run rest := by
  induction cs generalizing run with
  | nil =>
      rw [List.map_eq_nil_iff.1 hrun]
      exact ⟨[], rfl, .stop hstop⟩
  | cons c cs ih =>
      obtain ⟨first, later, rfl, hfirst, hlater⟩ := List.map_eq_append_iff.1 hrun
      obtain ⟨cs', hcs, hmany⟩ := ih (fun c hc => hw c (List.mem_cons_of_mem _ hc)) hlater
      have hnext : ¬ Next .leftParen (later ++ rest) ∧ ¬ Next .doubleColon (later ++ rest) := by
        cases hmany with
        | stop hs => exact ⟨hparen, hcolon⟩
        | more hs ha hl =>
            rw [List.append_assoc]
            exact ⟨hs.not_next (by decide) (by decide), hs.not_next (by decide) (by decide)⟩
      obtain ⟨c', hc, hspelled⟩ := Connector.respell (hw c List.mem_cons_self) hfirst hnext.1
      refine ⟨c' :: cs', ?_, .more (hspelled.starts hnext.2) hspelled hmany⟩
      rw [List.map_cons, List.map_cons, hc, hcs]

/-- A printed node class is spelled where no other connector follows it. -/
theorem NodeClass.respell {c : NodeClass} (hw : c.Writable) {run rest : List Token}
    (hrun : run.map Token.lexeme = lexemes c.ink) (hrest : Fresh rest)
    (hstop : ¬ StartsConnector rest) :
    ∃ c' : NodeClass, c'.unplaced = c.unplaced ∧ c'.Spelled run rest := by
  obtain ⟨t, run, rfl, ht, hv, hrun⟩ := exists_of_named hrun
  obtain ⟨d, run, rfl, hd, -, hrun⟩ := exists_of_cons hrun
  obtain ⟨cs, hcs, hmany⟩ := respell_connectors hw.2 (hrun.trans (lexemes_flatMap ..))
    (hrest.not_next rfl) (hrest.not_next rfl) hstop
  refine ⟨_, ?_, .mk ht hd hmany⟩
  unfold NodeClass.unplaced
  rw [hv, hcs]

theorem ConnectorRef.respell {r : ConnectorRef} {run rest : List Token}
    (hrun : run.map Token.lexeme = lexemes r.ink) : r.Spelled run rest := by
  obtain ⟨c, run, rfl, hc, hcv, hrun⟩ := exists_of_named hrun
  obtain ⟨d, run, rfl, hd, -, hrun⟩ := exists_of_cons hrun
  obtain ⟨n, run, rfl, hn, hnv, hrun⟩ := exists_of_named hrun
  rw [List.map_eq_nil_iff.1 hrun, show r = ⟨c.value, n.value⟩ by rw [hcv, hnv]]
  exact .mk hc hd hn

/-- A printed link class is spelled wherever it stands. -/
theorem LinkClass.respell {l : LinkClass} {run rest : List Token}
    (hrun : run.map Token.lexeme = lexemes l.ink) :
    ∃ l' : LinkClass, l'.unplaced = l.unplaced ∧ l'.Spelled run rest := by
  obtain ⟨first, run, rfl, hfirst, hrun⟩ :=
    List.map_eq_append_iff.1 (hrun.trans (lexemes_append ..))
  obtain ⟨w, later, rfl, hw, -, hlater⟩ := exists_of_cons hrun
  have hsource : l.source.Spelled first (w :: (later ++ rest)) := ConnectorRef.respell hfirst
  obtain ⟨t, first, rfl, ht, -, -⟩ := exists_of_named hfirst
  exact ⟨⟨l.source, l.target, some t.position⟩, rfl,
    .mk hsource hw (ConnectorRef.respell hlater)⟩

-- =============================================== instances and addresses

/-- A printed address is spelled where no dot goes on with it. -/
theorem respell_address {address : String} {run rest : List Token}
    (hrun : run.map Token.lexeme = lexemes (addressInk address)) (hrest : ¬ Next .dot rest) :
    AddressSpelled address run rest := by
  obtain ⟨ts, hts, hlisted⟩ := respell_listed id (fun t : Token => t.value.toList)
    (fun t run _ => run = [t] ∧ t.kind = .number) .dot (fun _ => True) rfl
    (fun _ _ _ => trivial) (List.splitOn_ne_nil _ _)
    (fun o _ run rest hrun _ => by
      obtain ⟨t, run, rfl, ht, hv, hrun⟩ := exists_of_cons hrun
      rw [List.map_eq_nil_iff.1 hrun]
      exact ⟨t, by rw [hv, String.toList_ofList]; rfl, rfl, ht⟩)
    hrun trivial hrest
  have haddress : address = ".".intercalate (ts.map (·.value)) := by
    rw [← String.toList_inj, String.toList_intercalate, List.map_map]
    show address.toList = ['.'].intercalate (ts.map fun t => t.value.toList)
    rw [hts, List.map_id]
    exact (List.intercalate_splitOn '.').symm
  rw [haddress]
  exact .mk hlisted

/-- A parenthesis behind an instance would be taken for that of its address. -/
theorem InstanceEntry.respell {e : InstanceEntry} {run rest : List Token}
    (hrun : run.map Token.lexeme = lexemes e.ink) (hrest : ¬ Next .leftParen rest) :
    ∃ e' : InstanceEntry, e'.unplaced = e.unplaced ∧ e'.Spelled run rest := by
  obtain ⟨name, address, position⟩ := e
  cases address with
  | none =>
      obtain ⟨t, run, rfl, ht, hv, hrun⟩ := exists_of_named hrun
      rw [List.map_eq_nil_iff.1 hrun]
      refine ⟨_, ?_, .mk ht (.absent hrest)⟩
      rw [hv]
      rfl
  | some address =>
      obtain ⟨t, run, rfl, ht, hv, hrun⟩ := exists_of_named hrun
      obtain ⟨l, run, rfl, hl, -, hrun⟩ := exists_of_cons hrun
      obtain ⟨inside, run, rfl, hinside, hrun⟩ :=
        List.map_eq_append_iff.1 (hrun.trans (lexemes_append ..))
      obtain ⟨r, run, rfl, hr, -, hrun⟩ := exists_of_cons hrun
      rw [List.map_eq_nil_iff.1 hrun]
      refine ⟨_, ?_, .mk ht (.given hl (respell_address hinside ?_) hr)⟩
      · rw [hv]
        rfl
      · exact not_next_of_kind (by rw [hr]; decide)

/-- A printed group is spelled where a line can end. -/
theorem InstanceGroup.respell {g : InstanceGroup} (hw : g.Writable) {run rest : List Token}
    (hrun : run.map Token.lexeme = lexemes g.ink) (hrest : Fresh rest) :
    ∃ g' : InstanceGroup, g'.unplaced = g.unplaced ∧ g'.Spelled run rest := by
  obtain ⟨t, run, rfl, ht, hv, hrun⟩ := exists_of_named hrun
  obtain ⟨entries, hentries, hlisted⟩ := respell_listed InstanceEntry.unplaced
    InstanceEntry.unplaced InstanceEntry.Spelled .comma (fun rest => ¬ Next .leftParen rest) rfl
    (fun t rest ht => not_next_of_kind (by rw [ht]; decide)) hw.2.1
    (fun e _ run rest hrun hrest => InstanceEntry.respell hrun hrest)
    hrun (hrest.not_next rfl) (hrest.not_next rfl)
  refine ⟨_, ?_, .mk ht hlisted⟩
  unfold InstanceGroup.unplaced
  rw [hv, hentries]

/-- A printed translation ends with a parenthesis of its own, so anything may follow. -/
theorem Translation.respell {t : Translation} {run rest : List Token}
    (hrun : run.map Token.lexeme = lexemes t.ink) :
    ∃ t' : Translation, t'.unplaced = t.unplaced ∧ t'.Spelled run rest := by
  obtain ⟨a, run, rfl, ha, -, hrun⟩ := exists_of_cons hrun
  obtain ⟨n, run, rfl, hn, hnv, hrun⟩ := exists_of_named hrun
  obtain ⟨l, run, rfl, hl, -, hrun⟩ := exists_of_cons hrun
  obtain ⟨external, run, rfl, hexternal, hrun⟩ :=
    List.map_eq_append_iff.1 (hrun.trans (lexemes_append ..))
  obtain ⟨c, run, rfl, hc, -, hrun⟩ := exists_of_cons hrun
  obtain ⟨internal, run, rfl, hinternal, hrun⟩ :=
    List.map_eq_append_iff.1 (hrun.trans (lexemes_append ..))
  obtain ⟨r, run, rfl, hr, -, hrun⟩ := exists_of_cons hrun
  rw [List.map_eq_nil_iff.1 hrun]
  refine ⟨_, ?_, .mk ha hn hl (respell_address hexternal ?_) hc (respell_address hinternal ?_) hr⟩
  · rw [hnv]
    rfl
  · exact not_next_of_kind (by rw [hc]; decide)
  · exact not_next_of_kind (by rw [hr]; decide)

-- ============================================== connections and includes

/-- A printed connection is spelled wherever it stands. -/
theorem Connection.respell {c : Connection} {run rest : List Token}
    (hrun : run.map Token.lexeme = lexemes c.ink) :
    ∃ c' : Connection, c'.unplaced = c.unplaced ∧ c'.Spelled run rest := by
  obtain ⟨s, run, rfl, hs, hsv, hrun⟩ := exists_of_named hrun
  obtain ⟨w, run, rfl, hw, -, hrun⟩ := exists_of_cons hrun
  obtain ⟨t, run, rfl, ht, htv, hrun⟩ := exists_of_named hrun
  rw [List.map_eq_nil_iff.1 hrun]
  refine ⟨_, ?_, .mk hs hw ht⟩
  unfold Connection.unplaced
  rw [hsv, htv]

/-- A printed directive is spelled wherever it stands. -/
theorem Include.respell {i : Include} {run rest : List Token}
    (hrun : run.map Token.lexeme = lexemes i.ink) :
    ∃ i' : Include, i'.unplaced = i.unplaced ∧ i'.Spelled run rest := by
  obtain ⟨w, run, rfl, hw, -, hrun⟩ := exists_of_cons hrun
  obtain ⟨p, run, rfl, hp, hpv, hrun⟩ := exists_of_cons hrun
  rw [List.map_eq_nil_iff.1 hrun]
  refine ⟨_, ?_, .mk hw hp⟩
  rw [hpv, String.ofList_toList]
  rfl

-- ================================================================== lines

/-- Whether a segment may stand where a section is in force. -/
def Segment.Fits (current : Option Section) : Segment → Prop
  | .marker _ => True
  | .declared (.directive _) => True
  | .declared (.nodeClass _) => current = some .nodeClasses
  | .declared (.linkClass _) => current = some .linkClasses
  | .declared (.instances _) => current = some .instances
  | .declared (.translation _) => current = some .nats
  | .declared (.connection _) => current = some .connections
  | .passed .. => False

/-- Segments that can be printed one after another: each stands in its section. -/
def Orderly : Option Section → List Segment → Prop
  | _, [] => True
  | current, s :: later =>
    s.Fits current ∧ s.Writable ∧ Orderly (s.sectionAfter current) later

/-- How the line of a segment starts. Where node classes stand, a name is that of one. -/
theorem Segment.Fits.opens {current : Option Section} {s : Segment} (h : s.Fits current) :
    ∃ l ls, lexemes s.ink = l :: ls ∧ l.kind.opens = true ∧
      (current = some .nodeClasses → l.kind = .name →
        ∃ l' ls', ls = l' :: ls' ∧ l'.kind = .doubleColon) := by
  cases s with
  | marker s => exact ⟨_, _, rfl, rfl, fun _ => nofun⟩
  | passed current kind position => exact h.elim
  | declared d =>
      cases d with
      | directive i => exact ⟨_, _, rfl, rfl, fun _ => nofun⟩
      | nodeClass c => exact ⟨_, _, rfl, rfl, fun _ _ => ⟨_, _, rfl, rfl⟩⟩
      | translation t => exact ⟨_, _, rfl, rfl, fun _ => nofun⟩
      | linkClass l => exact ⟨_, _, rfl, rfl, fun hc => by cases h.symm.trans hc⟩
      | connection c => exact ⟨_, _, rfl, rfl, fun hc => by cases h.symm.trans hc⟩
      | instances g => exact ⟨_, _, rfl, rfl, fun hc => by cases h.symm.trans hc⟩

/-- What follows a line goes on with nothing. -/
theorem Orderly.fresh {current : Option Section} {segments : List Segment}
    (h : Orderly current segments) {ts : List Token}
    (hts : ts.map Token.lexeme = segments.flatMap fun s => lexemes s.ink) :
    Fresh ts ∧ (current = some .nodeClasses → ¬ StartsConnector ts) := by
  cases segments with
  | nil =>
      rw [List.map_eq_nil_iff.1 hts]
      refine ⟨nofun, fun _ hstarts => ?_⟩
      obtain h | ⟨h, -⟩ := hstarts <;> exact h
  | cons s later =>
      obtain ⟨l, ls, hink, hopens, hcolon⟩ := h.1.opens
      rw [List.flatMap_cons, hink] at hts
      obtain ⟨t, ts, rfl, ht, -, hts⟩ := exists_of_cons hts
      refine ⟨?_, fun hc hstarts => ?_⟩
      · intro u hu
        cases hu
        rw [ht]
        exact hopens
      · obtain hstar | ⟨hname, hnext⟩ := hstarts
        · rw [← ht, show t.kind = .star from hstar] at hopens
          cases hopens
        · obtain ⟨l', ls', rfl, hl'⟩ := hcolon hc (ht.symm.trans hname)
          obtain ⟨d, ts, rfl, hd, -, -⟩ := exists_of_cons hts
          exact hnext (hd.trans hl')

/-- A printed line is spelled where a line can end, as a segment of the section that it was
printed in. -/
theorem Segment.respell {current : Option Section} {s : Segment} (hfits : s.Fits current)
    (hw : s.Writable) {run rest : List Token} (hrun : run.map Token.lexeme = lexemes s.ink)
    (hfresh : Fresh rest)
    (hstop : s.sectionAfter current = some .nodeClasses → ¬ StartsConnector rest) :
    ∃ s' : Segment, s'.unplaced = s.unplaced ∧ s'.Spelled current run rest := by
  cases s with
  | marker s =>
      obtain ⟨t, run, rfl, ht, -, hrun⟩ := exists_of_cons hrun
      rw [List.map_eq_nil_iff.1 hrun]
      exact ⟨.marker s, rfl, .marker ht⟩
  | passed current kind position => exact hfits.elim
  | declared d =>
      cases d with
      | directive i =>
          obtain ⟨i', hi, hspelled⟩ := Include.respell (i := i) hrun
          refine ⟨.declared (.directive i'), ?_, .directive hspelled⟩
          exact congrArg (declared ∘ .directive) hi
      | nodeClass c =>
          obtain ⟨c', hc, hspelled⟩ := NodeClass.respell hw hrun hfresh (hstop hfits)
          refine ⟨.declared (.nodeClass c'), ?_, .nodeClass hfits hspelled⟩
          exact congrArg (declared ∘ .nodeClass) hc
      | linkClass l =>
          obtain ⟨l', hl, hspelled⟩ := LinkClass.respell (l := l) hrun
          refine ⟨.declared (.linkClass l'), ?_, .linkClass hfits hspelled⟩
          exact congrArg (declared ∘ .linkClass) hl
      | instances g =>
          obtain ⟨g', hg, hspelled⟩ := InstanceGroup.respell hw hrun hfresh
          refine ⟨.declared (.instances g'), ?_, .instances hfits hspelled⟩
          exact congrArg (declared ∘ .instances) hg
      | translation t =>
          obtain ⟨t', ht, hspelled⟩ := Translation.respell (t := t) hrun
          refine ⟨.declared (.translation t'), ?_, .translation hfits hspelled⟩
          exact congrArg (declared ∘ .translation) ht
      | connection c =>
          obtain ⟨c', hc, hspelled⟩ := Connection.respell (c := c) hrun
          refine ⟨.declared (.connection c'), ?_, .connection hfits hspelled⟩
          exact congrArg (declared ∘ .connection) hc

/-- Places do not tell sections. -/
theorem sectionAfter_unplaced (current : Option Section) (s : Segment) :
    s.unplaced.sectionAfter current = s.sectionAfter current := by
  cases s <;> rfl

/-- The tokens of printed segments are split into those segments, by induction along
them. -/
theorem respell_segments {current : Option Section} {segments : List Segment}
    (h : Orderly current segments) {ts : List Token}
    (hts : ts.map Token.lexeme = segments.flatMap fun s => lexemes s.ink) :
    ∃ parts, Split current ts parts ∧
      (parts.map Prod.fst).map Segment.unplaced = segments.map Segment.unplaced := by
  induction segments generalizing current ts with
  | nil =>
      rw [List.map_eq_nil_iff.1 hts]
      exact ⟨[], .nil, rfl⟩
  | cons s later ih =>
      obtain ⟨hfits, hw, hlater⟩ := h
      obtain ⟨run, rest, rfl, hrun, hrest⟩ := List.map_eq_append_iff.1 hts
      -- the section in force after a segment is no matter of places
      have hsame : ∀ s' : Segment, s'.unplaced = s.unplaced →
          s'.sectionAfter current = s.sectionAfter current := by
        intro s' hs
        rw [← sectionAfter_unplaced, hs, sectionAfter_unplaced]
      obtain ⟨hfresh, hstop⟩ := hlater.fresh hrest
      obtain ⟨s', hs, hspelled⟩ := s.respell hfits hw hrun hfresh hstop
      obtain ⟨parts, hsplit, hparts⟩ := ih hlater hrest
      refine ⟨(s', run) :: parts, .cons hspelled (hsame s' hs ▸ hsplit), ?_⟩
      rw [List.map_cons, List.map_cons, List.map_cons, hs, hparts]

end SystemMap
