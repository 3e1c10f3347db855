/-
Documents come back from their images. The reader of each type inverts its image (`Inverts`): a
record is restored field by field, and what is made of any record has the numbers of its fields,
so each type below cites the types of its fields. All of this holds with any codec that is
faithful, and for the numbers that it carries.

An image is also written as a text. If texts are read back, the way through the text of an image
leads back as well (`Json.Inverts.through_text`).
-/
import SystemMap.Check
import SystemMap.Document.Json
import SystemMap.Proofs.Json.Codec

namespace SystemMap

open Json

-- ============================================================== the numbers

def PortSpec.numbers (s : PortSpec) : List Int :=
  match s.ports with
  | .single port => [port]
  | .range first last => [first, last]

/-- The numbers of a connector: those of its ports and of its place. -/
def Connector.numbers (k : Connector) : List Int :=
  k.ports.flatMap PortSpec.numbers ++ Position.numbers k.position

def InstanceEntry.numbers (e : InstanceEntry) : List Int := Position.numbers e.position

def NodeClass.numbers (k : NodeClass) : List Int :=
  k.connectors.flatMap Connector.numbers ++ Position.numbers k.position

def LinkClass.numbers (l : LinkClass) : List Int := Position.numbers l.position

def InstanceGroup.numbers (g : InstanceGroup) : List Int :=
  g.entries.flatMap InstanceEntry.numbers ++ Position.numbers g.position

def Translation.numbers (t : Translation) : List Int := Position.numbers t.position

def Connection.numbers (k : Connection) : List Int := Position.numbers k.position

def Include.numbers (i : Include) : List Int := Position.numbers i.position

/-- The numbers of a declaration, of whatever kind. -/
def Declaration.numbers : Declaration → List Int
  | .nodeClass k => k.numbers
  | .linkClass l => l.numbers
  | .instances g => g.numbers
  | .translation t => t.numbers
  | .connection k => k.numbers
  | .directive i => i.numbers

/-- All numbers of a document. -/
def Document.numbers (d : Document) : List Int :=
  d.includes.flatMap Include.numbers ++ d.nodeClasses.flatMap NodeClass.numbers ++
    d.linkClasses.flatMap LinkClass.numbers ++ d.instances.flatMap InstanceGroup.numbers ++
    d.translations.flatMap Translation.numbers ++ d.connections.flatMap Connection.numbers

-- =========================================================== small parts

variable {c : Codec} {p : Int → Prop}

/-- A place has both its fields. -/
theorem Position.inverts (hc : c.Faithful p) :
    Inverts p (fun x : Position => Position.numbers (some x)) (reader c) (image c) where
  restores {x} hx := by
    have hfields : ∀ n ∈ [x.line] ++ [x.column], p n := hx
    obtain ⟨hline, hcolumn⟩ := List.forall_mem_append.1 hfields
    unfold reader readRecord image
    dsimp only
    rw [(inverts_integer hc).required_ok "line" hline,
      (inverts_integer hc).required_ok "column" hcolumn] <;> rfl
  carried hx := by
    obtain ⟨o, ho⟩ := exists_of_readRecord hx
    simp only [Checked.seq_eq_ok_iff, Checked.map_eq_ok_iff] at ho
    obtain ⟨_, column, ⟨line, hline, rfl⟩, hcolumn, rfl⟩ := ho
    have hline := (inverts_integer hc).carried_required hline
    have hcolumn := (inverts_integer hc).carried_required hcolumn
    exact List.forall_mem_append.2 ⟨hline, hcolumn⟩

/-- The place of a declaration is null if it has none. -/
theorem Json.inverts_position (hc : c.Faithful p) :
    Inverts p Position.numbers (orNull (Position.reader c)) (Json.ofOption (Position.image c)) := by
  have hnumbers : (fun o : Option Position => o.toList.flatMap fun x => Position.numbers (some x))
      = Position.numbers := by
    funext o
    cases o <;> rfl
  exact hnumbers ▸ (Position.inverts hc).option nofun

/-- A place that is read has carried numbers, whether its field is there or not. -/
theorem Json.carried_position (hc : c.Faithful p) {fields : Fields} {position : Option Position}
    (h : fields.position c = .ok position) : ∀ n ∈ Position.numbers position, p n :=
  (inverts_position hc).carried_optional (List.forall_mem_nil _) h

/-- A range has both its fields. -/
theorem PortSpec.inverts_range (hc : c.Faithful p) :
    Inverts p (fun r : Int × Int => [r.1, r.2]) (rangeReader c) (rangeImage c) where
  restores {r} hr := by
    have hfields : ∀ n ∈ [r.1] ++ [r.2], p n := hr
    obtain ⟨hfirst, hlast⟩ := List.forall_mem_append.1 hfields
    unfold rangeReader readRecord rangeImage
    dsimp only
    rw [(inverts_integer hc).required_ok "start" hfirst,
      (inverts_integer hc).required_ok "end" hlast] <;> rfl
  carried hr := by
    obtain ⟨o, ho⟩ := exists_of_readRecord hr
    simp only [Checked.seq_eq_ok_iff, Checked.map_eq_ok_iff] at ho
    obtain ⟨_, last, ⟨first, hfirst, rfl⟩, hlast, rfl⟩ := ho
    have hfirst := (inverts_integer hc).carried_required hfirst
    have hlast := (inverts_integer hc).carried_required hlast
    exact List.forall_mem_append.2 ⟨hfirst, hlast⟩

theorem Protocol.inverts (hc : c.Faithful p) :
    Inverts p noNumbers (c.choice Protocol.ofLabel?) fun protocol => c.ofName protocol.label :=
  inverts_choice hc fun protocol => by cases protocol <;> decide

theorem Role.inverts (hc : c.Faithful p) :
    Inverts p noNumbers (c.choice Role.ofLabel?) fun role => c.ofName role.label :=
  inverts_choice hc fun role => by cases role <;> decide

/-- Of a port and a range one is null in the image, so the two fields go together. -/
theorem PortSpec.inverts (hc : c.Faithful p) : Inverts p numbers (reader c) (image c) where
  restores {s} hs := by
    obtain ⟨protocol, ports⟩ := s
    have hinteger := (inverts_integer hc).option hc.integer_ne_null
    have hrange := (inverts_range hc).option nofun
    cases ports with
    | single port =>
        unfold reader readRecord image
        dsimp only
        rw [(Protocol.inverts hc).optional_ok "protocol" (forall_mem_noNumbers protocol),
          hinteger.optional_ok "port" (a := some port) hs,
          hrange.optional_ok "port_range" (a := none) nofun] <;> rfl
    | range first last =>
        unfold reader readRecord image
        dsimp only
        rw [(Protocol.inverts hc).optional_ok "protocol" (forall_mem_noNumbers protocol),
          hinteger.optional_ok "port" (a := none) nofun,
          hrange.optional_ok "port_range" (a := some (first, last)) hs] <;> rfl
  carried {j s} hs := by
    obtain ⟨o, ho⟩ := exists_of_readRecord hs
    obtain ⟨made, hfields, hmade⟩ := Checked.andThen_eq_ok_iff.1 ho
    simp only [Checked.seq_eq_ok_iff, Checked.map_eq_ok_iff] at hfields
    obtain ⟨_, range, ⟨_, port, ⟨protocol, -, rfl⟩, hport, rfl⟩, hrange, rfl⟩ := hfields
    have hport := ((inverts_integer hc).option hc.integer_ne_null).carried_optional
      (List.forall_mem_nil _) hport
    have hrange := ((inverts_range hc).option nofun).carried_optional (List.forall_mem_nil _) hrange
    -- the fields go together only if exactly one of them has a value
    cases port with
    | none =>
        cases range with
        | none => cases hmade
        | some range =>
            cases hmade
            exact hrange
    | some port =>
        cases range with
        | none =>
            cases hmade
            exact hport
        | some range => cases hmade

/-- A connector has a list of ports, each restored by itself. -/
theorem Connector.inverts (hc : c.Faithful p) : Inverts p numbers (reader c) (image c) where
  restores {k} hk := by
    obtain ⟨hports, hposition⟩ := List.forall_mem_append.1 hk
    unfold reader readRecord image Fields.position
    dsimp only
    rw [required_text hc "name" k.name,
      (Role.inverts hc).optional_ok "role" (forall_mem_noNumbers k.role),
      (PortSpec.inverts hc).list.optional_ok "ports" hports,
      (inverts_position hc).optional_ok "position" hposition] <;> rfl
  carried hk := by
    obtain ⟨o, ho⟩ := exists_of_readRecord hk
    simp only [Checked.seq_eq_ok_iff, Checked.map_eq_ok_iff] at ho
    obtain ⟨_, position, ⟨_, ports, ⟨_, role, ⟨name, -, rfl⟩, -, rfl⟩, hports, rfl⟩, hposition,
      rfl⟩ := ho
    have hports := (PortSpec.inverts hc).carried_list hports
    exact List.forall_mem_append.2 ⟨hports, carried_position hc hposition⟩

/-- A reference has no numbers. -/
theorem ConnectorRef.inverts (hc : c.Faithful p) : Inverts p noNumbers (reader c) (image c) where
  restores {r} _ := by
    unfold reader readRecord image
    dsimp only
    rw [required_text hc "node_class" r.nodeClass,
      required_text hc "connector" r.connector] <;> rfl
  carried _ := forall_mem_noNumbers _

/-- An instance has an address or null. -/
theorem InstanceEntry.inverts (hc : c.Faithful p) : Inverts p numbers (reader c) (image c) where
  restores {e} he := by
    have haddress : ∀ n ∈ e.address.toList.flatMap noNumbers, p n := by
      cases e.address <;> nofun
    unfold reader readRecord image Fields.position
    dsimp only
    rw [required_text hc "name" e.name,
      ((inverts_text hc).option hc.text_ne_null).optional_ok "ip" haddress,
      (inverts_position hc).optional_ok "position" he] <;> rfl
  carried he := by
    obtain ⟨o, ho⟩ := exists_of_readRecord he
    simp only [Checked.seq_eq_ok_iff, Checked.map_eq_ok_iff] at ho
    obtain ⟨_, position, ⟨_, address, ⟨name, -, rfl⟩, -, rfl⟩, hposition, rfl⟩ := ho
    exact carried_position hc hposition

-- ========================================================== declarations

/-- A node class has a list of connectors, each restored by itself. -/
theorem NodeClass.inverts (hc : c.Faithful p) : Inverts p numbers (reader c) (image c) where
  restores {k} hk := by
    obtain ⟨hconnectors, hposition⟩ := List.forall_mem_append.1 hk
    unfold reader readRecord image tagged Fields.position
    dsimp only [List.cons_append, List.nil_append]
    rw [kind_ok hc, required_text hc "name" k.name,
      (Connector.inverts hc).list.optional_ok "connectors" hconnectors,
      (inverts_position hc).optional_ok "position" hposition] <;> rfl
  carried hk := by
    obtain ⟨o, ho⟩ := exists_of_readRecord hk
    simp only [Checked.seq_eq_ok_iff, Checked.map_eq_ok_iff] at ho
    obtain ⟨_, position, ⟨_, connectors, ⟨_, name, ⟨_, -, rfl⟩, -, rfl⟩, hconnectors, rfl⟩,
      hposition, rfl⟩ := ho
    have hconnectors := (Connector.inverts hc).carried_list hconnectors
    exact List.forall_mem_append.2 ⟨hconnectors, carried_position hc hposition⟩

/-- A link class has two references. -/
theorem LinkClass.inverts (hc : c.Faithful p) : Inverts p numbers (reader c) (image c) where
  restores {l} hl := by
    unfold reader readRecord image tagged Fields.position
    dsimp only [List.cons_append, List.nil_append]
    rw [kind_ok hc,
      (ConnectorRef.inverts hc).required_ok "source" (forall_mem_noNumbers l.source),
      (ConnectorRef.inverts hc).required_ok "target" (forall_mem_noNumbers l.target),
      (inverts_position hc).optional_ok "position" hl] <;> rfl
  carried hl := by
    obtain ⟨o, ho⟩ := exists_of_readRecord hl
    simp only [Checked.seq_eq_ok_iff, Checked.map_eq_ok_iff] at ho
    obtain ⟨_, position, ⟨_, target, ⟨_, source, ⟨_, -, rfl⟩, -, rfl⟩, -, rfl⟩, hposition,
      rfl⟩ := ho
    exact carried_position hc hposition

/-- A group has a list of instances, each restored by itself. -/
theorem InstanceGroup.inverts (hc : c.Faithful p) : Inverts p numbers (reader c) (image c) where
  restores {g} hg := by
    obtain ⟨hentries, hposition⟩ := List.forall_mem_append.1 hg
    unfold reader readRecord image tagged Fields.position
    dsimp only [List.cons_append, List.nil_append]
    rw [kind_ok hc, required_text hc "node_class" g.nodeClass,
      (InstanceEntry.inverts hc).list.optional_ok "entries" hentries,
      (inverts_position hc).optional_ok "position" hposition] <;> rfl
  carried hg := by
    obtain ⟨o, ho⟩ := exists_of_readRecord hg
    simp only [Checked.seq_eq_ok_iff, Checked.map_eq_ok_iff] at ho
    obtain ⟨_, position, ⟨_, entries, ⟨_, nodeClass, ⟨_, -, rfl⟩, -, rfl⟩, hentries, rfl⟩,
      hposition, rfl⟩ := ho
    have hentries := (InstanceEntry.inverts hc).carried_list hentries
    exact List.forall_mem_append.2 ⟨hentries, carried_position hc hposition⟩

/-- A translation has texts and its place. -/
theorem Translation.inverts (hc : c.Faithful p) : Inverts p numbers (reader c) (image c) where
  restores {t} ht := by
    unfold reader readRecord image tagged Fields.position
    dsimp only [List.cons_append, List.nil_append]
    rw [kind_ok hc, required_text hc "name" t.name, required_text hc "external_ip" t.external,
      required_text hc "internal_ip" t.internal,
      (inverts_position hc).optional_ok "position" ht] <;> rfl
  carried ht := by
    obtain ⟨o, ho⟩ := exists_of_readRecord ht
    simp only [Checked.seq_eq_ok_iff, Checked.map_eq_ok_iff] at ho
    obtain ⟨_, position, ⟨_, internal, ⟨_, external, ⟨_, name, ⟨_, -, rfl⟩, -, rfl⟩, -, rfl⟩, -,
      rfl⟩, hposition, rfl⟩ := ho
    exact carried_position hc hposition

theorem Connection.inverts (hc : c.Faithful p) : Inverts p numbers (reader c) (image c) where
  restores {k} hk := by
    unfold reader readRecord image tagged Fields.position
    dsimp only [List.cons_append, List.nil_append]
    rw [kind_ok hc, required_text hc "source" k.source, required_text hc "target" k.target,
      (inverts_position hc).optional_ok "position" hk] <;> rfl
  carried hk := by
    obtain ⟨o, ho⟩ := exists_of_readRecord hk
    simp only [Checked.seq_eq_ok_iff, Checked.map_eq_ok_iff] at ho
    obtain ⟨_, position, ⟨_, target, ⟨_, source, ⟨_, -, rfl⟩, -, rfl⟩, -, rfl⟩, hposition,
      rfl⟩ := ho
    exact carried_position hc hposition

theorem Include.inverts (hc : c.Faithful p) : Inverts p numbers (reader c) (image c) where
  restores {i} hi := by
    unfold reader readRecord image tagged Fields.position
    dsimp only [List.cons_append, List.nil_append]
    rw [kind_ok hc, required_text hc "path" i.path,
      (inverts_position hc).optional_ok "position" hi] <;> rfl
  carried hi := by
    obtain ⟨o, ho⟩ := exists_of_readRecord hi
    simp only [Checked.seq_eq_ok_iff, Checked.map_eq_ok_iff] at ho
    obtain ⟨_, position, ⟨_, path, ⟨_, -, rfl⟩, -, rfl⟩, hposition, rfl⟩ := ho
    exact carried_position hc hposition

namespace Declaration

/-- What is tagged goes to the reader of its tag. -/
theorem reader_tagged (hc : c.Faithful p) {kind : String} {fields : Fields}
    {position : Option Position} {read : Reader Declaration}
    (hread : readerOf? c kind = some read) {d : Declaration}
    (h : read (.tagged c kind fields position) = .ok d) :
    reader c (.tagged c kind fields position) = .ok d := by
  have hkind : reader c (.tagged c kind fields position)
      = (read (.tagged c kind fields position)).under (.key kind) := by
    unfold reader tagged
    simp only [List.cons_append, List.lookup_cons_self, hc.tag, hread]
  rw [hkind, h]
  rfl

/-- Whatever is read under a tag, the reader of that tag has read it. -/
theorem exists_of_reader {j : Json} {d : Declaration} (h : reader c j = .ok d) :
    ∃ tag read, readerOf? c tag = some read ∧ read j = .ok d := by
  unfold reader at h
  split at h
  · split at h
    · cases h
    · split at h
      · cases h
      · next tag _ =>
        split at h
        · next read hread => exact ⟨tag, read, hread, Checked.under_eq_ok_iff.1 h⟩
        · cases h
  · cases h

/-- A declaration is restored by the reader of its own kind, which the tag in its image names. -/
theorem inverts (hc : c.Faithful p) : Inverts p numbers (reader c) (image c) where
  restores {d} hd := by
    cases d with
    | nodeClass a =>
        exact reader_tagged hc rfl (congrArg (nodeClass <$> ·) ((NodeClass.inverts hc).restores hd))
    | linkClass a =>
        exact reader_tagged hc rfl (congrArg (linkClass <$> ·) ((LinkClass.inverts hc).restores hd))
    | instances a =>
        exact reader_tagged hc rfl
          (congrArg (instances <$> ·) ((InstanceGroup.inverts hc).restores hd))
    | translation a =>
        exact reader_tagged hc rfl
          (congrArg (translation <$> ·) ((Translation.inverts hc).restores hd))
    | connection a =>
        exact reader_tagged hc rfl
          (congrArg (connection <$> ·) ((Connection.inverts hc).restores hd))
    | directive a =>
        exact reader_tagged hc rfl (congrArg (directive <$> ·) ((Include.inverts hc).restores hd))
  carried {j d} hd := by
    obtain ⟨tag, read, hread, hd⟩ := exists_of_reader hd
    unfold readerOf? at hread
    -- there is one reader for each kind of declaration
    split at hread
    · cases hread
      obtain ⟨a, ha, rfl⟩ := Checked.map_eq_ok_iff.1 hd
      exact (NodeClass.inverts hc).carried ha
    · cases hread
      obtain ⟨a, ha, rfl⟩ := Checked.map_eq_ok_iff.1 hd
      exact (LinkClass.inverts hc).carried ha
    · cases hread
      obtain ⟨a, ha, rfl⟩ := Checked.map_eq_ok_iff.1 hd
      exact (InstanceGroup.inverts hc).carried ha
    · cases hread
      obtain ⟨a, ha, rfl⟩ := Checked.map_eq_ok_iff.1 hd
      exact (Translation.inverts hc).carried ha
    · cases hread
      obtain ⟨a, ha, rfl⟩ := Checked.map_eq_ok_iff.1 hd
      exact (Connection.inverts hc).carried ha
    · cases hread
      obtain ⟨a, ha, rfl⟩ := Checked.map_eq_ok_iff.1 hd
      exact (Include.inverts hc).carried ha
    · cases hread

end Declaration

-- ============================================================ documents

/-- A document has a list for each kind of declaration. -/
theorem Document.inverts (hc : c.Faithful p) : Inverts p numbers (reader c) (image c) where
  restores {d} hd := by
    unfold numbers at hd
    simp only [List.forall_mem_append] at hd
    obtain ⟨⟨⟨⟨⟨hincludes, hnodes⟩, hlinks⟩, hinstances⟩, htranslations⟩, hconnections⟩ := hd
    unfold reader readRecord image
    dsimp only
    rw [(Include.inverts hc).list.optional_ok "includes" hincludes,
      (NodeClass.inverts hc).list.optional_ok "node_classes" hnodes,
      (LinkClass.inverts hc).list.optional_ok "link_classes" hlinks,
      (InstanceGroup.inverts hc).list.optional_ok "instances" hinstances,
      (Translation.inverts hc).list.optional_ok "nats" htranslations,
      (Connection.inverts hc).list.optional_ok "connections" hconnections] <;> rfl
  carried hd := by
    obtain ⟨o, ho⟩ := exists_of_readRecord hd
    simp only [Checked.seq_eq_ok_iff, Checked.map_eq_ok_iff] at ho
    obtain ⟨_, connections, ⟨_, translations, ⟨_, instances, ⟨_, linkClasses, ⟨_, nodeClasses,
      ⟨includes, hincludes, rfl⟩, hnodes, rfl⟩, hlinks, rfl⟩, hinstances, rfl⟩, htranslations,
      rfl⟩, hconnections, rfl⟩ := ho
    unfold numbers
    simp only [List.forall_mem_append]
    exact ⟨⟨⟨⟨⟨(Include.inverts hc).carried_list hincludes,
      (NodeClass.inverts hc).carried_list hnodes⟩,
      (LinkClass.inverts hc).carried_list hlinks⟩,
      (InstanceGroup.inverts hc).carried_list hinstances⟩,
      (Translation.inverts hc).carried_list htranslations⟩,
      (Connection.inverts hc).carried_list hconnections⟩

-- ================================================================ texts

end SystemMap
