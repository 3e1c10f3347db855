/-
Which values make settings, and which settings they make. There is one lemma for each level of a
value, and each says both: what is read succeeds exactly if the value has a certain shape, and
then it is told by the fields. Lists are read item by item and measures field by field, so these
two levels are inductions along the list; that a key stands once is what lets any field be looked
up by its key, whichever comes first.

The measures that are made are always positive. That is what keeps the columns of a drawing
apart, so boxes of different layers have no vertical line in common.
-/
import SystemMap.Proofs.Drawing.Apart
import SystemMap.Proofs.Drawing.Edges
import SystemMap.Proofs.Settings.Keys

namespace SystemMap

open Yaml (Value KeysDiffer)

/-- One of the measures that settings can set. -/
def Metrics.get (m : Metrics) : Settings.Measure → Int
  | .nodeWidth => m.nodeWidth
  | .nodeHeight => m.nodeHeight
  | .padding => m.padding
  | .connectorSpacing => m.connectorSpacing

namespace Settings

-- ====================================================================== shapes

/-- The key that a text is. -/
def keyOf (s : String) : Value := .text (.ofString s)

/-- A value is a mapping with some value under a key. -/
def Has (v : Value) (key : String) (w : Value) : Prop :=
  ∃ fields, v = .mapping fields ∧ (keyOf key, w) ∈ fields

/-- A list of texts. -/
def IsPathList (v : Value) : Prop := ∃ texts : List Text.Points, v = .list (texts.map .text)

/-- A mapping that has only measures as keys, and under each a whole number above zero. -/
def IsLayout (v : Value) : Prop :=
  ∃ fields, v = .mapping fields ∧
    ∀ f ∈ fields, ∃ (measure : Measure) (n : Int), f = (keyOf measure.key, .int n) ∧ 0 < n

/-- Nothing, or a mapping that has only the two keys, each with a value as it has to be. -/
def IsSettings (v : Value) : Prop :=
  v = .null ∨ ∃ fields, v = .mapping fields ∧ ∀ f ∈ fields,
    (f.1 = keyOf "include-paths" ∧ IsPathList f.2) ∨ (f.1 = keyOf "layout" ∧ IsLayout f.2)

-- ======================================================================== keys

/-- Texts that differ are different keys. -/
theorem keyOf_inj {s t : String} : keyOf s = keyOf t ↔ s = t := by
  refine ⟨fun h => ?_, congrArg _⟩
  rw [← Text.Points.toString_ofString s, Value.text.inj h, Text.Points.toString_ofString]

/-- Only a text is one key with a text. -/
theorem isSameKey_keyOf {v : Value} {s : String} :
    v.isSameKey (keyOf s) = true ↔ v = keyOf s := by
  cases v <;> simp [keyOf, Value.isSameKey, Value.number?]

/-- Where no key stands twice, a field is found under its key. -/
theorem field?_eq_some_iff {fields : List (Value × Value)} (h : KeysDiffer fields) {key : String}
    {v : Value} : Value.field? fields key = some v ↔ (keyOf key, v) ∈ fields := by
  let same : Value × Value → Bool := fun f => f.1.isSameKey (keyOf key)
  show (fields.find? same).map (·.2) = some v ↔ _
  induction fields with
  | nil => simp
  | cons f later ih =>
      obtain ⟨hfirst, hlater⟩ := List.pairwise_cons.1 h
      by_cases hf : f.1 = keyOf key
      · have hothers : (keyOf key, v) ∉ later := fun hmem => by
          have hdiffer := hfirst _ hmem
          rw [hf, isSameKey_keyOf.2 rfl] at hdiffer
          cases hdiffer
        rw [List.find?_cons_of_pos (p := same) (isSameKey_keyOf.2 hf), List.mem_cons,
          or_iff_left hothers, ← hf]
        exact ⟨fun heq => Prod.ext rfl (Option.some.inj heq).symm, fun heq => by rw [← heq]; rfl⟩
      · have hdiffer : ¬ same f = true := fun hsame => hf (isSameKey_keyOf.1 hsame)
        rw [List.find?_cons_of_neg hdiffer, List.mem_cons, or_iff_right]
        · exact ih hlater
        · exact fun heq => hf (congrArg Prod.fst heq).symm

/-- No field is found exactly if none has the key. -/
theorem field?_eq_none_iff {fields : List (Value × Value)} (h : KeysDiffer fields) {key : String} :
    Value.field? fields key = none ↔ ∀ v, (keyOf key, v) ∉ fields := by
  rw [Option.eq_none_iff_forall_ne_some]
  exact forall_congr' fun v => not_congr (field?_eq_some_iff h)

/-- There are two keys of settings. -/
theorem isKnown_iff {key : Value} :
    isKnown key = true ↔ key = keyOf "include-paths" ∨ key = keyOf "layout" := by
  cases key <;> simp [isKnown, keyOf]

/-- A measure is known by its key. -/
theorem ofKey?_eq_some_iff {key : Value} {measure : Measure} :
    Measure.ofKey? key = some measure ↔ key = keyOf measure.key := by
  cases key with
  | text s =>
      constructor
      · intro h
        have hfound : decide (s = .ofString measure.key) = true :=
          List.find?_some (p := fun m => decide (s = .ofString (Measure.key m))) h
        exact congrArg Value.text (of_decide_eq_true hfound)
      · intro h
        rw [h]
        cases measure <;> decide
  | _ => exact ⟨nofun, nofun⟩

/-- A measure is a whole number above zero, and no truth value. -/
theorem positive?_eq_some_iff {v : Value} {n : Int} :
    positive? v = some n ↔ v = .int n ∧ 0 < n := by
  cases v with
  | int k =>
      simp only [positive?, Option.ite_none_right_eq_some, Option.some.injEq, Value.int.injEq]
      constructor
      · rintro ⟨hpositive, rfl⟩
        exact ⟨rfl, hpositive⟩
      · rintro ⟨rfl, hpositive⟩
        exact ⟨hpositive, rfl⟩
  | _ => simp [positive?]

-- ======================================================================= paths

/-- The directories of a list are those of its texts, one by one. -/
theorem readPaths_eq_ok_iff {root : Path} {i : Nat} {items : List Value} {paths : List Path} :
    readPaths root i items = .ok paths ↔
      ∃ texts : List Text.Points, items = texts.map .text ∧
        paths = texts.map fun text => root.join (.ofPoints text) := by
  induction items generalizing i paths with
  | nil =>
      constructor
      · intro h
        cases h
        exact ⟨[], rfl, rfl⟩
      · rintro ⟨texts, hitems, rfl⟩
        rw [List.map_eq_nil_iff.1 hitems.symm]
        rfl
  | cons item later ih =>
      constructor
      · intro h
        cases item with
        | text t =>
            obtain ⟨paths, hpaths, rfl⟩ := Yaml.exists_of_map_eq_ok h
            obtain ⟨texts, rfl, rfl⟩ := ih.1 hpaths
            exact ⟨t :: texts, rfl, rfl⟩
        | _ => cases h
      · rintro ⟨texts, hitems, rfl⟩
        obtain ⟨t, texts, rfl, rfl, rfl⟩ := List.map_eq_cons_iff.1 hitems.symm
        show (readPaths root (i + 1) (texts.map .text)).map _ = _
        rw [ih.2 ⟨texts, rfl, rfl⟩]
        rfl

/-- Directories are read where there are none to read, or a list of texts. -/
theorem readIncludePaths_eq_ok_iff {root : Path} {v? : Option Value} {paths : List Path} :
    readIncludePaths root v? = .ok paths ↔ (v? = none ∧ paths = []) ∨
      ∃ texts : List Text.Points, v? = some (.list (texts.map .text)) ∧
        paths = texts.map fun text => root.join (.ofPoints text) := by
  cases v? with
  | none => simp [readIncludePaths, eq_comm]
  | some v =>
      cases v with
      | list items => simp [readIncludePaths, readPaths_eq_ok_iff]
      | _ => simp [readIncludePaths]

-- ==================================================================== measures

/-- Setting a measure changes no other one. -/
theorem get_setMeasure (m : Metrics) (k k' : Measure) (n : Int) :
    (setMeasure m k n).get k' = if k = k' then n else m.get k' := by
  cases k <;> cases k' <;> rfl

/-- Measures are read off a field if it sets one of them to a whole number above zero. -/
theorem readMeasures_cons_eq_ok_iff {m m' : Metrics} {f : Value × Value}
    {later : List (Value × Value)} : readMeasures m (f :: later) = .ok m' ↔
      ∃ measure n, f = (keyOf measure.key, .int n) ∧ 0 < n ∧
        readMeasures (setMeasure m measure n) later = .ok m' := by
  obtain ⟨key, value⟩ := f
  rw [readMeasures]
  constructor
  · intro h
    split at h
    · cases h
    · cases h
    · next measure n hkey hvalue =>
      obtain ⟨rfl, hpositive⟩ := positive?_eq_some_iff.1 hvalue
      exact ⟨measure, n, congrArg (·, _) (ofKey?_eq_some_iff.1 hkey), hpositive, h⟩
  · rintro ⟨measure, n, hf, hpositive, h⟩
    cases hf
    rw [ofKey?_eq_some_iff.2 rfl, positive?_eq_some_iff.2 ⟨rfl, hpositive⟩]
    exact h

/-- Measures are read off fields that each set one. -/
theorem exists_readMeasures_iff {m : Metrics} {fields : List (Value × Value)} :
    (∃ m', readMeasures m fields = .ok m') ↔
      ∀ f ∈ fields, ∃ (measure : Measure) (n : Int), f = (keyOf measure.key, .int n) ∧ 0 < n := by
  induction fields generalizing m with
  | nil => exact iff_of_true ⟨m, rfl⟩ nofun
  | cons f later ih =>
      rw [List.forall_mem_cons]
      constructor
      · rintro ⟨m', h⟩
        obtain ⟨measure, n, hf, hpositive, hlater⟩ := readMeasures_cons_eq_ok_iff.1 h
        exact ⟨⟨measure, n, hf, hpositive⟩, ih.1 ⟨m', hlater⟩⟩
      · rintro ⟨⟨measure, n, hf, hpositive⟩, hlater⟩
        obtain ⟨m', h⟩ := ih.2 hlater
        exact ⟨m', readMeasures_cons_eq_ok_iff.2 ⟨measure, n, hf, hpositive, h⟩⟩

/-- A measure that no field sets is kept. -/
theorem get_readMeasures_of_absent {m m' : Metrics} {fields : List (Value × Value)}
    (h : readMeasures m fields = .ok m') {k : Measure} (hk : ∀ v, (keyOf k.key, v) ∉ fields) :
    m'.get k = m.get k := by
  induction fields generalizing m with
  | nil => cases h; rfl
  | cons f later ih =>
      obtain ⟨measure, n, rfl, -, hlater⟩ := readMeasures_cons_eq_ok_iff.1 h
      rw [ih hlater fun v hv => hk v (List.mem_cons_of_mem _ hv), get_setMeasure, if_neg]
      rintro rfl
      exact hk _ List.mem_cons_self

/-- Where no key stands twice, a measure is what the field with its key says. -/
theorem get_readMeasures_of_mem {m m' : Metrics} {fields : List (Value × Value)}
    (hkeys : KeysDiffer fields) (h : readMeasures m fields = .ok m') {k : Measure} {n : Int}
    (hmem : (keyOf k.key, .int n) ∈ fields) : m'.get k = n := by
  induction fields generalizing m with
  | nil => cases hmem
  | cons f later ih =>
      obtain ⟨hfirst, hdiffer⟩ := List.pairwise_cons.1 hkeys
      obtain ⟨measure, n', rfl, -, hlater⟩ := readMeasures_cons_eq_ok_iff.1 h
      rcases List.mem_cons.1 hmem with heq | hmem
      · obtain ⟨hkey, hvalue⟩ := Prod.mk.inj heq
        cases hvalue
        have habsent : ∀ v, (keyOf k.key, v) ∉ later := by
          intro v hv
          have hsame := hfirst _ hv
          rw [← hkey, isSameKey_keyOf.2 rfl] at hsame
          cases hsame
        have hmeasure : measure = k := by
          have hk : Measure.ofKey? (keyOf k.key) = some measure := ofKey?_eq_some_iff.2 hkey
          exact Option.some.inj (hk.symm.trans (ofKey?_eq_some_iff.2 rfl))
        rw [get_readMeasures_of_absent hlater habsent, get_setMeasure, if_pos hmeasure]
      · exact ih hdiffer hlater hmem

/-- Measures are read where there are none to read, or a layout. -/
theorem exists_readLayout_iff {v? : Option Value} :
    (∃ m, readLayout v? = .ok m) ↔ ∀ v, v? = some v → IsLayout v := by
  cases v? with
  | none => exact iff_of_true ⟨_, rfl⟩ nofun
  | some v =>
      cases v with
      | mapping fields =>
          refine exists_readMeasures_iff.trans ⟨?_, fun h => ?_⟩
          · rintro hfields v ⟨⟩
            exact ⟨fields, rfl, hfields⟩
          · obtain ⟨_, ⟨⟩, hfields⟩ := h _ rfl
            exact hfields
      | _ =>
          refine iff_of_false ?_ fun h => ?_
          · rintro ⟨m, h⟩
            cases h
          · obtain ⟨_, hv, -⟩ := h _ rfl
            cases hv

/-- Measures that are read off a mapping are those that its fields set. -/
theorem get_readLayout {v : Value} (hv : v.KeyedOnce) {m : Metrics}
    (h : readLayout (some v) = .ok m) (k : Measure) :
    (∀ n, Has v k.key (.int n) → m.get k = n) ∧
      ((∀ w, ¬ Has v k.key w) → m.get k = Metrics.get {} k) := by
  cases v with
  | mapping fields =>
      cases hv with
      | scalar hlist hmapping => exact absurd rfl (hmapping fields)
      | mapping hkeys hvalues =>
          refine ⟨?_, fun habsent => ?_⟩
          · rintro n ⟨_, ⟨⟩, hmem⟩
            exact get_readMeasures_of_mem hkeys h hmem
          · exact get_readMeasures_of_absent h fun w hw => habsent w ⟨fields, rfl, hw⟩
  | _ => cases h

-- ==================================================================== settings

/-- Fields that differ in their keys make settings exactly if each has one of the two keys and
a value as it has to be. -/
theorem exists_ofFields_iff {root : Path} {fields : List (Value × Value)}
    (hkeys : KeysDiffer fields) : (∃ s, ofFields root fields = .ok s) ↔ ∀ f ∈ fields,
      (f.1 = keyOf "include-paths" ∧ IsPathList f.2) ∨ (f.1 = keyOf "layout" ∧ IsLayout f.2) := by
  constructor
  · rintro ⟨s, h⟩ ⟨key, v⟩ hf
    obtain ⟨hknown, hpaths, hlayout, -⟩ := ofFields_eq_ok_iff.1 h
    rcases isKnown_iff.1 (hknown _ hf) with rfl | rfl
    · rw [(field?_eq_some_iff hkeys).2 hf] at hpaths
      rcases readIncludePaths_eq_ok_iff.1 hpaths with ⟨hnone, -⟩ | ⟨texts, hv, -⟩
      · cases hnone
      · exact .inl ⟨rfl, texts, Option.some.inj hv⟩
    · rw [(field?_eq_some_iff hkeys).2 hf] at hlayout
      exact .inr ⟨rfl, exists_readLayout_iff.1 ⟨_, hlayout⟩ v rfl⟩
  · intro h
    have hdifferent : keyOf "include-paths" ≠ keyOf "layout" :=
      fun heq => absurd (keyOf_inj.1 heq) (by decide)
    have hpaths : ∃ paths,
        readIncludePaths root (Value.field? fields "include-paths") = .ok paths := by
      cases hfield : Value.field? fields "include-paths" with
      | none => exact ⟨[], rfl⟩
      | some v =>
          rcases h _ ((field?_eq_some_iff hkeys).1 hfield) with ⟨-, texts, hv⟩ | ⟨hkey, -⟩
          · exact ⟨_, readIncludePaths_eq_ok_iff.2 (.inr ⟨texts, congrArg some hv, rfl⟩)⟩
          · exact absurd hkey hdifferent
    have hlayout : ∃ m, readLayout (Value.field? fields "layout") = .ok m := by
      refine exists_readLayout_iff.2 fun v hfield => ?_
      rcases h _ ((field?_eq_some_iff hkeys).1 hfield) with ⟨hkey, -⟩ | ⟨-, hv⟩
      · exact absurd hkey.symm hdifferent
      · exact hv
    obtain ⟨paths, hpaths⟩ := hpaths
    obtain ⟨m, hlayout⟩ := hlayout
    refine ⟨⟨root, paths, m⟩, ofFields_eq_ok_iff.2 ⟨fun f hf => ?_, hpaths, hlayout, rfl⟩⟩
    exact isKnown_iff.2 ((h f hf).imp And.left And.left)

/-- A value makes settings exactly if it is nothing or a mapping as it has to be. -/
theorem exists_ofValue_iff {root : Path} {value : Value} (hkeys : value.KeyedOnce) :
    (∃ s, ofValue root value = .ok s) ↔ IsSettings value := by
  cases value with
  | null =>
      have hmade : ∃ s, ofFields root [] = .ok s := (exists_ofFields_iff .nil).2 nofun
      exact iff_of_true hmade (.inl rfl)
  | mapping fields =>
      cases hkeys with
      | scalar hlist hmapping => exact absurd rfl (hmapping fields)
      | mapping hdiffer hvalues =>
          refine (exists_ofFields_iff hdiffer).trans ⟨fun h => .inr ⟨fields, rfl, h⟩, ?_⟩
          rintro (⟨⟨⟩⟩ | ⟨_, ⟨⟩, h⟩)
          exact h
  | _ =>
      refine iff_of_false ?_ ?_
      · rintro ⟨s, h⟩
        cases h
      · rintro (⟨⟨⟩⟩ | ⟨_, ⟨⟩, -⟩)

/-- The settings of a value are those of some fields with its keys: none if it is null. -/
theorem exists_fields_of_ofValue {root : Path} {value : Value} (hkeys : value.KeyedOnce)
    {s : Settings} (h : ofValue root value = .ok s) :
    ∃ fields, KeysDiffer fields ∧ (∀ f ∈ fields, f.2.KeyedOnce) ∧ ofFields root fields = .ok s ∧
      ∀ key v, Has value key v ↔ (keyOf key, v) ∈ fields := by
  cases value with
  | null =>
      refine ⟨[], .nil, nofun, h, fun key v => iff_of_false ?_ List.not_mem_nil⟩
      rintro ⟨_, ⟨⟩, -⟩
  | mapping fields =>
      cases hkeys with
      | scalar hlist hmapping => exact absurd rfl (hmapping fields)
      | mapping hdiffer hvalues =>
          refine ⟨fields, hdiffer, hvalues, h, fun key v => ⟨?_, fun hmem => ⟨fields, rfl, hmem⟩⟩⟩
          rintro ⟨_, ⟨⟩, hmem⟩
          exact hmem
  | _ => cases h

/-- The directories are those of the texts in the list, seen from the root, and none where there
is no list. -/
theorem includePaths_of_ofValue {root : Path} {value : Value} (hkeys : value.KeyedOnce)
    {s : Settings} (h : ofValue root value = .ok s) :
    (∀ texts : List Text.Points, Has value "include-paths" (.list (texts.map .text)) →
      s.includePaths = texts.map fun text => root.join (.ofPoints text)) ∧
    ((∀ v, ¬ Has value "include-paths" v) → s.includePaths = []) := by
  obtain ⟨fields, hdiffer, -, hfields, hhas⟩ := exists_fields_of_ofValue hkeys h
  have hpaths := readIncludePaths_eq_ok_iff.1 (ofFields_eq_ok_iff.1 hfields).2.1
  refine ⟨fun texts hlist => ?_, fun hnone => ?_⟩
  · rw [(field?_eq_some_iff hdiffer).2 ((hhas _ _).1 hlist)] at hpaths
    rcases hpaths with ⟨hnone, -⟩ | ⟨texts', hv, hpaths⟩
    · cases hnone
    · rw [hpaths, List.map_injective_iff.2 (fun _ _ => Value.text.inj)
        (Value.list.inj (Option.some.inj hv))]
  · rw [(field?_eq_none_iff hdiffer).2 fun v hv => hnone v ((hhas _ _).2 hv)] at hpaths
    rcases hpaths with ⟨-, hpaths⟩ | ⟨texts, hv, -⟩
    · exact hpaths
    · cases hv

/-- Each measure is what the layout sets it to, and the usual one where it does not. -/
theorem metrics_of_ofValue {root : Path} {value : Value} (hkeys : value.KeyedOnce)
    {s : Settings} (h : ofValue root value = .ok s) (k : Measure) :
    (∀ layout n, Has value "layout" layout → Has layout k.key (.int n) →
      s.metrics.get k = n) ∧
    ((∀ layout v, Has value "layout" layout → ¬ Has layout k.key v) →
      s.metrics.get k = Metrics.get {} k) := by
  obtain ⟨fields, hdiffer, hvalues, hfields, hhas⟩ := exists_fields_of_ofValue hkeys h
  have hlayout := (ofFields_eq_ok_iff.1 hfields).2.2.1
  cases hfield : Value.field? fields "layout" with
  | none =>
      have habsent := (field?_eq_none_iff hdiffer).1 hfield
      refine ⟨fun layout n hl => absurd ((hhas _ _).1 hl) (habsent layout), fun _ => ?_⟩
      rw [hfield] at hlayout
      rw [← Except.ok.inj hlayout]
  | some v =>
      have hmem := (field?_eq_some_iff hdiffer).1 hfield
      rw [hfield] at hlayout
      obtain ⟨hset, hkept⟩ := get_readLayout (hvalues _ hmem) hlayout k
      refine ⟨fun layout n hl hn => hset n ?_, fun hnone => hkept fun w => ?_⟩
      · have hsame := (field?_eq_some_iff hdiffer).2 ((hhas _ _).1 hl)
        rw [hfield] at hsame
        exact Option.some.inj hsame ▸ hn
      · exact hnone v w ((hhas _ _).2 hmem)

/-- The settings of a text are those of the value that it is loaded as. -/
theorem ofTextBy_eq_ok_iff {loading : String → Except Yaml.Fault Value} {text : String}
    {value : Value} (hload : loading text = .ok value) {root : Path} {source : String}
    {s : Settings} : ofTextBy loading text root source = .ok s ↔ ofValue root value = .ok s := by
  unfold ofTextBy
  rw [hload]
  dsimp only
  cases ofValue root value with
  | ok made =>
      exact ⟨fun h => congrArg _ (Except.ok.inj h), fun h => congrArg _ (Except.ok.inj h)⟩
  | error refusal => exact iff_of_false nofun nofun

end Settings

-- ===================================================================== columns

/-- With measures that settings can make, boxes of different layers have no vertical line in
common. -/
theorem Document.columns_apart {m : Metrics} (hm : m.Configured) (d : Document) (view : View) :
    ∀ a ∈ (d.place m view).entities, ∀ b ∈ (d.place m view).entities, a.layer ≠ b.layer →
      ∀ x, ¬ ((a.box.x ≤ x ∧ x ≤ a.box.right) ∧ (b.box.x ≤ x ∧ x ≤ b.box.right)) := by
  rw [place_eq_ofNodes, Placement.entities_ofNodes]
  refine List.forall_mem_map.2 fun n hn => List.forall_mem_map.2 fun k hk hlayer x hx => ?_
  have hne : Placement.layer (d.nodesOf view) (d.edgesOf view) n.name
      ≠ Placement.layer (d.nodesOf view) (d.edgesOf view) k.name :=
    fun heq => hlayer (congrArg Int.ofNat heq)
  rcases Nat.lt_or_gt_of_ne hne with hlt | hlt
  · have hright := right_lt_of_layer_lt hm n k view hlt
      (Placement.row (d.nodesOf view) (d.edgesOf view) n.name)
      (Placement.row (d.nodesOf view) (d.edgesOf view) k.name)
    omega
  · have hright := right_lt_of_layer_lt hm k n view hlt
      (Placement.row (d.nodesOf view) (d.edgesOf view) k.name)
      (Placement.row (d.nodesOf view) (d.edgesOf view) n.name)
    omega

open Settings in
/-- Settings are accepted exactly if they are described rightly. A value in which no key stands
twice makes settings exactly if it is nothing or a mapping as it has to be. Their directories are
those of the list in its order, each seen from the root; each of the four measures is the number
under its key, and the usual one where the key is not there; the other measures are the usual
ones. So whatever the settings and the document, boxes of different layers have no vertical line
in common. However texts are loaded, the settings of a text are those of its value. The value of a
text that is read here has no key twice, so it makes settings exactly if it is described rightly. -/
theorem settings_made_iff (root : Path) {value : Value} (hkeys : value.KeyedOnce) :
    ((∃ s, ofValue root value = .ok s) ↔ IsSettings value) ∧
    (∀ s, ofValue root value = .ok s → s.root = root ∧
      (∀ texts : List Text.Points, Has value "include-paths" (.list (texts.map .text)) →
        s.includePaths = texts.map fun text => root.join (.ofPoints text)) ∧
      ((∀ v, ¬ Has value "include-paths" v) → s.includePaths = []) ∧
      (∀ k : Measure,
        (∀ layout n, Has value "layout" layout → Has layout k.key (.int n) →
          s.metrics.get k = n) ∧
        ((∀ layout v, Has value "layout" layout → ¬ Has layout k.key v) →
          s.metrics.get k = Metrics.get {} k)) ∧
      s.metrics = { nodeWidth := s.metrics.nodeWidth, nodeHeight := s.metrics.nodeHeight
                    padding := s.metrics.padding
                    connectorSpacing := s.metrics.connectorSpacing } ∧
      ∀ (d : Document) (view : View), ∀ a ∈ (d.place s.metrics view).entities,
        ∀ b ∈ (d.place s.metrics view).entities, a.layer ≠ b.layer →
          ∀ x, ¬ ((a.box.x ≤ x ∧ x ≤ a.box.right) ∧ (b.box.x ≤ x ∧ x ≤ b.box.right))) ∧
    (∀ loading text source, loading text = .ok value →
      ∀ s, ofTextBy loading text root source = .ok s ↔ ofValue root value = .ok s) ∧
    ∀ text source read, Yaml.read text = .ok read →
      ((∃ s, ofText text root source = .ok s) ↔ IsSettings read) := by
  refine ⟨exists_ofValue_iff hkeys, fun s h => ?_,
    fun loading text source hload s => ofTextBy_eq_ok_iff hload, fun text source read hread => ?_⟩
  · have hconfigured : s.metrics.Configured := Metrics.configured_iff.2 ⟨root, value, s, h, rfl⟩
    obtain ⟨fields, -, -, hfields, -⟩ := exists_fields_of_ofValue hkeys h
    obtain ⟨hlisted, hunlisted⟩ := includePaths_of_ofValue hkeys h
    exact ⟨(ofFields_eq_ok_iff.1 hfields).2.2.2, hlisted, hunlisted, metrics_of_ofValue hkeys h,
      hconfigured.usual, Document.columns_apart hconfigured⟩
  · exact (exists_congr fun s => ofTextBy_eq_ok_iff hread).trans
      (exists_ofValue_iff (Yaml.keyedOnce_of_read hread))

/-- Settings with one measure and two directories, the second of them absolute. -/
def describedSettings (padding : Value) : Value :=
  .mapping [(Settings.keyOf "layout", .mapping [(Settings.keyOf "padding", padding)]),
    (Settings.keyOf "include-paths", .list [Settings.keyOf "lib", Settings.keyOf "/usr/lib"])]

/-- The settings have each key once, whatever the padding is. -/
theorem keyedOnce_describedSettings {padding : Value} (h : padding.KeyedOnce) :
    (describedSettings padding).KeyedOnce := by
  have htext : ∀ s, (Settings.keyOf s).KeyedOnce := fun s => .scalar nofun nofun
  refine .mapping ?_ fun f hf => ?_
  · refine List.pairwise_pair.2 (Bool.eq_false_iff.2 fun hsame => ?_)
    exact absurd (Settings.keyOf_inj.1 (Settings.isSameKey_keyOf.1 hsame)) (by decide)
  · rcases List.mem_pair.1 hf with rfl | rfl
    · refine .mapping (List.pairwise_singleton ..) fun f hf => ?_
      rw [List.mem_singleton.1 hf]
      exact h
    · refine .list fun v hv => ?_
      rcases List.mem_pair.1 hv with rfl | rfl <;> exact htext _

/-- A padding of one is accepted, and one that is a truth value is not. -/
theorem described_settings_made :
    (describedSettings (.int 1)).KeyedOnce ∧ (describedSettings (.bool true)).KeyedOnce ∧
    (∃ s, Settings.ofValue (.ofString "proj") (describedSettings (.int 1)) = .ok s ∧
      s.includePaths = [.ofString "proj/lib", .ofString "/usr/lib"] ∧
      s.metrics.get .padding = 1 ∧ s.metrics.get .nodeWidth = 200) ∧
    ¬ ∃ s, Settings.ofValue (.ofString "proj") (describedSettings (.bool true)) = .ok s := by
  have hkeys : (describedSettings (.int 1)).KeyedOnce :=
    keyedOnce_describedSettings (.scalar nofun nofun)
  have hkeys' : (describedSettings (.bool true)).KeyedOnce :=
    keyedOnce_describedSettings (.scalar nofun nofun)
  have haccepted : Settings.IsSettings (describedSettings (.int 1)) := by
    refine .inr ⟨_, rfl, fun f hf => ?_⟩
    rcases List.mem_pair.1 hf with rfl | rfl
    · exact .inr ⟨rfl, _, rfl, fun f hf => ⟨.padding, 1, List.mem_singleton.1 hf, by decide⟩⟩
    · exact .inl ⟨rfl, [.ofString "lib", .ofString "/usr/lib"], rfl⟩
  refine ⟨hkeys, hkeys', ?_, ?_⟩
  · obtain ⟨hmade, hsettings, -⟩ := settings_made_iff (.ofString "proj") hkeys
    obtain ⟨s, h⟩ := hmade.2 haccepted
    obtain ⟨-, hpaths, -, hmeasures, -⟩ := hsettings s h
    refine ⟨s, h, ?_, ?_, ?_⟩
    · rw [hpaths [.ofString "lib", .ofString "/usr/lib"] ⟨_, rfl, .tail _ List.mem_cons_self⟩]
      decide
    · exact (hmeasures .padding).1 _ 1 ⟨_, rfl, List.mem_cons_self⟩ ⟨_, rfl, List.mem_cons_self⟩
    · refine (hmeasures .nodeWidth).2 ?_
      rintro layout v ⟨_, ⟨⟩, hlayout⟩ ⟨fields, rfl, hv⟩
      rcases List.mem_pair.1 hlayout with heq | heq
      · cases (Prod.mk.inj heq).2
        have hkey := congrArg Prod.fst (List.mem_singleton.1 hv)
        exact absurd (Settings.keyOf_inj.1 hkey) (by decide)
      · cases (Prod.mk.inj heq).2
  · rw [(settings_made_iff (.ofString "proj") hkeys').1]
    rintro (⟨⟨⟩⟩ | ⟨_, ⟨⟩, h⟩)
    rcases h _ List.mem_cons_self with ⟨hkey, -⟩ | ⟨-, _, ⟨⟩, hmeasures⟩
    · exact absurd (Settings.keyOf_inj.1 hkey) (by decide)
    · obtain ⟨measure, n, hf, -⟩ := hmeasures _ List.mem_cons_self
      cases congrArg Prod.snd hf

end SystemMap
