/-
Which measures settings can make. Each of the four that a key names is any whole number above
zero; the others have their usual values.
-/
import SystemMap.Proofs.Settings.Keys
import SystemMap.Settings

namespace SystemMap

/-- Measures that settings can make: four of them any whole numbers above zero, the others as
usual. -/
structure Metrics.Configured (m : Metrics) : Prop where
  nodeWidth : 0 < m.nodeWidth
  nodeHeight : 0 < m.nodeHeight
  padding : 0 < m.padding
  connectorSpacing : 0 < m.connectorSpacing
  usual : m = { nodeWidth := m.nodeWidth, nodeHeight := m.nodeHeight, padding := m.padding
                connectorSpacing := m.connectorSpacing }

open Settings

/-- A measure above zero can replace any other. -/
theorem Metrics.Configured.setMeasure {m : Metrics} (h : m.Configured) (measure : Measure)
    {n : Int} (hn : 0 < n) : (setMeasure m measure n).Configured := by
  obtain ⟨hwidth, hheight, hpadding, hspacing, husual⟩ := h
  rw [husual]
  cases measure with
  | nodeWidth => exact ⟨hn, hheight, hpadding, hspacing, rfl⟩
  | nodeHeight => exact ⟨hwidth, hn, hpadding, hspacing, rfl⟩
  | padding => exact ⟨hwidth, hheight, hn, hspacing, rfl⟩
  | connectorSpacing => exact ⟨hwidth, hheight, hpadding, hn, rfl⟩

/-- The usual measures are above zero. -/
theorem Metrics.configured_usual : Metrics.Configured {} where
  nodeWidth := by decide
  nodeHeight := by decide
  padding := by decide
  connectorSpacing := by decide
  usual := rfl

/-- What is taken for a measure is above zero. -/
theorem positive_of_positive? {v : Yaml.Value} {n : Int} (h : positive? v = some n) : 0 < n := by
  unfold positive? at h
  split at h
  · split at h
    · cases h
      assumption
    · cases h
  · cases h

/-- Whatever measures are read, all are above zero again. -/
theorem configured_of_readMeasures {fields : List (Yaml.Value × Yaml.Value)} {m m' : Metrics}
    (hm : m.Configured) (h : readMeasures m fields = .ok m') : m'.Configured := by
  induction fields generalizing m with
  | nil =>
      cases h
      exact hm
  | cons field later ih =>
      unfold readMeasures at h
      split at h
      · cases h
      · cases h
      · next hvalue => exact ih (hm.setMeasure _ (positive_of_positive? hvalue)) h

-- ==================================================================== fields

theorem insertKey_ne_nil {key : Yaml.Value} {keys : List Yaml.Value} :
    insertKey key keys ≠ some [] := by
  intro h
  cases keys with
  | nil => cases h
  | cons k ks =>
      obtain ⟨before, -, h⟩ := Option.bind_eq_some_iff.1 h
      cases before with
      | false => cases h
      | true =>
          obtain ⟨later, -, h⟩ := Option.bind_eq_some_iff.1 h
          cases h

/-- Keys are sorted to none only if there are none. -/
theorem sortKeys_eq_nil_iff {keys : List Yaml.Value} : sortKeys keys = some [] ↔ keys = [] := by
  cases keys with
  | nil => exact iff_of_true rfl rfl
  | cons key keys =>
      refine iff_of_false (fun h => ?_) (List.cons_ne_nil _ _)
      obtain ⟨sorted, -, hinsert⟩ := Option.bind_eq_some_iff.1 h
      exact insertKey_ne_nil hinsert

/-- Fields make settings exactly if their keys are known and the two values can be read; then
the settings are what is read. -/
theorem ofFields_eq_ok_iff {root : Path} {fields : List (Yaml.Value × Yaml.Value)}
    {s : Settings} : ofFields root fields = .ok s ↔ (∀ f ∈ fields, isKnown f.1 = true) ∧
      readIncludePaths root (Yaml.Value.field? fields "include-paths") = .ok s.includePaths ∧
      readLayout (Yaml.Value.field? fields "layout") = .ok s.metrics ∧ s.root = root := by
  have hunknown : (fields.map (·.1)).filter (fun key => !isKnown key) = [] ↔
      ∀ f ∈ fields, isKnown f.1 = true := by
    simp [List.filter_eq_nil_iff]
  unfold ofFields
  dsimp only
  constructor
  · intro h
    split at h
    · cases h
    · next hsorted =>
      obtain ⟨paths, hpaths, h⟩ := Yaml.exists_of_bind_eq_ok h
      obtain ⟨metrics, hmetrics, h⟩ := Yaml.exists_of_bind_eq_ok h
      cases h
      refine ⟨hunknown.1 (sortKeys_eq_nil_iff.1 hsorted), ?_, hmetrics, rfl⟩
      cases hread : readIncludePaths root (Yaml.Value.field? fields "include-paths") with
      | error p => rw [hread] at hpaths; cases hpaths
      | ok paths => rw [hread] at hpaths; cases hpaths; rfl
    · cases h
  · rintro ⟨hknown, hpaths, hmetrics, hroot⟩
    obtain ⟨root, paths, metrics⟩ := s
    cases hroot
    rw [hunknown.2 hknown, sortKeys_eq_nil_iff.2 rfl, hpaths, hmetrics]
    rfl

/-- Measures are configured exactly if some value makes settings with them. -/
theorem Metrics.configured_iff {m : Metrics} :
    m.Configured ↔ ∃ root value s, ofValue root value = .ok s ∧ s.metrics = m := by
  constructor
  · intro h
    let key (k : Measure) : Yaml.Value := .text (.ofString k.key)
    let measures : List (Yaml.Value × Yaml.Value) :=
      [(key .nodeWidth, .int m.nodeWidth), (key .nodeHeight, .int m.nodeHeight),
        (key .padding, .int m.padding), (key .connectorSpacing, .int m.connectorSpacing)]
    let fields : List (Yaml.Value × Yaml.Value) :=
      [(.text (.ofString "layout"), .mapping measures)]
    have hkey : ∀ k, Measure.ofKey? (key k) = some k := by
      intro k
      cases k <;> decide
    have hlayout : readLayout (Yaml.Value.field? fields "layout") = .ok m := by
      show readMeasures {} measures = .ok m
      simp only [measures, readMeasures, hkey, positive?, if_pos h.nodeWidth,
        if_pos h.nodeHeight, if_pos h.padding, if_pos h.connectorSpacing]
      exact congrArg Except.ok h.usual.symm
    refine ⟨.ofString "", .mapping fields, ⟨.ofString "", [], m⟩, ?_, rfl⟩
    show (do let metrics ← readLayout (Yaml.Value.field? fields "layout")
             return (⟨.ofString "", [], metrics⟩ : Settings)) = .ok ⟨.ofString "", [], m⟩
    rw [hlayout]
    rfl
  · rintro ⟨root, value, s, h, rfl⟩
    have hfields : ∃ fields, ofFields root fields = .ok s := by
      unfold ofValue at h
      split at h
      · exact ⟨_, h⟩
      · exact ⟨_, h⟩
      · cases h
    obtain ⟨fields, hfields⟩ := hfields
    have hlayout := (ofFields_eq_ok_iff.1 hfields).2.2.1
    unfold readLayout at hlayout
    split at hlayout
    · rw [← Except.ok.inj hlayout]
      exact Metrics.configured_usual
    · exact configured_of_readMeasures Metrics.configured_usual hlayout
    · cases hlayout

end SystemMap
