/-
Keys of settings files. A mapping that is read from a text has no key twice, however often the
text writes it and whatever it takes over from other mappings: its fields are put one by one, and
a key that is there already gets another value (`keyedOnce_of_read`). So which fields a mapping
has is told by its keys.
-/
import SystemMap.Yaml.Node.Value

namespace SystemMap.Yaml

-- ========================================================= results that are values

section Results

variable {ε α β γ : Type}

/-- Two results in a row are a value only if both are one. -/
theorem exists_of_bind_eq_ok {r : Except ε α} {f : α → Except ε β} {b : β}
    (h : r >>= f = .ok b) : ∃ a, r = .ok a ∧ f a = .ok b := by
  cases r with
  | error e => cases h
  | ok a => exact ⟨a, rfl, h⟩

/-- What is made of a result is a value only if the result is one. -/
theorem exists_of_map_eq_ok {r : Except ε α} {g : α → β} {b : β} (h : r.map g = .ok b) :
    ∃ a, r = .ok a ∧ g a = b := by
  cases r with
  | error e => cases h
  | ok a => exact ⟨a, rfl, Except.ok.inj h⟩

namespace Leveled

/-- What is made of a levelled result is a value only if that is one. -/
theorem exists_of_map_eq_ok {g : α → β} {r : Leveled α} {b : β} (h : r.map g = .ok b) :
    ∃ a, r = .ok a ∧ g a = b := by
  cases r with
  | fault level f => cases h
  | ok a => exact ⟨a, rfl, ok.inj h⟩

/-- Two results side by side are a value if both are one. -/
theorem both_eq_ok_iff {g : α → β → γ} {r : Leveled α} {s : Leveled β} {c : γ} :
    both g r s = .ok c ↔ ∃ a b, r = .ok a ∧ s = .ok b ∧ g a b = c := by
  cases r <;> cases s <;> simp [both] <;> split <;> simp

/-- Results side by side have values exactly if each of them has one. -/
theorem all_eq_ok_iff {rs : List (Leveled α)} {vs : List α} :
    all rs = .ok vs ↔ rs = vs.map .ok := by
  induction rs generalizing vs with
  | nil => cases vs <;> simp [all]
  | cons r rs ih =>
      rw [all, both_eq_ok_iff]
      constructor
      · rintro ⟨v, later, rfl, hlater, rfl⟩
        rw [ih.1 hlater, List.map_cons]
      · cases vs with
        | nil => nofun
        | cons v vs =>
            intro h
            obtain ⟨rfl, hlater⟩ := List.cons.inj h
            exact ⟨v, vs, rfl, ih.2 hlater, rfl⟩

end Leveled

end Results

/-- As a part of another node, a node has the same value. -/
theorem Node.part_eq_ok_iff {n : Node} {r : Leveled Value} {v : Value} :
    n.part r = .ok v ↔ r = .ok v := by
  unfold Node.part
  split
  · cases r <;> simp [Leveled.deeper]
  · rfl

-- ==================================================================== mappings

/-- No two of some fields have one key. -/
def KeysDiffer (fields : List (Value × Value)) : Prop :=
  fields.Pairwise fun a b => a.1.isSameKey b.1 = false

/-- No mapping that a value is or contains has a key twice. Into sets and pairs this does not look:
nothing in them is a setting. -/
inductive Value.KeyedOnce : Value → Prop
  | scalar {v} (hlist : ∀ items, v ≠ .list items) (hmapping : ∀ fields, v ≠ .mapping fields) :
      KeyedOnce v
  | list {items} (h : ∀ v ∈ items, KeyedOnce v) : KeyedOnce (.list items)
  | mapping {fields} (hkeys : KeysDiffer fields) (h : ∀ f ∈ fields, KeyedOnce f.2) :
      KeyedOnce (.mapping fields)

/-- Putting a field adds a key that is not there, or leaves the keys as they are. -/
theorem KeysDiffer.putField {fields : List (Value × Value)} (h : KeysDiffer fields)
    (key value : Value) : KeysDiffer (Value.putField fields key value) := by
  unfold Value.putField
  split
  · refine List.pairwise_map.2 (h.imp fun {a b} hab => ?_)
    -- a field keeps its key, whether its value is replaced or not
    have hkey : ∀ f : Value × Value, (if f.1.isSameKey key then (f.1, value) else f).1 = f.1 :=
      fun f => by split <;> rfl
    rw [hkey, hkey]
    exact hab
  · next hnew =>
    refine List.pairwise_append.2 ⟨h, List.pairwise_singleton .., fun a ha b hb => ?_⟩
    rw [List.mem_singleton.1 hb]
    exact Bool.eq_false_iff.2 fun hsame => hnew (List.any_eq_true.2 ⟨a, ha, hsame⟩)

/-- Putting a field into a mapping changes no other field's value. -/
theorem mem_putField {fields : List (Value × Value)} {key value : Value} {f : Value × Value}
    (h : f ∈ Value.putField fields key value) : f ∈ fields ∨ f.2 = value := by
  unfold Value.putField at h
  split at h
  · obtain ⟨g, hg, rfl⟩ := List.mem_map.1 h
    split
    · exact .inr rfl
    · exact .inl hg
  · rcases List.mem_append.1 h with hold | hnew
    · exact .inl hold
    · exact .inr (congrArg Prod.snd (List.mem_singleton.1 hnew))

/-- The mapping of some fields has no key twice. The induction is on the fields, and carries the
mapping of those before them. -/
theorem keyedOnce_mappingOf {fields : List (Value × Value)} (h : ∀ f ∈ fields, f.2.KeyedOnce) :
    (Node.mappingOf fields).KeyedOnce := by
  suffices hfold : ∀ before : List (Value × Value), KeysDiffer before →
      (∀ f ∈ before, f.2.KeyedOnce) →
      (Value.mapping (fields.foldl (fun fs f => Value.putField fs f.1 f.2) before)).KeyedOnce from
    hfold [] .nil nofun
  induction fields with
  | nil => exact fun before hkeys hbefore => .mapping hkeys hbefore
  | cons f later ih =>
      intro before hkeys hbefore
      refine ih (fun g hg => h g (List.mem_cons_of_mem _ hg)) _ (hkeys.putField f.1 f.2) ?_
      intro g hg
      rcases mem_putField hg with hold | hnew
      · exact hbefore g hold
      · exact hnew ▸ h f List.mem_cons_self

-- ======================================================================= nodes

/-- The meaning of a plain scalar is a scalar. -/
theorem keyedOnce_of_meaning {s : String} {v : Value} (h : Plain.meaning s = .ok v) :
    v.KeyedOnce := by
  -- each kind of scalar is checked by itself and then put into its constructor
  have hmap : ∀ {α : Type} {r : Except Fault α} {g : α → Value},
      r.map g = .ok v → (∀ a, (g a).KeyedOnce) → v.KeyedOnce := by
    intro α r g hr hg
    obtain ⟨a, -, rfl⟩ := exists_of_map_eq_ok hr
    exact hg a
  unfold Plain.meaning at h
  dsimp only at h
  split at h
  · exact Except.ok.inj h ▸ .scalar nofun nofun
  split at h
  · exact Except.ok.inj h ▸ .scalar nofun nofun
  split at h
  · exact hmap h fun _ => .scalar nofun nofun
  split at h
  · exact hmap h fun _ => .scalar nofun nofun
  split at h
  · exact hmap h fun _ => .scalar nofun nofun
  · exact hmap h fun _ => .scalar nofun nofun
  · split at h
    · cases h
    · exact Except.ok.inj h ▸ .scalar nofun nofun

/-- The values of some fields are keyed once, as far as the fields have values. -/
def SoundFields (fields : List Node.Field) : Prop :=
  ∀ key v, Leveled.ok (key, v) ∈ fields → v.KeyedOnce

theorem SoundFields.append {a b : List Node.Field} (ha : SoundFields a) (hb : SoundFields b) :
    SoundFields (a ++ b) :=
  fun key v h => (List.mem_append.1 h).elim (ha key v) (hb key v)

namespace Node

/-- A field is taken over from its value, or it is one of the mapping's own. -/
theorem exists_of_fieldsOf_cons {key n : Node} {rest : List (Node × Node)}
    {both : List Field × List Field} (h : fieldsOf ((key, n) :: rest) = .ok both) :
    ∃ later, fieldsOf rest = .ok later ∧
      ((∃ taken, n.fieldsToTake = .ok taken ∧ both = (taken ++ later.1, later.2)) ∨
        both = (later.1, .both Prod.mk (.here key.keyValue) (n.part n.value) :: later.2)) := by
  by_cases hkey : key = .plain "<<"
  · subst hkey
    rw [fieldsOf] at h
    obtain ⟨taken, htaken, h⟩ := exists_of_bind_eq_ok h
    obtain ⟨later, hlater, h⟩ := exists_of_bind_eq_ok h
    exact ⟨later, hlater, .inl ⟨taken, htaken, (Except.ok.inj h).symm⟩⟩
  · rw [fieldsOf.eq_3 _ _ _ hkey] at h
    obtain ⟨later, hlater, h⟩ := exists_of_bind_eq_ok h
    exact ⟨later, hlater, .inr (Except.ok.inj h).symm⟩

-- The inductions follow the recursion of the values, from a node to its parts.
mutual

/-- Values are keyed once as deep as they go, by recursion on the node that has them. -/
theorem keyedOnce_of_value : ∀ (n : Node) {v : Value}, n.value = .ok v → v.KeyedOnce
  | .plain s, v, h => by
      rw [value] at h
      cases hs : Plain.meaning s with
      | error f => rw [hs] at h; cases h
      | ok w =>
          rw [hs] at h
          cases h
          exact keyedOnce_of_meaning hs
  | .quoted s, v, h => by
      rw [value] at h
      cases h
      exact .scalar nofun nofun
  | .list items, v, h => by
      rw [value] at h
      obtain ⟨vs, hvs, rfl⟩ := Leveled.exists_of_map_eq_ok h
      refine .list fun w hw => keyedOnce_of_mem_parts items ?_
      rw [Leveled.all_eq_ok_iff.1 hvs]
      exact List.mem_map_of_mem hw
  | .mapping fields, v, h => by
      rw [value] at h
      cases hfields : fieldsOf fields with
      | error f => rw [hfields] at h; cases h
      | ok both =>
          obtain ⟨hjoined, hown⟩ := soundFields_of_fieldsOf fields hfields
          rw [hfields] at h
          obtain ⟨fs, hfs, rfl⟩ := Leveled.exists_of_map_eq_ok h
          refine keyedOnce_mappingOf fun f hf => hjoined.append hown f.1 f.2 ?_
          rw [Leveled.all_eq_ok_iff.1 hfs]
          exact List.mem_map_of_mem hf

/-- So are the values of a list of nodes. -/
theorem keyedOnce_of_mem_parts : ∀ (ns : List Node) {v : Value}, .ok v ∈ parts ns → v.KeyedOnce
  | [], v, h => by
      rw [parts] at h
      cases h
  | n :: ns, v, h => by
      rw [parts] at h
      rcases List.mem_cons.1 h with hfirst | hlater
      · exact keyedOnce_of_value n (part_eq_ok_iff.1 hfirst.symm)
      · exact keyedOnce_of_mem_parts ns hlater

/-- So are those of fields, the ones in front and the ones that are merged. -/
theorem soundFields_of_fieldsOf : ∀ (fields : List (Node × Node))
    {both : List Field × List Field}, fieldsOf fields = .ok both →
      SoundFields both.1 ∧ SoundFields both.2
  | [], both, h => by
      rw [fieldsOf] at h
      cases h
      exact ⟨nofun, nofun⟩
  | (key, n) :: rest, both, h => by
      obtain ⟨⟨joined, own⟩, hrest, hboth⟩ := exists_of_fieldsOf_cons h
      obtain ⟨hjoined, hown⟩ := soundFields_of_fieldsOf rest hrest
      rcases hboth with ⟨taken, htaken, rfl⟩ | rfl
      · exact ⟨(soundFields_of_fieldsToTake n htaken).append hjoined, hown⟩
      · refine ⟨hjoined, fun k v hv => ?_⟩
        rcases List.mem_cons.1 hv with hfirst | hlater
        · obtain ⟨k', v', -, hvalue, hpair⟩ := Leveled.both_eq_ok_iff.1 hfirst.symm
          cases hpair
          exact keyedOnce_of_value n (part_eq_ok_iff.1 hvalue)
        · exact hown k v hlater

/-- So are those of a mapping that is merged into another one. -/
theorem soundFields_of_fieldsToTake : ∀ (n : Node) {fields : List Field},
    n.fieldsToTake = .ok fields → SoundFields fields
  | .mapping fields, taken, h => by
      rw [fieldsToTake] at h
      obtain ⟨both, hboth, rfl⟩ := exists_of_map_eq_ok h
      obtain ⟨hjoined, hown⟩ := soundFields_of_fieldsOf fields hboth
      exact hjoined.append hown
  | .list items, taken, h => by
      rw [fieldsToTake] at h
      obtain ⟨each, heach, rfl⟩ := exists_of_map_eq_ok h
      intro key v hv
      obtain ⟨fields, hfields, hv⟩ := List.mem_flatten.1 hv
      exact soundFields_of_mappingsToTake items heach fields (List.mem_reverse.1 hfields) key v hv
  | .plain s, taken, h => by
      rw [fieldsToTake] at h
      cases h
  | .quoted s, taken, h => by
      rw [fieldsToTake] at h
      cases h

/-- So are those of a list of such mappings. -/
theorem soundFields_of_mappingsToTake : ∀ (ns : List Node) {each : List (List Field)},
    mappingsToTake ns = .ok each → ∀ fields ∈ each, SoundFields fields
  | [], each, h => by
      rw [mappingsToTake] at h
      cases h
      nofun
  | .mapping fields :: rest, each, h => by
      rw [mappingsToTake] at h
      obtain ⟨both, hboth, h⟩ := exists_of_bind_eq_ok h
      obtain ⟨later, hlater, h⟩ := exists_of_bind_eq_ok h
      obtain ⟨hjoined, hown⟩ := soundFields_of_fieldsOf fields hboth
      cases h
      intro taken hmem
      rcases List.mem_cons.1 hmem with rfl | hlater'
      · exact hjoined.append hown
      · exact soundFields_of_mappingsToTake rest hlater taken hlater'
  | .list _ :: _, each, h => by simp [mappingsToTake] at h
  | .plain _ :: _, each, h => by simp [mappingsToTake] at h
  | .quoted _ :: _, each, h => by simp [mappingsToTake] at h

end

end Node

/-- What is read from a text has no key twice in any mapping. -/
theorem keyedOnce_of_read {text : String} {v : Value} (h : read text = .ok v) : v.KeyedOnce := by
  obtain ⟨ts, -, h⟩ := exists_of_bind_eq_ok h
  obtain ⟨node, -, h⟩ := exists_of_bind_eq_ok h
  cases node with
  | none =>
      cases h
      exact .scalar nofun nofun
  | some node =>
      change node.value.toExcept = .ok v at h
      cases hvalue : node.value with
      | fault level f => rw [hvalue] at h; cases h
      | ok w =>
          rw [hvalue] at h
          cases h
          exact node.keyedOnce_of_value hvalue

end SystemMap.Yaml
