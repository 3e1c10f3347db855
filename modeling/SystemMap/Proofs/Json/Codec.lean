/-
Readers that invert images. What records need of the codec is little (`Codec.Faithful`): numbers
that it carries, texts and names are read back from what they are written as, and whatever is
taken for a number is carried. Which numbers are carried is left open; those of up to
`Text.Numeral.digitLimit` digits are among them.

`Inverts` says the same of a reader of any type, and passes from the parts of a value to the
value: to what may be null, to lists, and to the fields of a record. A reader takes far more than
images, such as fields left out or truth values for numbers. What it makes of them has carried
numbers only, since they all have come through the codec, so it is read back from its image.
-/
import SystemMap.Json.Codec
import SystemMap.Proofs.Json.Pretty

namespace SystemMap.Json

variable {α β : Type}

-- ================================================================ results

namespace Checked

/-- What is made of a result is a value only if the result is one. -/
theorem map_eq_ok_iff {f : α → β} {x : Checked α} {b : β} :
    f <$> x = .ok b ↔ ∃ a, x = .ok a ∧ f a = b := by
  cases x with
  | ok a =>
      refine ⟨fun h => ⟨a, rfl, ok.inj h⟩, ?_⟩
      rintro ⟨_, ⟨⟩, hb⟩
      exact congrArg ok hb
  | refused issues => exact ⟨nofun, nofun⟩

/-- Results side by side are a value only if both are one. -/
theorem seq_eq_ok_iff {f : Checked (α → β)} {x : Checked α} {b : β} :
    f <*> x = .ok b ↔ ∃ g a, f = .ok g ∧ x = .ok a ∧ g a = b := by
  cases f with
  | ok g =>
      refine map_eq_ok_iff.trans ⟨fun ⟨a, ha, hb⟩ => ⟨g, a, rfl, ha, hb⟩, ?_⟩
      rintro ⟨_, a, ⟨⟩, ha, hb⟩
      exact ⟨a, ha, hb⟩
  | refused issues => exact ⟨nofun, nofun⟩

/-- A place matters to issues only. -/
theorem under_eq_ok_iff {place : Place} {x : Checked α} {a : α} :
    x.under place = .ok a ↔ x = .ok a := by
  cases x with
  | ok b => exact Iff.rfl
  | refused issues => exact ⟨nofun, nofun⟩

/-- A result that depends on another one is a value only if both are. -/
theorem andThen_eq_ok_iff {x : Checked α} {f : α → Checked β} {b : β} :
    x.andThen f = .ok b ↔ ∃ a, x = .ok a ∧ f a = .ok b := by
  cases x with
  | ok a => exact ⟨fun h => ⟨a, rfl, h⟩, fun ⟨_, ha, hb⟩ => by cases ha; exact hb⟩
  | refused issues => exact ⟨nofun, nofun⟩

end Checked

-- ================================================================= codecs

/-- What records need of the codec. The numbers that it carries are those for which `p` holds. -/
structure Codec.Faithful (c : Codec) (p : Int → Prop) : Prop where
  /-- A carried number is read from what it is written as. -/
  integer : ∀ {n}, p n → c.integer (c.ofInteger n) = .ok n
  /-- Whatever is taken for a whole number is carried. -/
  accepted : ∀ {j n}, c.integer j = .ok n → p n
  /-- Numbers are carried that are short enough to be written. -/
  short : ∀ {n}, Text.Numeral.isWritable n = true → p n
  /-- A text is read from what it is written as. -/
  text : ∀ s, c.text (c.ofText s) = .ok s
  /-- A named value is read from its name. -/
  choice : ∀ {α : Type} {ofName? : String → Option α} {s a}, ofName? s = some a →
    c.choice ofName? (c.ofName s) = .ok a
  literal : ∀ {α : Type} {ofName? : String → Option α} {s a}, ofName? s = some a →
    c.literal ofName? (c.ofName s) = .ok a
  /-- A kind is told by its name. -/
  tag : ∀ s, c.tag? (c.ofName s) = some s
  /-- Null is written for what is absent, and not for a number or a text. -/
  integer_ne_null : ∀ n, c.ofInteger n ≠ .null
  text_ne_null : ∀ s, c.ofText s ≠ .null

/-- Whether a reader takes the image of every value with carried numbers back to it, and makes
nothing but values with such numbers. -/
structure Inverts (p : Int → Prop) (numbers : α → List Int) (read : Reader α)
    (image : α → Json) : Prop where
  restores : ∀ {a}, (∀ n ∈ numbers a, p n) → read (image a) = .ok a
  carried : ∀ {j a}, read j = .ok a → ∀ n ∈ numbers a, p n

/-- Values without numbers. -/
def noNumbers (_ : α) : List Int := []

theorem forall_mem_noNumbers {p : Int → Prop} (a : α) : ∀ n ∈ noNumbers a, p n := nofun

section Single

variable {c : Codec} {p : Int → Prop} (hc : c.Faithful p)

include hc

/-- Whole numbers are read from themselves, as far as they are carried. -/
theorem inverts_integer : Inverts p (fun n => [n]) c.integer c.ofInteger where
  restores h := hc.integer (h _ List.mem_cons_self)
  carried h _ hn := List.mem_singleton.1 hn ▸ hc.accepted h

/-- Texts are read from themselves. -/
theorem inverts_text : Inverts p noNumbers c.text c.ofText where
  restores _ := hc.text _
  carried _ := forall_mem_noNumbers _

/-- Named values are read from their names. -/
theorem inverts_choice {ofName? : String → Option α} {name : α → String}
    (h : ∀ a, ofName? (name a) = some a) :
    Inverts p noNumbers (c.choice ofName?) fun a => c.ofName (name a) where
  restores _ := hc.choice (h _)
  carried _ := forall_mem_noNumbers _

end Single

-- ================================================================== parts

section Parts

variable {p : Int → Prop} {numbers : α → List Int} {read : Reader α} {image : α → Json}

/-- Null stands for an absent value alone. -/
theorem Inverts.option (h : Inverts p numbers read image) (hnull : ∀ a, image a ≠ .null) :
    Inverts p (fun o => o.toList.flatMap numbers) (orNull read) (Json.ofOption image) where
  restores {o} ho := by
    cases o with
    | none => rfl
    | some a =>
        have hread : orNull read (image a) = (read (image a)).map some := by
          unfold orNull
          split
          · next hj => exact absurd hj (hnull a)
          · rfl
        rw [Option.toList_some, List.flatMap_singleton] at ho
        exact hread.trans (congrArg _ (h.restores ho))
  carried {j o} ho := by
    unfold orNull at ho
    split at ho
    · cases ho
      nofun
    · obtain ⟨a, ha, rfl⟩ := Checked.map_eq_ok_iff.1 ho
      rw [Option.toList_some, List.flatMap_singleton]
      exact h.carried ha

/-- Items are read one by one, at whatever position the first stands. -/
theorem Inverts.readItems_ok (h : Inverts p numbers read image) (i : Nat) {as : List α}
    (has : ∀ n ∈ as.flatMap numbers, p n) : readItems read i (as.map image) = .ok as := by
  induction as generalizing i with
  | nil => rfl
  | cons a later ih =>
      rw [List.flatMap_cons, List.forall_mem_append] at has
      exact Checked.seq_eq_ok_iff.2 ⟨_, later,
        Checked.map_eq_ok_iff.2 ⟨a, Checked.under_eq_ok_iff.2 (h.restores has.1), rfl⟩,
        ih (i + 1) has.2, rfl⟩

/-- Each item that is read has carried numbers. -/
theorem Inverts.carried_of_readItems (h : Inverts p numbers read image) {i : Nat}
    {js : List Json} {as : List α} (has : readItems read i js = .ok as) :
    ∀ n ∈ as.flatMap numbers, p n := by
  induction js generalizing i as with
  | nil =>
      cases has
      nofun
  | cons j later ih =>
      obtain ⟨_, as, hfirst, hlater, rfl⟩ := Checked.seq_eq_ok_iff.1 has
      obtain ⟨a, ha, rfl⟩ := Checked.map_eq_ok_iff.1 hfirst
      rw [List.flatMap_cons, List.forall_mem_append]
      exact ⟨h.carried (Checked.under_eq_ok_iff.1 ha), ih hlater⟩

/-- A list is read from the images of its items. -/
theorem Inverts.list (h : Inverts p numbers read image) :
    Inverts p (·.flatMap numbers) (readList read) (Json.ofList image) where
  restores has := h.readItems_ok 0 has
  carried {j as} has := by
    cases j with
    | array items => exact h.carried_of_readItems has
    | _ => cases has

-- ================================================================= fields

variable {fields : Fields} {a absent : α} {key : String}

/-- A field that holds an image. -/
theorem Inverts.required_ok (h : Inverts p numbers read image) (key : String)
    (ha : ∀ n ∈ numbers a, p n) (hfield : fields.lookup key = some (image a)) :
    fields.required key read = .ok a := by
  unfold Fields.required
  simp only [hfield]
  exact Checked.under_eq_ok_iff.2 (h.restores ha)

/-- The same for a field that may be left out, but is there. -/
theorem Inverts.optional_ok (h : Inverts p numbers read image) (key : String)
    (ha : ∀ n ∈ numbers a, p n) (hfield : fields.lookup key = some (image a)) :
    fields.optional key absent read = .ok a := by
  unfold Fields.optional
  simp only [hfield]
  exact Checked.under_eq_ok_iff.2 (h.restores ha)

/-- A field that holds a text. -/
theorem required_text {c : Codec} (hc : c.Faithful p) (key s : String)
    (hfield : fields.lookup key = some (c.ofText s)) : fields.required key c.text = .ok s :=
  (inverts_text hc).required_ok key (forall_mem_noNumbers s) hfield

/-- What is found in a field that has to be there. -/
theorem Inverts.carried_required (h : Inverts p numbers read image)
    (ha : fields.required key read = .ok a) : ∀ n ∈ numbers a, p n := by
  unfold Fields.required at ha
  split at ha
  · exact h.carried (Checked.under_eq_ok_iff.1 ha)
  · cases ha

/-- What is found in a field that may be left out, or stands for it. -/
theorem Inverts.carried_optional (h : Inverts p numbers read image)
    (habsent : ∀ n ∈ numbers absent, p n)
    (ha : fields.optional key absent read = .ok a) : ∀ n ∈ numbers a, p n := by
  unfold Fields.optional at ha
  split at ha
  · exact h.carried (Checked.under_eq_ok_iff.1 ha)
  · cases ha
    exact habsent

/-- The items of a list that may be left out. -/
theorem Inverts.carried_list {as : List α} (h : Inverts p numbers read image)
    (has : fields.optional key [] (readList read) = .ok as) :
    ∀ n ∈ as.flatMap numbers, p n :=
  h.list.carried_optional (List.forall_mem_nil _) has

/-- A record is read from an object. -/
theorem exists_of_readRecord {read : Fields → Checked α} {j : Json}
    (h : readRecord read j = .ok a) : ∃ fields, read fields = .ok a := by
  cases j with
  | object fields => exact ⟨fields, h⟩
  | _ => cases h

end Parts

/-- The tag of an image is the right one. -/
theorem kind_ok {c : Codec} {p : Int → Prop} (hc : c.Faithful p) (kind : String)
    (fields : Fields) : Fields.kind c (("kind", c.ofName kind) :: fields) kind = .ok () := by
  unfold Fields.kind Fields.optional
  rw [List.lookup_cons_self]
  exact Checked.under_eq_ok_iff.2 (hc.literal (if_pos rfl))

-- ================================================================== texts

/-- How values are written as texts and read from them. -/
structure TextForm where
  write : Json → String
  read? : String → Option Json

/-- Texts of values with whole numbers are read back, if `q` holds of all their numbers. -/
def TextForm.Keeps (t : TextForm) (q : Int → Prop) : Prop :=
  ∀ {j : Json}, j.Within q → t.read? (t.write j) = some j

end SystemMap.Json
