/-
What is written as JSON spells the value that was written. A value is written with line breaks
and blanks between its parts, and behind it comes a comma, a line break or the end, so a number
ends where it was ended (`endsNumber_items`, `endsNumber_fields`). The proof follows the writer:
one case for each kind of value, and the items and fields after the first along their lists.

The writer has a text for other numbers too, but the grammar has not; so this is about values
whose numbers are whole, and it goes for any bound on these (`Within`).
-/
import SystemMap.Json.Text
import SystemMap.Proofs.Json.Grammar

namespace SystemMap.Json

-- ============================================================= the strings

/-- What a control looks like as four digits. -/
theorem unit_hexDigits : ∀ n < 0x20,
    (match Text.hexDigits 4 n with
      | [a, b, c, d] => unit? a b c d
      | _ => none) = some n := by
  decide

/-- A character, escaped or not, spells itself. -/
theorem spells_escapeChar (c : Char) {cs s rest : List Char} (h : SpellsChars cs s rest) :
    SpellsChars (escapeChar c ++ cs) (c :: s) rest := by
  unfold escapeChar
  split
  · next hc =>
    refine .letter ?_ h
    rcases (Bool.or_eq_true _ _ ▸ hc : _ ∨ _) with hc | hc
    · rw [of_decide_eq_true hc]
      rfl
    · rw [of_decide_eq_true hc]
      rfl
  · next hplain =>
    split
    · next hc => exact .letter (hc ▸ rfl) h
    split
    · next hc => exact .letter (hc ▸ rfl) h
    split
    · next hc => exact .letter (hc ▸ rfl) h
    split
    · next hc => exact .letter (hc ▸ rfl) h
    split
    · next hc => exact .letter (hc ▸ rfl) h
    split
    · next hcontrol =>
      have hunit := unit_hexDigits c.toNat hcontrol
      split at hunit
      · next hdigits =>
        rw [hdigits]
        have hspelled := SpellsChars.unit hunit c.valid h
        rw [Char.ofNat_toNat] at hspelled
        exact hspelled
      · cases hunit
    · next hprintable =>
      have hne : c ≠ '"' ∧ c ≠ '\\' := by simpa using hplain
      exact .plain hne.1 hne.2 (Nat.not_lt.1 hprintable) h

/-- A string in quotation marks spells itself. -/
theorem spells_quoted (s : String) (rest : List Char) :
    ∃ cs, (quoted s).toList ++ rest = '"' :: cs ∧ SpellsChars cs s.toList rest := by
  have hchars : ∀ s : List Char, SpellsChars (s.flatMap escapeChar ++ '"' :: rest) s rest := by
    intro s
    induction s with
    | nil => exact .close
    | cons c s ih =>
        rw [List.flatMap_cons, List.append_assoc]
        exact spells_escapeChar c ih
  refine ⟨_, ?_, hchars s.toList⟩
  unfold quoted
  simp

-- ============================================================= the numbers

/-- A number is written without a zero in front. -/
theorem isNumeral_toDigits (m : Nat) : IsNumeral (Nat.toDigits 10 m) := by
  refine ⟨Text.Numeral.toList_toString m ▸ Text.Numeral.isDigits_toString m, ?_⟩
  intro later hzero
  by_contra hne
  -- With a zero in front the number would be too small for its length.
  have hdigits : ∀ c ∈ later, isDigit c = true := fun c hc =>
    (Text.Numeral.toList_toString m ▸ Text.Numeral.isDigits_toString m).2 c
      (hzero ▸ List.mem_cons_of_mem _ hc)
  have hvalue : m = Nat.ofDigitChars 10 later 0 := by
    have hback : Nat.ofDigitChars 10 (Nat.toDigits 10 m) 0 = m := Nat.ofDigitChars_ten_toDigits
    rw [hzero, Nat.ofDigitChars_cons] at hback
    exact hback.symm
  have hshort := (Nat.length_toDigits_le_iff (b := 10) (by decide)
    (List.length_pos_iff.2 hne)).2 (hvalue ▸ Text.Numeral.ofDigitChars_lt hdigits)
  rw [hzero, List.length_cons] at hshort
  exact Nat.not_succ_le_self _ hshort

/-- A number spells itself, where no digit follows. -/
theorem spells_toString (n : Int) {rest : List Char} (hend : EndsNumber rest) :
    SpellsNumber ((toString n).toList ++ rest) n rest := by
  have hplain : ∀ m : Nat, Nat.ofDigitChars 10 (Nat.toDigits 10 m) 0 = m := fun m =>
    Nat.ofDigitChars_ten_toDigits
  cases n with
  | ofNat m =>
      have hspelled := SpellsNumber.plain rfl (isNumeral_toDigits m) hend
      rw [hplain, ← Text.Numeral.toList_toString] at hspelled
      exact hspelled
  | negSucc m =>
      have hspelled := SpellsNumber.minus rfl (isNumeral_toDigits (m + 1)) hend
      rw [hplain] at hspelled
      have htext : (toString (Int.negSucc m)).toList = '-' :: Nat.toDigits 10 (m + 1) := by
        show ("-" ++ toString (m + 1)).toList = _
        rw [String.toList_append]
        exact congrArg _ Nat.toList_repr
      rw [htext]
      exact hspelled

-- ============================================================== the values

/-- A value whose numbers are whole, and all of a kind. -/
inductive Within (p : Int → Prop) : Json → Prop
  | null : Within p .null
  | bool (b : Bool) : Within p (.bool b)
  | int {n : Int} (h : p n) : Within p (.int n)
  | text (s : String) : Within p (.text s)
  | array {items : List Json} (h : ∀ j ∈ items, Within p j) : Within p (.array items)
  | object {fields : List (String × Json)} (h : ∀ f ∈ fields, Within p f.2) :
      Within p (.object fields)

section Within

variable {p : Int → Prop}

@[simp] theorem within_null : null.Within p := .null

@[simp] theorem within_text (s : String) : (text s).Within p := .text s

@[simp] theorem within_int_iff {n : Int} : (int n).Within p ↔ p n := ⟨fun | .int h => h, .int⟩

@[simp] theorem within_array_iff {items : List Json} :
    (array items).Within p ↔ ∀ j ∈ items, j.Within p :=
  ⟨fun | .array h => h, .array⟩

@[simp] theorem within_object_iff {fields : List (String × Json)} :
    (object fields).Within p ↔ ∀ f ∈ fields, f.2.Within p :=
  ⟨fun | .object h => h, .object⟩

end Within

/-- A new line is blank up to what stands on it. -/
theorem skip_freshLine (depth : Nat) (cs : List Char) :
    skip ((freshLine depth).toList ++ cs) = skip cs := by
  refine skip_append (fun c hc => ?_) cs
  unfold freshLine at hc
  simp only [String.toList_append, String.toList_ofList] at hc
  rcases List.mem_append.1 hc with hc | hc
  · rw [List.mem_singleton.1 hc]
    rfl
  · rw [List.eq_of_mem_replicate hc]
    rfl

/-- A number ends before a new line. -/
theorem endsNumber_freshLine (depth : Nat) (cs : List Char) :
    EndsNumber ((freshLine depth).toList ++ cs) := by
  unfold freshLine
  rw [String.toList_append]
  intro c hc
  cases hc
  rfl

/-- Behind an item comes a comma or the line of the closing bracket. -/
theorem endsNumber_items (depth d : Nat) (items : List Json) (cs : List Char) :
    EndsNumber ((writeItems depth items).toList ++ ((freshLine d).toList ++ cs)) := by
  cases items with
  | nil => exact endsNumber_freshLine d cs
  | cons item items =>
      intro c hc
      unfold writeItems at hc
      simp only [String.toList_append] at hc
      cases hc
      rfl

/-- Behind the value of a field comes a comma or the line of the closing brace. -/
theorem endsNumber_fields (depth d : Nat) (fields : List (String × Json)) (cs : List Char) :
    EndsNumber ((writeFields depth fields).toList ++ ((freshLine d).toList ++ cs)) := by
  cases fields with
  | nil => exact endsNumber_freshLine d cs
  | cons field fields =>
      intro c hc
      unfold writeFields at hc
      simp only [String.toList_append] at hc
      cases hc
      rfl

theorem isGap_of_startsNumber {c : Char} (h : startsNumber c = true) : isGap c = false := by
  have hdigits : ∀ d < 10, isGap (Nat.digitChar d) = false := by decide
  rcases (Bool.or_eq_true _ _ ▸ h : _ ∨ _) with hminus | hdigit
  · rw [of_decide_eq_true hminus]
    rfl
  · obtain ⟨d, hd, rfl⟩ := exists_digitChar hdigit
    exact hdigits d hd

/-- No value starts with a blank. -/
theorem Spells.skip_eq {cs rest : List Char} {j : Json} (h : Spells cs j rest) : skip cs = cs := by
  cases h with
  | int h =>
      cases cs with
      | nil => rfl
      | cons c cs => exact skip_cons (isGap_of_startsNumber h.starts) cs
  | _ => exact skip_cons rfl _

/-- A value on a fresh line. -/
theorem Spells.on_freshLine {cs rest : List Char} {j : Json} (h : Spells cs j rest) (depth : Nat) :
    Spells (skip ((freshLine depth).toList ++ cs)) j rest := by
  rw [skip_freshLine, h.skip_eq]
  exact h

/-- A field on a fresh line, with a blank behind its colon. -/
theorem spells_field (depth : Nat) (key : String) {value : Json} {cs rest : List Char}
    (h : Spells cs value rest) :
    SpellsField (skip ((freshLine depth).toList ++ ((quoted key).toList ++ (':' :: ' ' :: cs))))
      (key, value) rest := by
  obtain ⟨chars, hquoted, hkey⟩ := spells_quoted key (':' :: ' ' :: cs)
  have hvalue : Spells (skip (' ' :: cs)) value rest := by
    have hblank : skip (' ' :: cs) = skip cs := rfl
    rw [hblank, h.skip_eq]
    exact h
  have hfield := SpellsField.mk hkey (skip_cons rfl _) hvalue
  rw [String.ofList_toList] at hfield
  rw [skip_freshLine, hquoted, skip_cons rfl]
  exact hfield

mutual

/-- A value spells itself wherever a number would end. -/
theorem spells_write {p : Int → Prop} (depth : Nat) :
    ∀ j : Json, j.Within p → ∀ rest, EndsNumber rest →
    Spells ((write depth j).toList ++ rest) j rest
  | .null, _, rest, _ => by
      unfold write
      exact .null
  | .bool true, _, rest, _ => by
      unfold write
      exact .yes
  | .bool false, _, rest, _ => by
      unfold write
      exact .no
  | .int n, _, rest, hend => .int (spells_toString n hend)
  | .real x, h, rest, _ => nomatch h
  | .text s, _, rest, _ => by
      obtain ⟨cs, hquoted, hchars⟩ := spells_quoted s rest
      have hspelled := Spells.text hchars
      rw [String.ofList_toList, ← hquoted] at hspelled
      exact hspelled
  | .array [], _, rest, _ => by
      unfold write
      exact .emptyArray (skip_cons rfl rest)
  | .array (item :: items), .array h, rest, _ => by
      obtain ⟨hitem, hitems⟩ := List.forall_mem_cons.1 h
      unfold write
      simp only [String.toList_append, List.append_assoc]
      have hfirst := spells_write (depth + 1) item hitem _
        (endsNumber_items (depth + 1) depth items (']' :: rest))
      exact .array (hfirst.on_freshLine (depth + 1))
        (spells_writeItems (depth + 1) depth items hitems rest)
  | .object [], _, rest, _ => by
      unfold write
      exact .emptyObject (skip_cons rfl rest)
  | .object ((key, value) :: fields), .object h, rest, _ => by
      obtain ⟨hvalue, hfields⟩ := List.forall_mem_cons.1 h
      unfold write
      simp only [String.toList_append, List.append_assoc]
      have hfirst := spells_write (depth + 1) value hvalue _
        (endsNumber_fields (depth + 1) depth fields ('\x7d' :: rest))
      exact .object (spells_field (depth + 1) key hfirst)
        (spells_writeFields (depth + 1) depth fields hfields rest)

/-- Later items spell themselves, with the comma in front of each. -/
theorem spells_writeItems {p : Int → Prop} (depth d : Nat) :
    ∀ items : List Json, (∀ j ∈ items, j.Within p) →
    ∀ rest, SpellsItems (skip ((writeItems depth items).toList ++
      ((freshLine d).toList ++ ']' :: rest))) items rest
  | [], _, rest => by
      unfold writeItems
      rw [String.toList_empty, List.nil_append, skip_freshLine, skip_cons rfl]
      exact .close
  | item :: items, h, rest => by
      obtain ⟨hitem, hitems⟩ := List.forall_mem_cons.1 h
      unfold writeItems
      simp only [String.toList_append, List.append_assoc]
      have hnext := spells_write depth item hitem _
        (endsNumber_items depth d items (']' :: rest))
      exact .comma (hnext.on_freshLine depth) (spells_writeItems depth d items hitems rest)

/-- Later fields spell themselves, with the comma in front of each. -/
theorem spells_writeFields {p : Int → Prop} (depth d : Nat) : ∀ fields : List (String × Json),
    (∀ f ∈ fields, f.2.Within p) → ∀ rest, SpellsFields (skip ((writeFields depth fields).toList ++
      ((freshLine d).toList ++ '\x7d' :: rest))) fields rest
  | [], _, rest => by
      unfold writeFields
      rw [String.toList_empty, List.nil_append, skip_freshLine, skip_cons rfl]
      exact .close
  | (key, value) :: fields, h, rest => by
      obtain ⟨hvalue, hfields⟩ := List.forall_mem_cons.1 h
      unfold writeFields
      simp only [String.toList_append, List.append_assoc]
      have hnext := spells_write depth value hvalue _
        (endsNumber_fields depth d fields ('\x7d' :: rest))
      exact .comma (spells_field depth key hnext)
        (spells_writeFields depth d fields hfields rest)

end

end SystemMap.Json
