/-
JSON as a grammar. `Spells cs j rest` says that the text `cs` starts with a spelling of the value
`j`, and that `rest` is left behind it. A spelling has any blanks between its parts, and a
character of a string stands for itself or is escaped in any way that JSON has. Numbers with a
point or an exponent are left out, so the values are those whose numbers are whole.

A number goes as far as it can; everything else tells by its characters where it ends. So a text
starts with a spelling of one value at most (`Spells.unique`).
-/
import SystemMap.Json
import SystemMap.Proofs.Scan.Lexeme

namespace SystemMap.Json

-- ============================================================== the blanks

/-- Blanks between the parts of a value. -/
def isGap (c : Char) : Bool := c = ' ' || c = '\t' || c = '\n' || c = '\r'

/-- A text without the blanks before it. -/
def skip (cs : List Char) : List Char := cs.dropWhile isGap

/-- A character that is no blank is not skipped. -/
theorem skip_cons {c : Char} (h : isGap c = false) (cs : List Char) : skip (c :: cs) = c :: cs := by
  unfold skip
  rw [List.dropWhile_cons, h]
  rfl

/-- Blanks are skipped, however many. -/
theorem skip_append {gap : List Char} (h : ∀ c ∈ gap, isGap c = true) (cs : List Char) :
    skip (gap ++ cs) = skip cs := List.dropWhile_append_of_pos h

-- ============================================================= the strings

/-- The value of a digit of base sixteen. -/
def hexValue? (c : Char) : Option Nat :=
  if '0' ≤ c ∧ c ≤ '9' then some (c.toNat - 48)
  else if 'a' ≤ c ∧ c ≤ 'f' then some (c.toNat - 87)
  else if 'A' ≤ c ∧ c ≤ 'F' then some (c.toNat - 55)
  else none

/-- The value of four digits of base sixteen. -/
def unit? (a b c d : Char) : Option Nat := do
  let a ← hexValue? a
  let b ← hexValue? b
  let c ← hexValue? c
  let d ← hexValue? d
  return ((a * 16 + b) * 16 + c) * 16 + d

/-- What a letter stands for behind a backslash. -/
def escaped? : Char → Option Char
  | '"' => some '"'
  | '\\' => some '\\'
  | '/' => some '/'
  | 'b' => some '\x08'
  | 'f' => some '\x0c'
  | 'n' => some '\n'
  | 'r' => some '\r'
  | 't' => some '\t'
  | _ => none

/-- `SpellsChars cs s rest`: the text `cs` starts with the characters `s` of a string and the quote
that closes it. -/
inductive SpellsChars : List Char → List Char → List Char → Prop
  | close {rest : List Char} : SpellsChars ('"' :: rest) [] rest
  | plain {c : Char} {cs s rest : List Char} (hquote : c ≠ '"') (hback : c ≠ '\\')
      (hprintable : 0x20 ≤ c.toNat) (h : SpellsChars cs s rest) :
      SpellsChars (c :: cs) (c :: s) rest
  | letter {e c : Char} {cs s rest : List Char} (he : escaped? e = some c)
      (h : SpellsChars cs s rest) : SpellsChars ('\\' :: e :: cs) (c :: s) rest
  | unit {a b c d : Char} {n : Nat} {cs s rest : List Char} (hn : unit? a b c d = some n)
      (hscalar : n.isValidChar) (h : SpellsChars cs s rest) :
      SpellsChars ('\\' :: 'u' :: a :: b :: c :: d :: cs) (Char.ofNat n :: s) rest
  | pair {a b c d a' b' c' d' : Char} {m n : Nat} {cs s rest : List Char}
      (hm : unit? a b c d = some m) (hhigh : 0xD800 ≤ m ∧ m < 0xDC00)
      (hn : unit? a' b' c' d' = some n) (hlow : 0xDC00 ≤ n ∧ n < 0xE000)
      (h : SpellsChars cs s rest) :
      SpellsChars ('\\' :: 'u' :: a :: b :: c :: d :: '\\' :: 'u' :: a' :: b' :: c' :: d' :: cs)
        (Char.ofNat (0x10000 + (m - 0xD800) * 0x400 + (n - 0xDC00)) :: s) rest

/-- A number of four digits that is no half of a pair is not one that is. -/
theorem unit_ne_pair {a b c d : Char} {m n : Nat} (hn : unit? a b c d = some n)
    (hscalar : n.isValidChar) (hm : unit? a b c d = some m) (hhigh : 0xD800 ≤ m ∧ m < 0xDC00) :
    False := by
  obtain rfl := Option.some.inj (hn.symm.trans hm)
  unfold Nat.isValidChar at hscalar
  omega

/-- Characters of a string spell one string, up to the one quotation mark that ends it. -/
theorem SpellsChars.unique {cs s rest s' rest' : List Char} (h : SpellsChars cs s rest)
    (h' : SpellsChars cs s' rest') : s = s' ∧ rest = rest' := by
  induction h generalizing s' rest' with
  | close =>
      cases h' with
      | close => exact ⟨rfl, rfl⟩
      | plain hquote => exact absurd rfl hquote
  | plain hquote hback hprintable h ih =>
      cases h' with
      | close => exact absurd rfl hquote
      | plain _ _ _ h' =>
          obtain ⟨rfl, rfl⟩ := ih h'
          exact ⟨rfl, rfl⟩
      | letter => exact absurd rfl hback
      | unit => exact absurd rfl hback
      | pair => exact absurd rfl hback
  | letter he h ih =>
      cases h' with
      | plain _ hback => exact absurd rfl hback
      | letter he' h' =>
          obtain ⟨rfl, rfl⟩ := ih h'
          obtain rfl := Option.some.inj (he.symm.trans he')
          exact ⟨rfl, rfl⟩
      | unit => cases he
      | pair => cases he
  | unit hn hscalar h ih =>
      cases h' with
      | plain _ hback => exact absurd rfl hback
      | letter he => cases he
      | unit hn' _ h' =>
          obtain ⟨rfl, rfl⟩ := ih h'
          obtain rfl := Option.some.inj (hn.symm.trans hn')
          exact ⟨rfl, rfl⟩
      | pair hm hhigh => exact (unit_ne_pair hn hscalar hm hhigh).elim
  | pair hm hhigh hn hlow h ih =>
      cases h' with
      | plain _ hback => exact absurd rfl hback
      | letter he => cases he
      | unit hn' hscalar => exact (unit_ne_pair hn' hscalar hm hhigh).elim
      | pair hm' _ hn' _ h' =>
          obtain ⟨rfl, rfl⟩ := ih h'
          obtain rfl := Option.some.inj (hm.symm.trans hm')
          obtain rfl := Option.some.inj (hn.symm.trans hn')
          exact ⟨rfl, rfl⟩

-- ============================================================= the numbers

/-- What a number goes on with. -/
def isNumberPart (c : Char) : Bool := isDigit c || c = '.' || c = 'e' || c = 'E'

/-- Whether a number is at its end before a text. -/
def EndsNumber (rest : List Char) : Prop := ∀ c ∈ rest.head?, isNumberPart c = false

/-- Digits, with no zero in front of others. -/
def IsNumeral (ds : List Char) : Prop := IsDigits ds ∧ ∀ later, ds = '0' :: later → later = []

/-- `SpellsNumber cs n rest`: the text `cs` starts with digits of `n`, with a minus or without. -/
inductive SpellsNumber : List Char → Int → List Char → Prop
  | plain {cs ds rest : List Char} (hcs : cs = ds ++ rest) (hds : IsNumeral ds)
      (hend : EndsNumber rest) : SpellsNumber cs (Nat.ofDigitChars 10 ds 0) rest
  | minus {cs ds rest : List Char} (hcs : cs = ds ++ rest) (hds : IsNumeral ds)
      (hend : EndsNumber rest) : SpellsNumber ('-' :: cs) (-(Nat.ofDigitChars 10 ds 0)) rest

/-- The digits of a text come to their end in one place. -/
theorem digits_unique {ds rest ds' rest' : List Char} (hds : IsNumeral ds) (hend : EndsNumber rest)
    (hds' : IsNumeral ds') (hend' : EndsNumber rest') (h : ds ++ rest = ds' ++ rest') :
    ds = ds' ∧ rest = rest' := by
  have hstop : ∀ {rest : List Char}, EndsNumber rest → ∀ c ∈ rest.head?, isDigit c = false := by
    intro rest hend c hc
    have hpart := hend c hc
    unfold isNumberPart at hpart
    simp only [Bool.or_eq_false_iff] at hpart
    exact hpart.1.1.1
  have hsame : ds = ds' := by
    rw [← takeWhile_run hds.1.2 (hstop hend), h, takeWhile_run hds'.1.2 (hstop hend')]
  exact ⟨hsame, List.append_cancel_left (hsame ▸ h)⟩

/-- What a number starts with. -/
def startsNumber (c : Char) : Bool := c = '-' || isDigit c

/-- A number starts with a sign or a digit. -/
theorem SpellsNumber.starts {c : Char} {cs rest : List Char} {n : Int}
    (h : SpellsNumber (c :: cs) n rest) : startsNumber c = true := by
  cases h with
  | plain hcs hds =>
      obtain ⟨d, ds, rfl, hd⟩ := hds.1.exists_cons
      cases hcs
      unfold startsNumber
      rw [hd, Bool.or_true]
  | minus => rfl

/-- Digits spell one number, as far as they go. -/
theorem SpellsNumber.unique {cs rest rest' : List Char} {n n' : Int} (h : SpellsNumber cs n rest)
    (h' : SpellsNumber cs n' rest') : n = n' ∧ rest = rest' := by
  have hminus : ∀ {cs ds rest : List Char}, IsNumeral ds → '-' :: cs ≠ ds ++ rest := by
    intro cs ds rest hds hcs
    obtain ⟨d, ds, rfl, hd⟩ := hds.1.exists_cons
    cases hcs
    cases hd
  cases h with
  | plain hcs hds hend =>
      cases h' with
      | plain hcs' hds' hend' =>
          obtain ⟨rfl, rfl⟩ := digits_unique hds hend hds' hend' (hcs.symm.trans hcs')
          exact ⟨rfl, rfl⟩
      | minus => exact absurd hcs (hminus hds)
  | minus hcs hds hend =>
      cases h' with
      | plain hcs' hds' => exact absurd hcs' (hminus hds')
      | minus hcs' hds' hend' =>
          obtain ⟨rfl, rfl⟩ := digits_unique hds hend hds' hend' (hcs.symm.trans hcs')
          exact ⟨rfl, rfl⟩

-- ============================================================== the values

mutual

/-- `Spells cs j rest`: the text `cs` starts with a spelling of `j`, and `rest` is left. -/
inductive Spells : List Char → Json → List Char → Prop
  | null {rest : List Char} : Spells ('n' :: 'u' :: 'l' :: 'l' :: rest) .null rest
  | yes {rest : List Char} : Spells ('t' :: 'r' :: 'u' :: 'e' :: rest) (.bool true) rest
  | no {rest : List Char} : Spells ('f' :: 'a' :: 'l' :: 's' :: 'e' :: rest) (.bool false) rest
  | int {cs rest : List Char} {n : Int} (h : SpellsNumber cs n rest) : Spells cs (.int n) rest
  | text {cs s rest : List Char} (h : SpellsChars cs s rest) :
      Spells ('"' :: cs) (.text (String.ofList s)) rest
  | emptyArray {cs rest : List Char} (h : skip cs = ']' :: rest) :
      Spells ('[' :: cs) (.array []) rest
  | array {cs mid rest : List Char} {item : Json} {items : List Json}
      (hitem : Spells (skip cs) item mid) (hitems : SpellsItems (skip mid) items rest) :
      Spells ('[' :: cs) (.array (item :: items)) rest
  | emptyObject {cs rest : List Char} (h : skip cs = '\x7d' :: rest) :
      Spells ('\x7b' :: cs) (.object []) rest
  | object {cs mid rest : List Char} {field : String × Json} {fields : List (String × Json)}
      (hfield : SpellsField (skip cs) field mid) (hfields : SpellsFields (skip mid) fields rest) :
      Spells ('\x7b' :: cs) (.object (field :: fields)) rest

/-- The items after the first, up to the end of the array. -/
inductive SpellsItems : List Char → List Json → List Char → Prop
  | close {rest : List Char} : SpellsItems (']' :: rest) [] rest
  | comma {cs mid rest : List Char} {item : Json} {items : List Json}
      (hitem : Spells (skip cs) item mid) (hitems : SpellsItems (skip mid) items rest) :
      SpellsItems (',' :: cs) (item :: items) rest

/-- A field, with the colon between its key and its value. -/
inductive SpellsField : List Char → String × Json → List Char → Prop
  | mk {cs key mid after rest : List Char} {value : Json} (hkey : SpellsChars cs key mid)
      (hcolon : skip mid = ':' :: after) (hvalue : Spells (skip after) value rest) :
      SpellsField ('"' :: cs) (String.ofList key, value) rest

/-- The fields after the first, up to the end of the object. -/
inductive SpellsFields : List Char → List (String × Json) → List Char → Prop
  | close {rest : List Char} : SpellsFields ('\x7d' :: rest) [] rest
  | comma {cs mid rest : List Char} {field : String × Json} {fields : List (String × Json)}
      (hfield : SpellsField (skip cs) field mid) (hfields : SpellsFields (skip mid) fields rest) :
      SpellsFields (',' :: cs) (field :: fields) rest

end

/-- Nothing that closes an array starts a value. -/
theorem not_spells_bracket {cs rest : List Char} {j : Json} : ¬ Spells (']' :: cs) j rest := by
  intro h
  cases h with
  | int h => exact absurd h.starts (by decide)

mutual

/-- Characters spell one value. A value is told by its first character, and its parts spell one
value each. -/
theorem Spells.unique {cs rest rest' : List Char} {j j' : Json} :
    Spells cs j rest → Spells cs j' rest' → j = j' ∧ rest = rest'
  | .null, h' => by
      cases h' with
      | null => exact ⟨rfl, rfl⟩
      | int h => exact absurd h.starts (by decide)
  | .yes, h' => by
      cases h' with
      | yes => exact ⟨rfl, rfl⟩
      | int h => exact absurd h.starts (by decide)
  | .no, h' => by
      cases h' with
      | no => exact ⟨rfl, rfl⟩
      | int h => exact absurd h.starts (by decide)
  | .int h, h' => by
      cases h' with
      | int h' =>
          obtain ⟨rfl, rfl⟩ := h.unique h'
          exact ⟨rfl, rfl⟩
      | _ => exact absurd h.starts (by decide)
  | .text h, h' => by
      cases h' with
      | text h' =>
          obtain ⟨rfl, rfl⟩ := h.unique h'
          exact ⟨rfl, rfl⟩
      | int h => exact absurd h.starts (by decide)
  | .emptyArray h, h' => by
      cases h' with
      | emptyArray h' => exact ⟨rfl, (List.cons.inj (h.symm.trans h')).2⟩
      | array hitem => exact absurd (h ▸ hitem) not_spells_bracket
      | int h => exact absurd h.starts (by decide)
  | .array hitem hitems, h' => by
      cases h' with
      | emptyArray h => exact absurd (h ▸ hitem) not_spells_bracket
      | array hitem' hitems' =>
          obtain ⟨rfl, rfl⟩ := hitem.unique hitem'
          obtain ⟨rfl, rfl⟩ := hitems.unique hitems'
          exact ⟨rfl, rfl⟩
      | int h => exact absurd h.starts (by decide)
  | .emptyObject h, h' => by
      cases h' with
      | emptyObject h' => exact ⟨rfl, (List.cons.inj (h.symm.trans h')).2⟩
      | object hfield =>
          rw [h] at hfield
          cases hfield
      | int h => exact absurd h.starts (by decide)
  | .object hfield hfields, h' => by
      cases h' with
      | emptyObject h =>
          rw [h] at hfield
          cases hfield
      | object hfield' hfields' =>
          obtain ⟨rfl, rfl⟩ := hfield.unique hfield'
          obtain ⟨rfl, rfl⟩ := hfields.unique hfields'
          exact ⟨rfl, rfl⟩
      | int h => exact absurd h.starts (by decide)

/-- So do items up to the bracket that closes them. -/
theorem SpellsItems.unique {cs rest rest' : List Char} {items items' : List Json} :
    SpellsItems cs items rest → SpellsItems cs items' rest' → items = items' ∧ rest = rest'
  | .close, h' => by
      cases h'
      exact ⟨rfl, rfl⟩
  | .comma hitem hitems, h' => by
      cases h' with
      | comma hitem' hitems' =>
          obtain ⟨rfl, rfl⟩ := hitem.unique hitem'
          obtain ⟨rfl, rfl⟩ := hitems.unique hitems'
          exact ⟨rfl, rfl⟩

theorem SpellsField.unique {cs rest rest' : List Char} {field field' : String × Json} :
    SpellsField cs field rest → SpellsField cs field' rest' → field = field' ∧ rest = rest'
  | .mk hkey hcolon hvalue, h' => by
      cases h' with
      | mk hkey' hcolon' hvalue' =>
          obtain ⟨rfl, rfl⟩ := hkey.unique hkey'
          cases hcolon.symm.trans hcolon'
          obtain ⟨rfl, rfl⟩ := hvalue.unique hvalue'
          exact ⟨rfl, rfl⟩

/-- So do fields up to the brace that closes them. -/
theorem SpellsFields.unique {cs rest rest' : List Char} {fields fields' : List (String × Json)} :
    SpellsFields cs fields rest → SpellsFields cs fields' rest' → fields = fields' ∧ rest = rest'
  | .close, h' => by
      cases h'
      exact ⟨rfl, rfl⟩
  | .comma hfield hfields, h' => by
      cases h' with
      | comma hfield' hfields' =>
          obtain ⟨rfl, rfl⟩ := hfield.unique hfield'
          obtain ⟨rfl, rfl⟩ := hfields.unique hfields'
          exact ⟨rfl, rfl⟩

end

/-- A text that spells a value, with any blanks around it. -/
def IsTextOf (text : String) (j : Json) : Prop :=
  ∃ rest, Spells (skip text.toList) j rest ∧ skip rest = []

/-- A text spells one value at most. -/
theorem IsTextOf.unique {text : String} {j j' : Json} (h : IsTextOf text j)
    (h' : IsTextOf text j') : j = j' := by
  obtain ⟨rest, hspells, -⟩ := h
  obtain ⟨rest', hspells', -⟩ := h'
  exact (hspells.unique hspells').1

end SystemMap.Json
