/-
Plain digits read as numbers. The reader of numerals takes signs, blanks, underscores and
the digits of every script; a text of the digits `0` to `9` has nothing of that, and what is
read from it is its decimal value, as long as it stays below the limit of digits.

Written out, a number below the limit is such a text, so it is read back.
-/
import Mathlib.Algebra.Group.Nat.Defs
import Mathlib.Data.List.TakeWhile
import SystemMap.Text.Numeral
import SystemMap.Token.Scan

namespace SystemMap

/-- A text of digits only, and of at least one. -/
def IsDigits (cs : List Char) : Prop := cs ≠ [] ∧ ∀ c ∈ cs, isDigit c = true

instance (cs : List Char) : Decidable (IsDigits cs) :=
  inferInstanceAs (Decidable (cs ≠ [] ∧ ∀ c ∈ cs, isDigit c = true))

/-- Digits are one at least. -/
theorem IsDigits.exists_cons {cs : List Char} (h : IsDigits cs) :
    ∃ c rest, cs = c :: rest ∧ isDigit c = true := by
  obtain ⟨c, rest, rfl⟩ := List.exists_cons_of_ne_nil h.1
  exact ⟨c, rest, rfl, h.2 c List.mem_cons_self⟩

/-- The ten digits have codes in a row. -/
theorem isDigit_iff {c : Char} : isDigit c = true ↔ 48 ≤ c.toNat ∧ c.toNat ≤ 57 := by
  unfold isDigit
  rw [Bool.and_eq_true, decide_eq_true_iff, decide_eq_true_iff]
  rfl

/-- A digit is one of ten characters. -/
theorem exists_digitChar {c : Char} (h : isDigit c = true) : ∃ d < 10, c = Nat.digitChar d := by
  obtain ⟨hlow, hhigh⟩ := isDigit_iff.1 h
  refine ⟨c.toNat - 48, by omega, Char.toNat_inj.1 ?_⟩
  rw [Nat.toNat_digitChar_of_lt_ten (by omega)]
  omega

namespace Text

/-- What the reader of numerals sees in a plain digit. -/
theorem digitChar_facts : ∀ d < 10, digitValue? (Nat.digitChar d) = some d ∧
    isBlank (Nat.digitChar d) = false ∧ Nat.digitChar d ≠ '_' ∧ Nat.digitChar d ≠ '-' ∧
    Nat.digitChar d ≠ '+' := by
  decide

/-- A digit has the value that its code is above that of zero. -/
theorem digitValue?_of_isDigit {c : Char} (h : isDigit c = true) :
    digitValue? c = some (c.toNat - 48) := by
  obtain ⟨d, hd, rfl⟩ := exists_digitChar h
  rw [(digitChar_facts d hd).1, Nat.toNat_digitChar_sub_48_of_lt_ten hd]

theorem isBlank_of_isDigit {c : Char} (h : isDigit c = true) : isBlank c = false := by
  obtain ⟨d, hd, rfl⟩ := exists_digitChar h
  exact (digitChar_facts d hd).2.1

/-- Digits count as digits of a text, where those of other scripts do too. -/
theorem isDigitText_of_isDigits {cs : List Char} (h : IsDigits cs) :
    isDigitText cs = true := by
  have hall : cs.all isDigitSign = true := by
    refine List.all_eq_true.2 fun c hc => ?_
    unfold isDigitSign
    rw [digitValue?_of_isDigit (h.2 c hc)]
    rfl
  unfold isDigitText
  rw [hall, List.isEmpty_eq_false_iff.2 h.1]
  rfl

namespace Numeral

/-- Digits have no sign in front. -/
theorem splitSign_of_isDigit {c : Char} {cs : List Char} (h : isDigit c = true) :
    splitSign (c :: cs) = (false, c :: cs) := by
  obtain ⟨d, hd, rfl⟩ := exists_digitChar h
  obtain ⟨-, -, -, hminus, hplus⟩ := digitChar_facts d hd
  unfold splitSign
  split
  · next heq => exact absurd (List.cons.inj heq).1 hminus
  · next heq => exact absurd (List.cons.inj heq).1 hplus
  · rfl

theorem isRunPart_of_isDigit {c : Char} (h : isDigit c = true) : isRunPart c = true := by
  unfold isRunPart
  rw [digitValue?_of_isDigit h]
  exact Bool.or_true _

/-- The digits of plain digits, by induction along the text. -/
theorem digits?_of_isDigits {cs : List Char} (h : IsDigits cs) :
    digits? cs = some (cs.map fun c => c.toNat - 48) := by
  obtain ⟨hne, hall⟩ := h
  induction cs with
  | nil => exact absurd rfl hne
  | cons c cs ih =>
      have hc := digitValue?_of_isDigit (hall c List.mem_cons_self)
      cases cs with
      | nil =>
          unfold digits?
          rw [hc]
          rfl
      | cons e rest =>
          have he : isDigit e = true := hall e (by simp)
          have hrest := ih (by simp) fun x hx => hall x (List.mem_cons_of_mem _ hx)
          have hscore : e ≠ '_' := by
            obtain ⟨d, hd, rfl⟩ := exists_digitChar he
            exact (digitChar_facts d hd).2.2.1
          rw [digits?, hc, hrest]
          · rfl
          · exact fun h => List.cons_ne_nil _ _ h
          · exact fun rest h => hscore (List.cons.inj h).1

/-- The fold of the reader is the decimal value. -/
theorem ofDigits_eq (cs : List Char) :
    ofDigits (cs.map fun c => c.toNat - 48) = Nat.ofDigitChars 10 cs 0 := by
  unfold ofDigits
  rw [Nat.ofDigitChars_eq_foldl, List.foldl_map]
  rfl

/-- Digits are read to the base ten unless there are too many. -/
theorem read_of_isDigits {cs : List Char} (h : IsDigits cs) :
    read (String.ofList cs)
      = if cs.length > digitLimit then .error (.tooLong cs.length)
        else .ok (Nat.ofDigitChars 10 cs 0) := by
  obtain ⟨hne, hall⟩ := h
  have hblank : (String.ofList cs).toList.dropWhile isBlank = cs := by
    rw [String.toList_ofList]
    cases cs with
    | nil => rfl
    | cons c cs => rw [List.dropWhile_cons, isBlank_of_isDigit (hall c List.mem_cons_self)]; rfl
  have hsign : splitSign cs = (false, cs) := by
    cases cs with
    | nil => rfl
    | cons c cs => exact splitSign_of_isDigit (hall c List.mem_cons_self)
  have hrun : ∀ c ∈ cs, isRunPart c = true := fun c hc => isRunPart_of_isDigit (hall c hc)
  unfold read
  rw [hblank, hsign]
  dsimp only
  rw [List.takeWhile_eq_self_iff.2 hrun, List.dropWhile_eq_nil_iff.2 hrun,
    digits?_of_isDigits ⟨hne, hall⟩]
  dsimp only
  rw [List.length_map, ofDigits_eq]
  rfl

-- ========================================================== written and read

/-- A number without a sign is written with its digits to the base ten. -/
theorem toList_toString (m : Nat) : (toString (m : Int)).toList = Nat.toDigits 10 m :=
  Nat.toList_repr

/-- A natural number is written in plain digits. -/
theorem isDigits_toString (m : Nat) : IsDigits (toString (m : Int)).toList := by
  rw [toList_toString]
  refine ⟨Nat.toDigits_ne_nil, fun c hc => isDigit_iff.2 ?_⟩
  have h := Nat.isDigit_of_mem_toDigits (by decide) (by decide) hc
  exact Char.isDigit_iff_toNat.1 h

/-- A number below the limit of digits is read back. -/
theorem read_toString {m : Nat} (h : m < 10 ^ digitLimit) :
    read (toString (m : Int)) = .ok m := by
  have hread := read_of_isDigits (isDigits_toString m)
  rw [String.ofList_toList, toList_toString] at hread
  rw [hread, if_neg, Nat.ofDigitChars_ten_toDigits]
  exact Nat.not_lt.2 ((Nat.length_toDigits_le_iff (by decide) (by decide)).2 h)

/-- What so many digits write is below the power of ten. -/
theorem ofDigitChars_lt {cs : List Char} (h : ∀ c ∈ cs, isDigit c = true) :
    Nat.ofDigitChars 10 cs 0 < 10 ^ cs.length := by
  induction cs with
  | nil => decide
  | cons c cs ih =>
      have hrest := ih fun d hd => h d (List.mem_cons_of_mem _ hd)
      have hc := (isDigit_iff.1 (h c List.mem_cons_self)).2
      have hdigit : c.toNat - 48 ≤ 9 := by omega
      rw [Nat.ofDigitChars_cons, Nat.ofDigitChars_eq_ofDigitChars_zero, List.length_cons,
        Nat.pow_succ]
      calc 10 ^ cs.length * (10 * 0 + (c.toNat - 48)) + Nat.ofDigitChars 10 cs 0
          < 10 ^ cs.length * 9 + 10 ^ cs.length := by
            refine Nat.add_lt_add_of_le_of_lt (Nat.mul_le_mul_left _ ?_) hrest
            omega
        _ = 10 ^ cs.length * 10 := by omega

/-- What is read from plain digits is a natural number below the limit. -/
theorem bounds_of_read {cs : List Char} (h : IsDigits cs) {n : Int}
    (hread : read (String.ofList cs) = .ok n) : 0 ≤ n ∧ n.toNat < 10 ^ digitLimit := by
  rw [read_of_isDigits h] at hread
  split at hread
  · cases hread
  · next hlen =>
    cases hread
    exact ⟨Int.natCast_nonneg _, Nat.lt_of_lt_of_le (ofDigitChars_lt h.2)
      (Nat.pow_le_pow_right (by decide) (Nat.not_lt.1 hlen))⟩

end Numeral

end Text

end SystemMap
