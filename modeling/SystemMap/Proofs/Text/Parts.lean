/-
Texts in parts. A text that was put together from parts falls into the same parts again at a
sign that one of them does not hold: at the first such sign, if the part before it has none
(`append_cons_inj`), and at the last one, if the part behind it has none (`append_cons_inj_last`).

An integer is written as a digit or a minus, and then digits. So two integers with a dash between
them are told apart, whichever of them are negative (`toString_dash_inj`).
-/
import SystemMap.Proofs.Text.Digits

namespace SystemMap

-- ================================================================= splitting

section Splitting

variable {p : Char → Bool} {front front' back back' : List Char} {c c' : Char}

/-- Where the first characters of another kind stand, two equal texts fall into equal parts. -/
theorem append_cons_inj (hfront : ∀ d ∈ front, p d = true) (hfront' : ∀ d ∈ front', p d = true)
    (hc : p c = false) (hc' : p c' = false) (h : front ++ c :: back = front' ++ c' :: back') :
    front = front' ∧ c = c' ∧ back = back' := by
  induction front generalizing front' with
  | nil =>
      cases front' with
      | nil => exact ⟨rfl, List.cons.inj h⟩
      | cons d' front' =>
          obtain rfl : c = d' := (List.cons.inj h).1
          cases hc.symm.trans (hfront' c List.mem_cons_self)
  | cons d front ih =>
      cases front' with
      | nil =>
          obtain rfl : d = c' := (List.cons.inj h).1
          cases hc'.symm.trans (hfront d List.mem_cons_self)
      | cons d' front' =>
          obtain ⟨rfl, hlater⟩ := List.cons.inj h
          obtain ⟨rfl, hsign, hback⟩ := ih (fun e he => hfront e (List.mem_cons_of_mem _ he))
            (fun e he => hfront' e (List.mem_cons_of_mem _ he)) hlater
          exact ⟨rfl, hsign, hback⟩

/-- Where a sign stands for the last time, two equal texts fall into equal parts. -/
theorem append_cons_inj_last (hback : c ∉ back) (hback' : c ∉ back')
    (h : front ++ c :: back = front' ++ c :: back') : front = front' ∧ back = back' := by
  have hother : ∀ {part : List Char}, c ∉ part → ∀ d ∈ part.reverse, (d != c) = true := by
    intro part hpart d hd
    have hne : d ≠ c := fun hdc => hpart (hdc ▸ List.mem_reverse.1 hd)
    simpa using hne
  have hturned : back.reverse ++ c :: front.reverse = back'.reverse ++ c :: front'.reverse := by
    simpa using congrArg List.reverse h
  obtain ⟨hbacks, -, hfronts⟩ :=
    append_cons_inj (hother hback) (hother hback') (by simp) (by simp) hturned
  exact ⟨List.reverse_inj.1 hfronts, List.reverse_inj.1 hbacks⟩

end Splitting

namespace Text.Numeral

-- ========================================================== written integers

theorem toString_negSucc (m : Nat) :
    (toString (Int.negSucc m)).toList = '-' :: (toString ((m + 1 : Nat) : Int)).toList := by
  have hopen : toString (Int.negSucc m) = "-" ++ toString ((m + 1 : Nat) : Int) := rfl
  rw [hopen, String.toList_append]
  rfl

/-- An integer is written as a digit or a minus, and then digits. -/
theorem exists_toString_cons (n : Int) :
    ∃ c ds, (toString n).toList = c :: ds ∧ (isDigit c = true ∨ c = '-') ∧
      ∀ d ∈ ds, isDigit d = true := by
  cases n with
  | ofNat m =>
      have hdigits := isDigits_toString m
      obtain ⟨c, ds, hcons, hc⟩ := hdigits.exists_cons
      have hds : ∀ d ∈ ds, isDigit d = true := fun d hd =>
        hdigits.2 d (hcons ▸ List.mem_cons_of_mem _ hd)
      exact ⟨c, ds, hcons, .inl hc, hds⟩
  | negSucc m =>
      exact ⟨'-', _, toString_negSucc m, .inr rfl, (isDigits_toString (m + 1)).2⟩

/-- A written integer holds no other signs. -/
theorem not_mem_toString {c : Char} (hdigit : isDigit c = false) (hdash : c ≠ '-') (n : Int) :
    c ∉ (toString n).toList := by
  obtain ⟨first, ds, hcons, hfirst, hds⟩ := exists_toString_cons n
  rw [hcons]
  intro hc
  rcases List.mem_cons.1 hc with rfl | hc
  · rcases hfirst with hfirst | hfirst
    · cases hdigit.symm.trans hfirst
    · exact hdash hfirst
  · cases hdigit.symm.trans (hds c hc)

theorem toString_natCast_inj {m m' : Nat}
    (h : (toString (m : Int)).toList = (toString (m' : Int)).toList) : m = m' := by
  rw [toList_toString, toList_toString] at h
  rw [← Nat.ofDigitChars_ten_toDigits (n := m), h, Nat.ofDigitChars_ten_toDigits]

/-- Integers are told apart as they are written. -/
theorem toString_inj {n n' : Int} (h : (toString n).toList = (toString n').toList) : n = n' := by
  have hminus : ∀ m k : Nat, (toString (m : Int)).toList ≠ (toString (Int.negSucc k)).toList := by
    intro m k hmk
    have hminus : '-' ∈ (toString (m : Int)).toList := by
      rw [hmk, toString_negSucc]
      exact List.mem_cons_self
    cases (isDigits_toString m).2 '-' hminus
  cases n with
  | ofNat m =>
      cases n' with
      | ofNat m' => rw [toString_natCast_inj h]
      | negSucc k => exact absurd h (hminus m k)
  | negSucc k =>
      cases n' with
      | ofNat m' => exact absurd h.symm (hminus m' k)
      | negSucc k' =>
          rw [toString_negSucc, toString_negSucc] at h
          have hnext := toString_natCast_inj (List.cons.inj h).2
          rw [Nat.succ.inj hnext]

/-- Two integers are told apart with a dash between them: the first minus may be a sign, but the
first dash behind a digit is none. -/
theorem toString_dash_inj {a b a' b' : Int}
    (h : (toString a).toList ++ '-' :: (toString b).toList
      = (toString a').toList ++ '-' :: (toString b').toList) : a = a' ∧ b = b' := by
  obtain ⟨c, ds, hcons, -, hds⟩ := exists_toString_cons a
  obtain ⟨c', ds', hcons', -, hds'⟩ := exists_toString_cons a'
  rw [hcons, hcons'] at h
  obtain ⟨rfl, hrest⟩ := List.cons.inj h
  obtain ⟨rfl, -, hlast⟩ := append_cons_inj hds hds' rfl rfl hrest
  exact ⟨toString_inj (hcons.trans hcons'.symm), toString_inj hlast⟩

end Text.Numeral

end SystemMap
