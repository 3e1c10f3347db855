/-
Formatting does not matter. Two texts whose tokens differ at most in their places and in the
spelling of keywords come to the same: both break off at the same token wanting the same, or
both have documents that differ at most in places. Then they are drawn and written alike, and
checks tell the same of both but for the places.

Tokens are told apart by their places, so a place says at which token a reading broke off.
-/
import SystemMap.Proofs.Document.Unplaced
import SystemMap.Proofs.Grammar.Uniform
import SystemMap.Proofs.Reading.Returns

namespace SystemMap

variable {ε : Type}

-- ================================================================== places

/-- Where the tokens left after `k` of them stand. -/
theorem Tokens.getElem?_places (ts : Tokens) (k : Nat) :
    ts.places[min k ts.list.length]? = some (ts.drop k).position := by
  have hlength : ts.places.length = ts.list.length + 1 := by simp [places]
  unfold places position drop
  by_cases hk : k < ts.list.length
  · rw [Nat.min_eq_left (Nat.le_of_lt hk), List.drop_eq_getElem_cons hk]
    simp [List.getElem?_append, hk]
  · rw [Nat.min_eq_right (Nat.not_lt.1 hk), List.drop_eq_nil_of_le (Nat.not_lt.1 hk)]
    simp

/-- `p` is the place of token `k` and of no other; token `k` may be the end of the text. -/
def Tokens.StandsAt (ts : Tokens) (k : Nat) (p : Position) : Prop :=
  ts.places[k]? = some p ∧ ∀ j, ts.places[j]? = some p → j = k

/-- After some tokens one stands at the place of the next, or at the end. -/
theorem standsAt_position {text : String} {ts : Tokens} (h : scan text = .ok ts) (k : Nat) :
    ts.StandsAt (min k ts.list.length) (ts.drop k).position := by
  have hplace := ts.getElem?_places k
  obtain ⟨hlt, -⟩ := List.getElem?_eq_some_iff.1 hplace
  refine ⟨hplace, fun j hj => ?_⟩
  exact ((List.getElem?_inj hlt (nodup_places h)).1 (hplace.trans hj.symm)).symm

-- ================================================================= numbers

/-- Every token is alike to one of the other text. -/
theorem exists_alike {ts us : List Token} (h : List.Forall₂ Token.Alike ts us) :
    ∀ u ∈ us, ∃ t ∈ ts, t.Alike u := by
  induction h with
  | nil => nofun
  | cons htu h ih =>
      intro u hu
      rcases List.mem_cons.1 hu with rfl | hu
      · exact ⟨_, List.mem_cons_self, htu⟩
      · obtain ⟨t, ht, halike⟩ := ih u hu
        exact ⟨t, List.mem_cons_of_mem _ ht, halike⟩

section Alike

variable {a b : String} {ts us : Tokens} (ha : scan a = .ok ts) (hb : scan b = .ok us)

include ha in
/-- Numbers that are not too long can be read. -/
theorem readableNumbers_of_length (hdigits : ∀ t ∈ ts.list, t.kind = .number →
    t.value.toList.length ≤ Text.Numeral.digitLimit) : ReadableNumbers a := by
  intro ts' hscan t ht hk
  cases hscan.symm.trans ha
  have hsound := (scans_of_scanFrom ha).sound t ht
  exact exists_read_of_length_le hsound hk (hdigits t ht hk)

variable (halike : List.Forall₂ Token.Alike ts.list us.list) (hnumbers : ReadableNumbers a)
include ha hb halike hnumbers

/-- Alike texts have the same numbers. -/
theorem ReadableNumbers.of_alike : ReadableNumbers b := by
  intro us' hscan u hu hk
  cases hscan.symm.trans hb
  obtain ⟨t, ht, htu⟩ := exists_alike halike u hu
  have hkind : t.kind = .number := htu.kind.trans hk
  rw [← htu.value (.inr (.inl hkind))]
  exact hnumbers ts ha t ht hkind

-- ================================================================= outlines

/-- Two texts with alike tokens, whose numbers can be read, have outlines that agree. -/
theorem agree_ofText : Outline.Agree ts us (Outline.ofText a) (Outline.ofText b) := by
  rw [Outline.ofText_scanned ha, Outline.ofText_scanned hb]
  exact Outline.agree_ofTokensFrom ⟨halike, hnumbers ts ha⟩ none

/-- Read alone, both break off at the same token, or both have documents. -/
theorem result_alone_alike (path : Option String) :
    (∃ k want found p q, ts.StandsAt k p ∧ us.StandsAt k q ∧
      (read (none : Option (Library ε)) path a).result
        = .error (.text (.mismatch ⟨want, found, p⟩)) ∧
      (read (none : Option (Library ε)) path b).result
        = .error (.text (.mismatch ⟨want, found, q⟩))) ∨
    ∃ d d', (read (none : Option (Library ε)) path a).result = .ok d ∧
      (read (none : Option (Library ε)) path b).result = .ok d' ∧ d.unplaced = d'.unplaced := by
  have hagree := agree_ofText ha hb halike hnumbers
  have hfault := hagree.fault
  rw [result_read_alone, result_read_alone]
  generalize (Outline.ofText a).fault = f at hfault
  generalize (Outline.ofText b).fault = f' at hfault
  cases hfault with
  | none => exact .inr ⟨_, _, rfl, rfl, ofSegments_unplaced_eq hagree.segments⟩
  | stuck k want found =>
      refine .inl ⟨min k ts.list.length, want, found, _, _, standsAt_position ha k, ?_, rfl, rfl⟩
      rw [halike.length_eq]
      exact standsAt_position hb k

end Alike

-- ================================================================ two texts

/-- A check of what was read alone returns. -/
theorem check_returns_alone {path : Option String} {text : String} {d : Document}
    (h : (read (none : Option (Library ε)) path text).result = .ok d)
    (hnumbers : ReadableNumbers text) (hmemory : FitsMemory [text]) : ∃ r, d.check = .ok r := by
  obtain ⟨included, hd⟩ := exists_gathered h
  cases included with
  | nil => exact hd.check_returns hnumbers hmemory
  | cons entry later =>
      obtain ⟨lib, -, hlib, -⟩ := hd.answers entry List.mem_cons_self
      cases hlib

/-- Two texts whose tokens are of the same kinds, and of the same values where they are names,
numbers or quoted texts, with no number too long to be read. Read alone, both break off at the
same token, wanting and finding the same; or both come to documents that differ at most in
places. Then both views are drawn alike with any measures and written alike as flowcharts. The
checks of both return, unless a text is too large for any memory, and they give the same
messages in the same order but for the places that follow a noun. -/
theorem alike_texts_mean_the_same {a b : String} {ts us : Tokens} (ha : scan a = .ok ts)
    (hb : scan b = .ok us) (halike : List.Forall₂ Token.Alike ts.list us.list)
    (hdigits : ∀ t ∈ ts.list, t.kind = .number →
      t.value.toList.length ≤ Text.Numeral.digitLimit) (path : Option String) :
    (∃ k want found p q, ts.StandsAt k p ∧ us.StandsAt k q ∧
      (read (none : Option (Library ε)) path a).result
        = .error (.text (.mismatch ⟨want, found, p⟩)) ∧
      (read (none : Option (Library ε)) path b).result
        = .error (.text (.mismatch ⟨want, found, q⟩))) ∨
    ∃ d d', (read (none : Option (Library ε)) path a).result = .ok d ∧
      (read (none : Option (Library ε)) path b).result = .ok d' ∧
      d.unplaced = d'.unplaced ∧
      (∀ m view, d.draw m view = d'.draw m view) ∧
      (∀ view direction,
        Flowchart.render d view direction = Flowchart.render d' view direction) ∧
      (FitsMemory [a] → FitsMemory [b] → (∃ r, d.check = .ok r) ∧ ∃ r, d'.check = .ok r) ∧
      ∀ r r', d.check = .ok r → d'.check = .ok r' →
        List.Forall₂ AlikeMessages (r.defects.map (·.message)) (r'.defects.map (·.message)) ∧
        List.Forall₂ AlikeMessages (r.suspicions.map (·.message))
          (r'.suspicions.map (·.message)) := by
  have hnumbers := readableNumbers_of_length ha hdigits
  have hnumbers' := ReadableNumbers.of_alike ha hb halike hnumbers
  rcases result_alone_alike ha hb halike hnumbers path with hstuck | ⟨d, d', hd, hd', hsame⟩
  · exact .inl hstuck
  refine .inr ⟨d, d', hd, hd', hsame, fun m view => ?_, fun view direction => ?_,
    fun hfits hfits' => ?_, fun r r' hr hr' => ?_⟩
  · rw [← Document.draw_unplaced, hsame, Document.draw_unplaced]
  · rw [← Flowchart.render_unplaced, hsame, Flowchart.render_unplaced]
  · exact ⟨check_returns_alone hd hnumbers hfits, check_returns_alone hd' hnumbers' hfits'⟩
  · exact Report.alike_messages (Document.unplaced_report_eq hsame hr hr')

instance (t u : Token) : Decidable (t.Alike u) :=
  decidable_of_iff (t.kind = u.kind ∧
      (t.kind = .name ∨ t.kind = .number ∨ t.kind = .text → t.value = u.value))
    ⟨fun h => ⟨h.1, h.2⟩, fun h => ⟨h.kind, h.value⟩⟩

/-- A text of three lines, and one with other blanks, another spelling and a remark. -/
def spacious : String := "#instances\nA x (1)\n#connections x -> y"
def crammed : String := "#Instances # one\nA\tx(1)#CONNECTIONS x->y"

/-- The tokens of a text; none if it cannot be scanned. -/
def tokensOf (text : String) : Tokens := (scan text).toOption.getD ⟨[], .origin⟩

/-- What is wrong with both is the same, at the places of either. -/
theorem crammed_means_spacious :
    (declaredBy spacious).unplaced = (declaredBy crammed).unplaced ∧
    ∃ r r', (declaredBy spacious).check = .ok r ∧ (declaredBy crammed).check = .ok r' ∧
      List.Forall₂ AlikeMessages (r.defects.map (·.message)) (r'.defects.map (·.message)) ∧
      r.defects.map (·.message) =
        ["Instance group (line 2, column 1) uses undeclared node class 'A'.",
          "Connection (line 3, column 14) refers to unknown instance or NAT 'y'."] ∧
      r'.defects.map (·.message) =
        ["Instance group (line 2, column 1) uses undeclared node class 'A'.",
          "Connection (line 2, column 20) refers to unknown instance or NAT 'y'."] := by
  have hspacious : scan spacious = .ok (tokensOf spacious) := by decide +kernel
  have hcrammed : scan crammed = .ok (tokensOf crammed) := by decide +kernel
  have hread : (read (none : Option (Library Empty)) none spacious).result
      = .ok (declaredBy spacious) := result_alone_ok_iff.2 ⟨by decide +kernel, rfl⟩
  rcases alike_texts_mean_the_same hspacious hcrammed (by decide +kernel) (by decide +kernel) none
    with ⟨k, want, found, p, q, -, -, hstuck, -⟩ | ⟨d, d', hd, hd', hsame, -, -, -, hmessages⟩
  · cases hread.symm.trans hstuck
  · cases hread.symm.trans hd
    obtain ⟨-, rfl⟩ := result_alone_ok_iff.1 hd'
    have hcheck : (declaredBy spacious).check
        = .ok ⟨(declaredBy spacious).defects, [.instanceAddress "x" "1"]⟩ := by decide +kernel
    have hcheck' : (declaredBy crammed).check
        = .ok ⟨(declaredBy crammed).defects, [.instanceAddress "x" "1"]⟩ := by decide +kernel
    exact ⟨hsame, _, _, hcheck, hcheck', (hmessages _ _ hcheck hcheck').1, by decide +kernel,
      by decide +kernel⟩

end SystemMap
