/-
The places of the tokens of a text, and of its end. Each stands before the next, line by line
and column by column, so a place tells which token stands there; and none is further down or
further right than the text is long.
-/
import Mathlib.Data.List.Nodup
import SystemMap.Proofs.Scan.Slices

namespace SystemMap

-- ======================================================= places in their order

namespace Position

/-- A place is on an earlier line than another, or further left on the same. -/
def Before (p q : Position) : Prop := p.line < q.line ∨ p.line = q.line ∧ p.column < q.column

variable {p q r : Position}

/-- Places are in order. -/
theorem Before.trans (h : p.Before q) (h' : q.Before r) : p.Before r := by
  unfold Before at *
  omega

/-- No place is before itself. -/
theorem Before.ne (h : p.Before q) : p ≠ q := by
  rintro rfl
  unfold Before at h
  omega

/-- Each character leads to a later place. -/
theorem before_step (p : Position) (c : Char) : p.Before (p.step c) := by
  unfold Before step
  split
  · exact .inl (by dsimp only; omega)
  · exact .inr ⟨rfl, by dsimp only; omega⟩

/-- Going on over characters leads further, unless there are none. -/
theorem eq_or_before_after (p : Position) (cs : List Char) :
    (cs = [] ∧ p.after cs = p) ∨ p.Before (p.after cs) := by
  induction cs generalizing p with
  | nil => exact .inl ⟨rfl, rfl⟩
  | cons c cs ih =>
      right
      have hstep : p.after (c :: cs) = (p.step c).after cs := rfl
      rw [hstep]
      rcases ih (p.step c) with ⟨-, heq⟩ | hbefore
      · rw [heq]
        exact before_step p c
      · exact (before_step p c).trans hbefore

end Position

/-- An earlier offset has an earlier place, -/
theorem Position.ofOffset_before {cs : List Char} {j k : Nat} (hjk : j < k) (hk : k ≤ cs.length) :
    (ofOffset cs j).Before (ofOffset cs k) := by
  rw [← after_take_eq_ofOffset, ← after_take_eq_ofOffset, ← take_append_extract (Nat.le_of_lt hjk),
    after_append]
  refine (eq_or_before_after _ _).resolve_left fun hnil => ?_
  have hlength := congrArg List.length hnil.1
  rw [List.extract, List.length_take, List.length_drop, List.length_nil] at hlength
  omega

/-- so a place in a text tells the offset. -/
theorem Position.ofOffset_inj {cs : List Char} {j k : Nat} (hj : j ≤ cs.length)
    (hk : k ≤ cs.length) : ofOffset cs j = ofOffset cs k ↔ j = k := by
  refine ⟨fun h => ?_, congrArg _⟩
  rcases Nat.lt_trichotomy j k with hlt | heq | hlt
  · exact absurd h (ofOffset_before hlt hk).ne
  · exact heq
  · exact absurd h.symm (ofOffset_before hlt hj).ne

/-- The places of tokens, and the place just past them. -/
def Tokens.places (ts : Tokens) : List Position := ts.list.map (·.position) ++ [ts.finish]

/-- The places of a scan stand one before the other, none before where the scan starts. -/
theorem Scans.places_increase {p : Position} {cs : List Char} {ts : Tokens}
    (h : Scans p cs ts) : ts.places.Pairwise Position.Before ∧
      ∀ q ∈ ts.places, p = q ∨ p.Before q := by
  induction h with
  | @finished p cs h =>
      refine ⟨List.pairwise_singleton .., fun q hq => ?_⟩
      rw [List.mem_singleton.1 hq]
      rcases p.eq_or_before_after cs with ⟨-, heq⟩ | hbefore
      · exact .inl heq.symm
      · exact .inr hbefore
  | @gap p gap rest ts hgap h ih =>
      refine ⟨ih.1, fun q hq => ?_⟩
      rcases p.eq_or_before_after gap with ⟨-, heq⟩ | hbefore
      · exact heq ▸ ih.2 q hq
      · rcases ih.2 q hq with rfl | hafter
        · exact .inr hbefore
        · exact .inr (hbefore.trans hafter)
  | @lexeme p l rest ts hl hends h ih =>
      have hnext : p.Before (p.after l.text) :=
        (p.eq_or_before_after l.text).resolve_left fun hnil => hl.text_ne_nil hnil.1
      have hlater : ∀ q ∈ ts.places, p.Before q := by
        intro q hq
        rcases ih.2 q hq with rfl | hafter
        · exact hnext
        · exact hnext.trans hafter
      refine ⟨List.pairwise_cons.2 ⟨hlater, ih.1⟩, fun q hq => ?_⟩
      rcases List.mem_cons.1 hq with rfl | hq
      · exact .inl rfl
      · exact .inr (hlater q hq)

/-- No two tokens stand at one place. -/
theorem nodup_places {text : String} {ts : Tokens} (h : scan text = .ok ts) : ts.places.Nodup :=
  (scans_of_scanFrom h).places_increase.1.imp Position.Before.ne

-- ================================================================= by size

/-- A place in a text of `n` characters. -/
structure Position.Within (p : Position) (n : Nat) : Prop where
  line : 0 ≤ p.line ∧ p.line ≤ n + 1
  column : 0 ≤ p.column ∧ p.column ≤ n + 1

/-- A place within a text is no further off than the text is long. -/
theorem within_ofOffset (cs : List Char) (k : Nat) :
    (Position.ofOffset cs k).Within cs.length := by
  have htake : (cs.take k).length ≤ cs.length := List.length_take_le' k cs
  have hlines : (cs.take k).count '\n' ≤ (cs.take k).length := List.count_le_length
  have hcolumns : ((cs.take k).reverse.takeWhile (· ≠ '\n')).length ≤ (cs.take k).reverse.length :=
    (List.takeWhile_sublist _).length_le
  rw [List.length_reverse] at hcolumns
  unfold Position.ofOffset
  constructor
  · dsimp only
    omega
  · dsimp only
    omega

/-- Each slice of a tiling fits. -/
theorem Tiled.fits {cs : List Char} {k : Nat} {slices : List Slice} (h : Tiled cs k slices) :
    ∀ s ∈ slices, s.Fits cs := by
  induction slices generalizing k with
  | nil => nofun
  | cons s later ih =>
      obtain ⟨-, -, hfits, hlater⟩ := h
      exact List.forall_mem_cons.2 ⟨hfits, ih hlater⟩

/-- A text has no token further down or further right than it is long, -/
theorem within_of_scan {text : String} {ts : Tokens} (h : scan text = .ok ts) :
    ∀ t ∈ ts.list, t.position.Within text.toList.length := by
  obtain ⟨slices, hmap, htiled, -⟩ := (scans_of_scanFrom h).exists_tiled [] rfl
  rw [← hmap]
  refine List.forall_mem_map.2 fun s hs => ?_
  rw [(htiled.fits s hs).placed]
  exact within_ofOffset _ _

/-- and no more tokens than characters. -/
theorem Scans.length_le {p : Position} {cs : List Char} {ts : Tokens} (h : Scans p cs ts) :
    ts.list.length ≤ cs.length := by
  induction h with
  | finished h => exact Nat.zero_le _
  | gap hgap h ih =>
      rw [List.length_append]
      omega
  | @lexeme p l rest ts hl hends h ih =>
      have hpos := List.length_pos_iff.2 hl.text_ne_nil
      rw [List.length_append, List.length_cons]
      omega

-- ================================================================== numbers

/-- Every number of a text stands in it as it is valued. -/
theorem Scans.number_infix {p : Position} {cs : List Char} {ts : Tokens} (h : Scans p cs ts) :
    ∀ t ∈ ts.list, t.kind = .number → t.value.toList <:+: cs := by
  induction h with
  | finished h => nofun
  | gap hgap h ih =>
      intro t ht hk
      exact (ih t ht hk).trans (List.suffix_append ..).isInfix
  | @lexeme p l rest ts hl hends h ih =>
      intro t ht hk
      rcases List.mem_cons.1 ht with rfl | ht
      · have htext : l.text = l.value := by
          unfold Lexeme.text
          rw [show l.kind = .number from hk]
        rw [String.toList_ofList, htext]
        exact (List.prefix_append ..).isInfix
      · exact (ih t ht hk).trans (List.suffix_append ..).isInfix

end SystemMap
