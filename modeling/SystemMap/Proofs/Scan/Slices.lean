/-
Where the tokens of a text stand in it. A `Slice` is a token with the offset of its first
character. `Tiled` says of some slices that they lie in a text one after another: each has the
characters that its token is written with and is as long as it can be, its place counts the
lines and columns before its offset, and between the slices there is nothing but gaps.

The tokens of a text are those of a tiling of it, and there is no other
(`scan_ok_iff_tiled`). Both directions are inductions that carry the characters before the part
in hand: along the derivation of a scan each lexeme becomes a slice at the length of what is
before it, and along the slices each one is a step of a derivation.
-/
import Mathlib.Data.List.Induction
import SystemMap.Proofs.Scan.Derivation

namespace SystemMap

-- ================================================================= places

/-- The place of the character at an offset: one line more than there are line feeds before
it, and one column more than there are characters since the last of them. -/
def Position.ofOffset (cs : List Char) (k : Nat) : Position where
  line := 1 + (cs.take k).count '\n'
  column := 1 + ((cs.take k).reverse.takeWhile (· ≠ '\n')).length

/-- Stepping over all characters before an offset leads to its place. The induction takes the
last character off, which is the one that the column hangs on. -/
theorem after_take_eq_ofOffset (cs : List Char) (k : Nat) :
    Position.origin.after (cs.take k) = .ofOffset cs k := by
  unfold Position.ofOffset
  induction cs.take k using List.reverseRecOn with
  | nil => rfl
  | append_singleton before c ih =>
      rw [after_append, ih, List.reverse_append, List.count_append]
      by_cases hc : c = '\n'
      · subst hc
        simp [Position.after, Position.step, Int.add_assoc]
      · simp [Position.after, Position.step, hc, Int.add_assoc]

-- ================================================================= slices

/-- A token and the offset of its first character. -/
structure Slice where
  token : Token
  start : Nat

/-- The offset after the last character. -/
def Slice.stop (s : Slice) : Nat := s.start + s.token.lexeme.text.length

/-- A slice in a text: the characters there are those of its lexeme, which goes as far as it
can, and the place of the token is that of the offset. -/
structure Slice.Fits (cs : List Char) (s : Slice) : Prop where
  sound : s.token.lexeme.Sound
  inside : s.stop ≤ cs.length
  written : cs.extract s.start s.stop = s.token.lexeme.text
  longest : s.token.lexeme.Ends (cs.drop s.stop)
  placed : s.token.position = .ofOffset cs s.start

/-- Slices that follow one another in a text from an offset to its end, with gaps around
them. -/
def Tiled (cs : List Char) : Nat → List Slice → Prop
  | k, [] => k ≤ cs.length ∧ Trailing (cs.drop k)
  | k, s :: later =>
    k ≤ s.start ∧ Gap (cs.extract k s.start) ∧ s.Fits cs ∧ Tiled cs s.stop later

/-- Slices that touch make one slice. -/
theorem extract_append_extract {cs : List Char} {a b c : Nat} (hab : a ≤ b) (hbc : b ≤ c) :
    cs.extract a b ++ cs.extract b c = cs.extract a c := by
  have hc : c - a = (b - a) + (c - b) := by omega
  have hb : a + (b - a) = b := by omega
  rw [List.extract, List.extract, List.extract, hc, List.take_add, List.drop_drop, hb]

/-- A slice and all that follows it. -/
theorem extract_append_drop {cs : List Char} {a b : Nat} (hab : a ≤ b) :
    cs.extract a b ++ cs.drop b = cs.drop a := by
  have hb : a + (b - a) = b := by omega
  calc cs.extract a b ++ cs.drop b
      = (cs.drop a).take (b - a) ++ (cs.drop a).drop (b - a) := by rw [List.drop_drop, hb]
    _ = cs.drop a := List.take_append_drop ..

/-- All that is in front of a slice, and the slice. -/
theorem take_append_extract {cs : List Char} {a b : Nat} (hab : a ≤ b) :
    cs.take a ++ cs.extract a b = cs.take b := by
  have hb : b = a + (b - a) := by omega
  rw [hb, List.take_add, List.extract, Nat.add_sub_cancel_left]

/-- The part between what is before and what is after. -/
theorem extract_between (before part rest : List Char) :
    (before ++ (part ++ rest)).extract before.length (before.length + part.length) = part := by
  rw [List.extract, Nat.add_sub_cancel_left, List.drop_left, List.take_left]

/-- A gap in front may be longer. -/
theorem Tiled.widen {cs : List Char} {a b : Nat} {slices : List Slice} (hab : a ≤ b)
    (hgap : Gap (cs.extract a b)) (h : Tiled cs b slices) : Tiled cs a slices := by
  cases slices with
  | nil =>
      refine ⟨hab.trans h.1, ?_⟩
      rw [← extract_append_drop hab]
      exact hgap.append_trailing h.2
  | cons s later =>
      obtain ⟨hstart, hbetween, hlater⟩ := h
      refine ⟨hab.trans hstart, ?_, hlater⟩
      rw [← extract_append_extract hab hstart]
      exact hgap.append hbetween

/-- No lexeme is empty. -/
theorem Lexeme.Sound.text_ne_nil {l : Lexeme} (h : l.Sound) : l.text ≠ [] := by
  cases h with
  | marker hw hs => exact List.cons_ne_nil _ _
  | word hw =>
      obtain ⟨c, cs, rfl, -⟩ := hw
      rw [Lexeme.text_ofWord]
      exact List.cons_ne_nil _ _
  | number hw => exact hw.1
  | text hw => exact List.cons_ne_nil _ _
  | sign hc =>
      rw [(Lexeme.text_ends_sign hc []).1]
      exact List.cons_ne_nil _ _
  | doubleColon | arrow | dash => exact List.cons_ne_nil _ _

/-- The slices of a tiling are in order and have no character in common. -/
theorem Tiled.ordered {cs : List Char} {k : Nat} {slices : List Slice}
    (h : Tiled cs k slices) : (∀ s ∈ slices, k ≤ s.start ∧ s.start < s.stop) ∧
      slices.Pairwise fun a b => a.stop ≤ b.start := by
  induction slices generalizing k with
  | nil => exact ⟨nofun, .nil⟩
  | cons s later ih =>
      obtain ⟨hstart, -, hfits, hlater⟩ := h
      obtain ⟨hafter, hpairs⟩ := ih hlater
      have hpos : s.start < s.stop :=
        Nat.lt_add_of_pos_right (List.length_pos_iff.2 hfits.sound.text_ne_nil)
      refine ⟨fun t ht => ?_, .cons (fun t ht => (hafter t ht).1) hpairs⟩
      rcases List.mem_cons.1 ht with rfl | ht
      · exact ⟨hstart, hpos⟩
      · exact ⟨by have := (hafter t ht).1; omega, (hafter t ht).2⟩

-- =========================================================== slices by prefix

/-- The slice of a lexeme that stands after some characters. -/
def Slice.behind (before : List Char) (l : Lexeme) : Slice where
  token := ⟨l.kind, String.ofList l.value, Position.origin.after before⟩
  start := before.length

theorem lexeme_behind (before : List Char) (l : Lexeme) :
    (Slice.behind before l).token.lexeme = l := lexeme_placed ..

/-- A slice ends as far from the start as its lexeme and what is in front are long. -/
theorem stop_behind (before : List Char) (l : Lexeme) :
    (Slice.behind before l).stop = (before ++ l.text).length := by
  rw [Slice.stop, lexeme_behind, List.length_append]
  rfl

/-- A sound lexeme that is whole makes a slice that fits. -/
theorem fits_behind {before rest : List Char} {l : Lexeme} (hl : l.Sound)
    (hends : l.Ends rest) : (Slice.behind before l).Fits (before ++ (l.text ++ rest)) where
  sound := by rwa [lexeme_behind]
  inside := by
    rw [stop_behind, ← List.append_assoc]
    exact (List.prefix_append ..).length_le
  written := by
    rw [stop_behind, lexeme_behind, List.length_append]
    exact extract_between ..
  longest := by rwa [stop_behind, lexeme_behind, ← List.append_assoc, List.drop_left]
  placed := by
    rw [← after_take_eq_ofOffset, Slice.behind, List.take_left]

-- ============================================================ both directions

/-- The tokens of the part of a text after some characters tile that part. -/
theorem Scans.exists_tiled {p : Position} {rest : List Char} {ts : Tokens}
    (h : Scans p rest ts) (before : List Char) (hp : p = Position.origin.after before) :
    ∃ slices : List Slice, slices.map (·.token) = ts.list ∧
      Tiled (before ++ rest) before.length slices ∧
      ts.finish = Position.origin.after (before ++ rest) := by
  induction h generalizing before with
  | @finished p cs h =>
      subst hp
      refine ⟨[], rfl, ⟨by simp, ?_⟩, (after_append ..).symm⟩
      rwa [List.drop_left]
  | @gap p gap rest ts hgap h ih =>
      subst hp
      -- the gap joins the characters before the first slice of the rest
      obtain ⟨slices, hmap, htiled, hfinish⟩ := ih (before ++ gap) (after_append ..).symm
      rw [List.append_assoc] at htiled hfinish
      refine ⟨slices, hmap, htiled.widen (by simp) ?_, hfinish⟩
      rwa [List.length_append, extract_between]
  | @lexeme p l rest ts hl hends h ih =>
      subst hp
      obtain ⟨slices, hmap, htiled, hfinish⟩ := ih (before ++ l.text) (after_append ..).symm
      rw [List.append_assoc] at htiled hfinish
      refine ⟨Slice.behind before l :: slices, ?_, ⟨le_refl _, ?_, fits_behind hl hends, ?_⟩,
        hfinish⟩
      · rw [List.map_cons, hmap]
        rfl
      · rw [Slice.behind, List.extract, Nat.sub_self, List.take_zero]
        exact .nil
      · rwa [stop_behind]

/-- The token of a slice that fits is its lexeme at the place of the slice. -/
theorem Slice.Fits.token_eq {cs : List Char} {s : Slice} (h : s.Fits cs) :
    (⟨s.token.lexeme.kind, String.ofList s.token.lexeme.value,
      Position.origin.after (cs.take s.start)⟩ : Token) = s.token := by
  rw [after_take_eq_ofOffset, ← h.placed]
  unfold Token.lexeme
  rw [String.ofList_toList]

/-- Slices that tile the part of a text from an offset on are the tokens of that part. -/
theorem Tiled.scans {cs : List Char} {k : Nat} {slices : List Slice} (h : Tiled cs k slices) :
    Scans (Position.origin.after (cs.take k)) (cs.drop k)
      ⟨slices.map (·.token), Position.origin.after cs⟩ := by
  induction slices generalizing k with
  | nil =>
      have hfinish : Position.origin.after cs
          = (Position.origin.after (cs.take k)).after (cs.drop k) := by
        rw [← after_append, List.take_append_drop]
      rw [hfinish]
      exact .finished h.2
  | cons s later ih =>
      obtain ⟨hstart, hgap, hfits, hlater⟩ := h
      -- what is left after `k` is the gap, the characters of the slice and what is left after it
      have hstop : s.start ≤ s.stop := Nat.le_add_right _ _
      rw [← extract_append_drop hstart, ← extract_append_drop hstop, hfits.written]
      refine .gap hgap ?_
      rw [← after_append, take_append_extract hstart]
      have hrest := ih hlater
      rw [← take_append_extract hstop, after_append, hfits.written] at hrest
      have hwhole := Scans.lexeme hfits.sound hfits.longest hrest
      rwa [hfits.token_eq] at hwhole

/-- A text comes to some tokens exactly if they are those of slices that tile it from its
start. The slices are in order, and the tokens end at the place after the last character. -/
theorem scan_ok_iff_tiled {text : String} {ts : Tokens} :
    scan text = .ok ts ↔ ∃ slices : List Slice,
      slices.map (·.token) = ts.list ∧ Tiled text.toList 0 slices ∧
      (∀ s ∈ slices, s.start < s.stop) ∧ (slices.Pairwise fun a b => a.stop ≤ b.start) ∧
      ts.finish = .ofOffset text.toList text.toList.length := by
  have hend : Position.ofOffset text.toList text.toList.length
      = Position.origin.after text.toList := by
    rw [← after_take_eq_ofOffset, List.take_length]
  rw [scan, scanFrom_ok_iff_scans, hend]
  constructor
  · intro h
    obtain ⟨slices, hmap, htiled, hfinish⟩ := h.exists_tiled [] rfl
    obtain ⟨hpos, hpairs⟩ := htiled.ordered
    exact ⟨slices, hmap, htiled, fun s hs => (hpos s hs).2, hpairs, hfinish⟩
  · rintro ⟨slices, hmap, htiled, -, -, hfinish⟩
    have h := htiled.scans
    rw [hmap, ← hfinish] at h
    exact h

end SystemMap
