/-
Where the scan of a text breaks off. It takes gaps and lexemes as far as it can, so the text is a
spaced layout up to the place of the error, and what stands there cannot be cut (`BreaksOff`).

Cutting looks ahead: for a closing quote, for the end of a line, for a second colon. But what has
been cut off before the error depends on no more than the next character (`Lexeme.Ends.of_head`),
and that is there whether the text goes on or not. So the text before the error can be scanned
by itself, and any text that has the same characters up to there breaks off with the same error.
-/
import SystemMap.Proofs.Scan.Places

namespace SystemMap

-- ========================================================= what comes next

/-- A lexeme ends where it did if the text is cut off behind it, or goes on as it did. -/
theorem Lexeme.Ends.of_head {l : Lexeme} {rest rest' : List Char} (h : l.Ends rest)
    (hhead : ∀ c ∈ rest'.head?, c ∈ rest.head?) : l.Ends rest' := by
  obtain ⟨kind, value⟩ := l
  cases kind with
  | marker _ | includeWord | udpWord | name | number | dash => exact fun c hc => h c (hhead c hc)
  | _ => trivial

/-- The parts of a text before its tail stay the same parts if the tail is taken away, or becomes
another one that begins alike. -/
theorem Layout.Spaced.of_head {layout : Layout} {tail tail' : List Char} (h : layout.Spaced tail)
    (hhead : ∀ c ∈ tail'.head?, c ∈ tail.head?) : layout.Spaced tail' := by
  induction layout with
  | nil => trivial
  | cons ink later ih =>
      cases ink with
      | gap cs => exact ⟨h.1, ih h.2⟩
      | lexeme l =>
          refine ⟨h.1, h.2.1.of_head ?_, ih h.2.2⟩
          -- what follows the lexeme is in the later parts, if they have any characters
          cases Layout.text later with
          | nil => exact hhead
          | cons c cs => exact fun d hd => hd

-- ============================================================== breaking off

/-- A scan takes the parts of a spaced layout one by one and breaks off behind them. -/
theorem Layout.Spaced.scanFrom_uncut {layout : Layout} {c : Char} {after : List Char}
    {fault : ScanFault} (h : layout.Spaced (c :: after))
    (hcut : Piece.cut c after = .error fault) (p : Position) :
    scanFrom p (layout.text ++ c :: after) = .error ⟨fault, p.after layout.text⟩ := by
  induction layout generalizing p with
  | nil => exact SystemMap.scanFrom_uncut hcut
  | cons ink later ih =>
      cases ink with
      | gap cs =>
          obtain ⟨hgap, hlater⟩ := h
          rw [show text (.gap cs :: later) = cs ++ text later from rfl, List.append_assoc,
            scanFrom_gap hgap, ih hlater, after_append]
      | lexeme l =>
          obtain ⟨hl, hends, hlater⟩ := h
          rw [show text (.lexeme l :: later) = l.text ++ text later from rfl, List.append_assoc,
            scanFrom_lexeme_eq hl hends, ih hlater, after_append]
          rfl

/-- A text that starts at `p` breaks off with `e`: it is a spaced layout and then something that
cannot be cut, at the place of `e`. -/
def BreaksOff (p : Position) (cs : List Char) (e : ScanError) : Prop :=
  ∃ (layout : Layout) (c : Char) (after : List Char), cs = layout.text ++ c :: after ∧
    layout.Spaced (c :: after) ∧ Piece.cut c after = .error e.fault ∧
    e.position = p.after layout.text

section BreaksOff

variable {p : Position} {rest : List Char} {e : ScanError}

theorem BreaksOff.gap {gap : List Char} (hgap : Gap gap) (h : BreaksOff (p.after gap) rest e) :
    BreaksOff p (gap ++ rest) e := by
  obtain ⟨layout, c, after, rfl, hspaced, hcut, hplace⟩ := h
  exact ⟨.gap gap :: layout, c, after, (List.append_assoc ..).symm, ⟨hgap, hspaced⟩, hcut,
    hplace.trans (after_append ..).symm⟩

theorem BreaksOff.lexeme {l : Lexeme} (hl : l.Sound) (hends : l.Ends rest)
    (h : BreaksOff (p.after l.text) rest e) : BreaksOff p (l.text ++ rest) e := by
  obtain ⟨layout, c, after, rfl, hspaced, hcut, hplace⟩ := h
  exact ⟨.lexeme l :: layout, c, after, (List.append_assoc ..).symm, ⟨hl, hends, hspaced⟩, hcut,
    hplace.trans (after_append ..).symm⟩

end BreaksOff

/-- A scan that comes to an error comes to it right away or after the piece that it cuts off. -/
theorem scanFrom_cons_error {p : Position} {c : Char} {cs : List Char} {e : ScanError}
    (h : scanFrom p (c :: cs) = .error e) :
    (Piece.cut c cs = .error e.fault ∧ e.position = p) ∨ ∃ piece, Piece.cut c cs = .ok piece ∧
      scanFrom (p.after piece.taken) piece.rest = .error e := by
  cases hcut : Piece.cut c cs with
  | error fault =>
      rw [scanFrom_uncut hcut] at h
      cases h
      exact .inl ⟨rfl, rfl⟩
  | ok piece =>
      rw [scanFrom_cut hcut] at h
      refine .inr ⟨piece, rfl, ?_⟩
      cases hlater : scanFrom (p.after piece.taken) piece.rest with
      | ok ts =>
          rw [hlater] at h
          cases h
      | error e' =>
          rw [hlater] at h
          exact h

/-- A scan breaks off where the text does. The induction is that of the scan, on what is left of
the text; a comment is taken together with the line feed that it ends before, as in a gap. -/
theorem scanFrom_error_iff {p : Position} {cs : List Char} {e : ScanError} :
    scanFrom p cs = .error e ↔ BreaksOff p cs e := by
  constructor
  · intro h
    induction hn : cs.length using Nat.strongRecOn generalizing p cs with
    | ind n ih =>
        cases cs with
        | nil =>
            rw [scanFrom] at h
            cases h
        | cons c cs =>
            rcases scanFrom_cons_error h with ⟨hcut, hplace⟩ | ⟨piece, hcut, hlater⟩
            · exact ⟨[], c, cs, rfl, trivial, hcut, hplace⟩
            · have hshort : piece.rest.length < n := hn ▸ Piece.cut_shorter hcut
              obtain ⟨htext, hproper⟩ := Piece.cut_ok_iff.1 hcut
              rw [← htext]
              cases hproper with
              | blank hc => exact .gap (.blank hc .nil) (ih _ hshort hlater rfl)
              | lexeme hl hends => exact .lexeme hl hends (ih _ hshort hlater rfl)
              | @comment line rest hline hword hrest =>
                  cases rest with
                  | nil =>
                      rw [scanFrom] at hlater
                      cases hlater
                  | cons c rest =>
                      cases hrest c rfl
                      obtain ⟨hgap, htext, hsame⟩ := gap_line hline hword p rest
                      rw [hsame] at hlater
                      rw [htext]
                      exact .gap hgap (ih _ (Nat.lt_trans (Nat.lt_succ_self _) hshort) hlater rfl)
  · rintro ⟨layout, c, after, rfl, hspaced, hcut, hplace⟩
    rw [hspaced.scanFrom_uncut hcut, ← hplace]

-- ================================================================= whole texts

/-- The characters before the place where a text breaks off are scanned, up to that place. -/
theorem Layout.Spaced.scan_before {layout : Layout} {tail : List Char} (h : layout.Spaced tail) :
    ∃ ts, scan (String.ofList layout.text) = .ok ts ∧
      ts.finish = Position.origin.after layout.text := by
  have halone : layout.Spaced [] := h.of_head nofun
  obtain ⟨ts, hscans, -⟩ := halone.scans (.gap .nil) .origin
  rw [List.append_nil] at hscans
  obtain ⟨-, -, -, hfinish⟩ := hscans.exists_tiled [] rfl
  refine ⟨ts, ?_, hfinish⟩
  rw [scan, String.toList_ofList]
  exact hscans.scanFrom_ok

/-- A stray character stays one whatever comes next, but for a colon. -/
theorem Piece.Stray.of_colon {c : Char} {rest rest' : List Char} (h : Stray c rest)
    (hcolon : c = ':' → rest'.head? = rest.head?) : Stray c rest' :=
  { h with colon := fun hc => hcolon hc ▸ h.colon hc }

/-- A text that cannot be scanned is refused at the first character that is at fault. There is
one offset with the place of the error. The characters before it are scanned by themselves, to
an end at that place. If the character at the offset is unexpected, then every other text that
has the same characters up to there is refused with the same error; if it is a colon, then the
texts must also go on with the same character, or both end. Otherwise a quoted text begins at
the offset, and no quote follows. -/
theorem scan_error_at_first {text : String} {e : ScanError} (h : scan text = .error e) :
    ∃ k < text.toList.length,
      (∀ j ≤ text.toList.length, .ofOffset text.toList j = e.position ↔ j = k) ∧
      (∃ ts, scan (String.ofList (text.toList.take k)) = .ok ts ∧ ts.finish = e.position) ∧
      ((∃ c, e.fault = .unexpected c ∧ text.toList[k]? = some c ∧
          ∀ other : String, other.toList.take (k + 1) = text.toList.take (k + 1) →
            (c = ':' → other.toList[k + 1]? = text.toList[k + 1]?) → scan other = .error e) ∨
        (e.fault = .unterminatedText ∧ text.toList[k]? = some '"' ∧
          '"' ∉ text.toList.drop (k + 1))) := by
  obtain ⟨layout, c, after, htext, hspaced, hcut, hplace⟩ := scanFrom_error_iff.1 h
  have hlength : layout.text.length < text.toList.length := by simp [htext]
  have hbefore : text.toList.take layout.text.length = layout.text := by rw [htext, List.take_left]
  have hat : text.toList[layout.text.length]? = some c := by simp [htext]
  have hthrough : text.toList.take (layout.text.length + 1) = layout.text ++ [c] := by
    rw [List.take_add_one, hbefore, hat]
    rfl
  have hafter : text.toList.drop (layout.text.length + 1) = after := by
    simp [htext, List.drop_append]
  refine ⟨layout.text.length, hlength, fun j hj => ?_, ?_, ?_⟩
  · rw [hplace, ← Position.ofOffset_inj hj (Nat.le_of_lt hlength),
      ← after_take_eq_ofOffset _ layout.text.length, hbefore]
  · rw [hbefore, hplace]
    exact hspaced.scan_before
  rcases Piece.cut_error_iff.1 hcut with ⟨hfault, hstray⟩ | ⟨hfault, rfl, hopen⟩
  · refine .inl ⟨c, hfault, hat, fun other hsame hcolon => scanFrom_error_iff.2 ?_⟩
    -- the other text is the same layout, the same character and something else behind it
    have hother : other.toList
        = layout.text ++ c :: other.toList.drop (layout.text.length + 1) := by
      rw [List.append_cons, ← hthrough, ← hsame, List.take_append_drop]
    refine ⟨layout, c, _, hother, hspaced.of_head fun d hd => hd, ?_, hplace⟩
    rw [hfault]
    refine Piece.cut_error_iff.2 (.inl ⟨rfl, hstray.of_colon fun hc => ?_⟩)
    rw [List.head?_drop, hcolon hc, ← hafter, List.head?_drop]
  · exact .inr ⟨hfault, hat, hafter ▸ hopen⟩

/-- A colon by itself is refused on its line and in its column, and with other characters than
the next behind it as well. -/
theorem lone_colon_refused :
    scan "x\n :y" = .error ⟨.unexpected ':', ⟨2, 2⟩⟩ ∧
    (∃ ts, scan "x\n " = .ok ts ∧ ts.finish = ⟨2, 2⟩) ∧
    scan "x\n :y::" = .error ⟨.unexpected ':', ⟨2, 2⟩⟩ := by
  have hrefused : scan "x\n :y" = .error ⟨.unexpected ':', ⟨2, 2⟩⟩ := by decide +kernel
  obtain ⟨k, -, hplace, hbefore, hfault⟩ := scan_error_at_first hrefused
  cases (hplace 3 (by decide)).1 (by decide)
  refine ⟨hrefused, hbefore, ?_⟩
  rcases hfault with ⟨c, -, -, hother⟩ | ⟨hfault, -⟩
  · exact hother _ (by decide) fun _ => by decide
  · cases hfault

end SystemMap
