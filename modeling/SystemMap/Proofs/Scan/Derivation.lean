/-
The scan of a text as a derivation. A text that is scanned to its end consists of gaps and
lexemes, each lexeme cut off as far as it goes, and of what may stand after the last one.
`Scans` says that in three cases, and it says of the same texts as the scan that they come to
the same tokens (`scanFrom_ok_iff_scans`).

From the scan to the derivation the cases are those of proper pieces. What holds of every scan
is then proved by induction on the derivation, without another look at pieces. Texts that are
put together as spaced layouts have derivations by construction (`Layout.Spaced.scans`).
-/
import SystemMap.Proofs.Scan.Layout

namespace SystemMap

-- ============================================================ single steps

/-- A scan that comes to tokens has cut a piece off and gone on after it. -/
theorem scanFrom_cons_ok {p : Position} {c : Char} {cs : List Char} {ts : Tokens}
    (h : scanFrom p (c :: cs) = .ok ts) :
    ∃ piece later, Piece.cut c cs = .ok piece ∧
      scanFrom (p.after piece.taken) piece.rest = .ok later ∧ ts = piece.consTo p later := by
  rw [scanFrom] at h
  split at h
  · cases h
  · next piece hcut =>
    split at h
    · cases h
    · next later hlater =>
      cases h
      exact ⟨piece, later, hcut, hlater, rfl⟩

-- ======================================================== the derivation

/-- `Scans p cs ts`: the text `cs`, whose first character stands at `p`, comes to `ts`. -/
inductive Scans : Position → List Char → Tokens → Prop
  | finished {p cs} (h : Trailing cs) : Scans p cs ⟨[], p.after cs⟩
  | gap {p gap rest ts} (hgap : Gap gap) (h : Scans (p.after gap) rest ts) :
      Scans p (gap ++ rest) ts
  | lexeme {p} {l : Lexeme} {rest ts} (hl : l.Sound) (hends : l.Ends rest)
      (h : Scans (p.after l.text) rest ts) :
      Scans p (l.text ++ rest) { ts with list := ⟨l.kind, String.ofList l.value, p⟩ :: ts.list }

/-- The scan comes to what the derivation says. -/
theorem Scans.scanFrom_ok {p : Position} {cs : List Char} {ts : Tokens} (h : Scans p cs ts) :
    scanFrom p cs = .ok ts := by
  induction h with
  | finished h => exact scanFrom_trailing h _
  | gap hgap _ ih => exact (scanFrom_gap hgap _ _).trans ih
  | lexeme hl hends _ ih => exact scanFrom_lexeme hl hends ih

/-- A comment that ends its line is taken together with the line feed, since no gap breaks off
within a line. -/
theorem gap_line {line : List Char} (hline : '\n' ∉ line)
    (hword : Section.ofWord? (line.takeWhile isWordPart) = none) (p : Position)
    (later : List Char) : Gap ('#' :: line ++ ['\n']) ∧
      '#' :: line ++ '\n' :: later = '#' :: line ++ ['\n'] ++ later ∧
      scanFrom (p.after ('#' :: line)) ('\n' :: later)
        = scanFrom (p.after ('#' :: line ++ ['\n'])) later := by
  refine ⟨.comment hline hword .nil, by simp, ?_⟩
  rw [scanFrom_silent (Piece.cut_blank (by decide) _), ← after_append]

/-- Scans of the rest of a text after a comment and of the whole. -/
theorem scans_comment {p : Position} {line rest : List Char} {ts : Tokens} (hline : '\n' ∉ line)
    (hword : Section.ofWord? (line.takeWhile isWordPart) = none)
    (hrest : ∀ c ∈ rest.head?, c = '\n') (hscan : scanFrom (p.after ('#' :: line)) rest = .ok ts)
    (ih : ∀ q later us, later.length < rest.length → scanFrom q later = .ok us →
      Scans q later us) :
    Scans p ('#' :: line ++ rest) ts := by
  cases rest with
  | nil =>
      rw [scanFrom] at hscan
      cases hscan
      rw [List.append_nil]
      exact .finished (.comment .nil hline hword)
  | cons c later =>
      cases hrest c rfl
      obtain ⟨hgap, htext, hsame⟩ := gap_line hline hword p later
      rw [hsame] at hscan
      rw [htext]
      exact .gap hgap (ih _ _ _ (Nat.lt_succ_self _) hscan)

/-- The tokens of a text are those of a derivation. The induction is that of the scan, on what
is left of the text. -/
theorem scans_of_scanFrom {p : Position} {cs : List Char} {ts : Tokens}
    (h : scanFrom p cs = .ok ts) : Scans p cs ts := by
  induction hn : cs.length using Nat.strongRecOn generalizing p cs ts with
  | ind n ih =>
      cases cs with
      | nil =>
          rw [scanFrom] at h
          cases h
          exact .finished (.gap .nil)
      | cons c cs =>
          obtain ⟨piece, later, hcut, hlater, rfl⟩ := scanFrom_cons_ok h
          have hshort : piece.rest.length < n := hn ▸ Piece.cut_shorter hcut
          obtain ⟨htext, hproper⟩ := Piece.cut_ok_iff.1 hcut
          rw [← htext]
          cases hproper with
          | blank hc => exact .gap (.blank hc .nil) (ih _ hshort hlater rfl)
          | comment hline hword hrest =>
              exact scans_comment hline hword hrest hlater
                fun q rest us hrest hus => ih _ (Nat.lt_trans hrest hshort) hus rfl
          | lexeme hl hends => exact .lexeme hl hends (ih _ hshort hlater rfl)

theorem scanFrom_ok_iff_scans {p : Position} {cs : List Char} {ts : Tokens} :
    scanFrom p cs = .ok ts ↔ Scans p cs ts := ⟨scans_of_scanFrom, Scans.scanFrom_ok⟩

/-- The tokens of a text are sound lexemes. -/
theorem Scans.sound {p : Position} {cs : List Char} {ts : Tokens} (h : Scans p cs ts) :
    ∀ t ∈ ts.list, t.lexeme.Sound := by
  induction h with
  | finished h => nofun
  | gap hgap h ih => exact ih
  | lexeme hl hends h ih =>
      intro t ht
      rcases List.mem_cons.1 ht with rfl | ht
      · rwa [lexeme_placed]
      · exact ih t ht

-- ========================================================== spaced layouts

/-- The tokens of a spaced layout are its lexemes, by induction along the layout. -/
theorem Layout.Spaced.scans {layout : Layout} {tail : List Char} (h : layout.Spaced tail)
    (htail : Trailing tail) (p : Position) :
    ∃ ts, Scans p (layout.text ++ tail) ts ∧ ts.list.map Token.lexeme = layout.lexemes := by
  induction layout generalizing p with
  | nil => exact ⟨_, .finished htail, rfl⟩
  | cons ink later ih =>
      cases ink with
      | gap cs =>
          obtain ⟨hgap, hlater⟩ := h
          obtain ⟨ts, hscans, hlexemes⟩ := ih hlater (p.after cs)
          refine ⟨ts, ?_, hlexemes⟩
          rw [show text (.gap cs :: later) ++ tail = cs ++ (text later ++ tail) from
            List.append_assoc ..]
          exact .gap hgap hscans
      | lexeme l =>
          obtain ⟨hl, hends, hlater⟩ := h
          obtain ⟨ts, hscans, hlexemes⟩ := ih hlater (p.after l.text)
          refine ⟨{ ts with list := ⟨l.kind, String.ofList l.value, p⟩ :: ts.list }, ?_, ?_⟩
          · rw [show text (.lexeme l :: later) ++ tail = l.text ++ (text later ++ tail) from
              List.append_assoc ..]
            exact .lexeme hl hends hscans
          · show Token.lexeme _ :: ts.list.map Token.lexeme = l :: lexemes later
            rw [hlexemes, lexeme_placed]

/-- The tokens of a whole text that is a spaced layout with something after it. -/
theorem scan_spaced {layout : Layout} {tail : List Char} (h : layout.Spaced tail)
    (htail : Trailing tail) :
    ∃ ts, scan (String.ofList (layout.text ++ tail)) = .ok ts ∧
      ts.list.map Token.lexeme = layout.lexemes := by
  obtain ⟨ts, hscans, hlexemes⟩ := h.scans htail .origin
  refine ⟨ts, ?_, hlexemes⟩
  rw [scan, String.toList_ofList]
  exact hscans.scanFrom_ok

end SystemMap
