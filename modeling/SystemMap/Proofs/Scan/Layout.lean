/-
Texts put together from lexemes and gaps. A layout is spaced if every lexeme in it is sound and
ends before what follows it, so that no two of them run into one another. The scan takes such
a text part by part: a gap only moves the place, and a lexeme becomes a token.
-/
import SystemMap.Proofs.Scan.Lexeme

namespace SystemMap

/-- What may stand between tokens: blanks, and comments up to the end of their lines. -/
inductive Gap : List Char → Prop
  | nil : Gap []
  | blank {c cs} (hc : isSpace c = true) (h : Gap cs) : Gap (c :: cs)
  | comment {line cs} (hline : '\n' ∉ line)
      (hword : Section.ofWord? (line.takeWhile isWordPart) = none) (h : Gap cs) :
      Gap ('#' :: (line ++ '\n' :: cs))

theorem Gap.append {a b : List Char} (ha : Gap a) (hb : Gap b) : Gap (a ++ b) := by
  induction ha with
  | nil => exact hb
  | blank hc h ih => exact .blank hc ih
  | comment hline hword h ih =>
      rw [List.cons_append, List.append_assoc, List.cons_append]
      exact .comment hline hword ih

/-- What may stand after the last token: a gap, and perhaps a comment whose line the text does
not end. -/
inductive Trailing : List Char → Prop
  | gap {cs} (h : Gap cs) : Trailing cs
  | comment {cs line} (h : Gap cs) (hline : '\n' ∉ line)
      (hword : Section.ofWord? (line.takeWhile isWordPart) = none) :
      Trailing (cs ++ '#' :: line)

/-- A gap in front of trailing remarks is trailing too. -/
theorem Gap.append_trailing {a b : List Char} (ha : Gap a) (hb : Trailing b) :
    Trailing (a ++ b) := by
  cases hb with
  | gap h => exact .gap (ha.append h)
  | comment h hline hword =>
      rw [← List.append_assoc]
      exact .comment (ha.append h) hline hword

/-- A part of a text. -/
inductive Ink where
  | gap (cs : List Char)
  | lexeme (l : Lexeme)
deriving DecidableEq

/-- The parts of a text, in order. -/
abbrev Layout := List Ink

/-- How a part is written. -/
def Ink.text : Ink → List Char
  | .gap cs => cs
  | .lexeme l => l.text

/-- The lexeme that a part is, if it is one. -/
def Ink.lexeme? : Ink → Option Lexeme
  | .gap _ => none
  | .lexeme l => some l

namespace Layout

/-- The text of a layout. -/
def text (layout : Layout) : List Char := layout.flatMap Ink.text

/-- The lexemes of a layout. -/
def lexemes (layout : Layout) : List Lexeme := layout.filterMap Ink.lexeme?

/-- Gaps are gaps, and lexemes are sound and end before what follows them, which is the rest
of the layout and then `tail`. -/
def Spaced : Layout → List Char → Prop
  | [], _ => True
  | .gap cs :: later, tail => Gap cs ∧ Spaced later tail
  | .lexeme l :: later, tail => l.Sound ∧ l.Ends (text later ++ tail) ∧ Spaced later tail

theorem text_append (a b : Layout) : text (a ++ b) = text a ++ text b := List.flatMap_append

theorem lexemes_append (a b : Layout) : lexemes (a ++ b) = lexemes a ++ lexemes b :=
  List.filterMap_append

/-- A layout in two parts is spaced if both are, the first before the second. -/
theorem Spaced.append {a b : Layout} {tail : List Char} (ha : Spaced a (text b ++ tail))
    (hb : Spaced b tail) : Spaced (a ++ b) tail := by
  induction a with
  | nil => exact hb
  | cons ink a ih =>
      cases ink with
      | gap cs => exact ⟨ha.1, ih ha.2⟩
      | lexeme l =>
          refine ⟨ha.1, ?_, ih ha.2.2⟩
          show l.Ends (text (a ++ b) ++ tail)
          rw [text_append, List.append_assoc]
          exact ha.2.1

end Layout

-- ================================================================ scanning

theorem after_append (p : Position) (a b : List Char) : p.after (a ++ b) = (p.after a).after b :=
  List.foldl_append

/-- A scan goes on after the piece that it cuts off. -/
theorem scanFrom_cut {p : Position} {c : Char} {cs : List Char} {piece : Piece}
    (hcut : Piece.cut c cs = .ok piece) :
    scanFrom p (c :: cs)
      = (scanFrom (p.after piece.taken) piece.rest).map (piece.consTo p) := by
  rw [scanFrom]
  split
  · next fault h => cases hcut.symm.trans h
  · next found h =>
    cases hcut.symm.trans h
    cases scanFrom (p.after piece.taken) piece.rest <;> rfl

/-- A scan ends where no piece can be cut off. -/
theorem scanFrom_uncut {p : Position} {c : Char} {cs : List Char} {fault : ScanFault}
    (hcut : Piece.cut c cs = .error fault) : scanFrom p (c :: cs) = .error ⟨fault, p⟩ := by
  rw [scanFrom]
  split
  · next found h =>
    cases hcut.symm.trans h
    rfl
  · next piece h => cases hcut.symm.trans h

/-- The rest of a text after a piece that is no token. -/
theorem scanFrom_silent {p : Position} {c : Char} {cs taken rest : List Char}
    (hcut : Piece.cut c cs = .ok ⟨none, taken, rest⟩) :
    scanFrom p (c :: cs) = scanFrom (p.after taken) rest := by
  rw [scanFrom_cut hcut]
  cases scanFrom (p.after taken) rest <;> rfl

/-- A gap only moves the place. -/
theorem scanFrom_gap {cs : List Char} (h : Gap cs) (p : Position) (rest : List Char) :
    scanFrom p (cs ++ rest) = scanFrom (p.after cs) rest := by
  induction h generalizing p with
  | nil => rfl
  | @blank c cs hc h ih => exact (scanFrom_silent (Piece.cut_blank hc _)).trans (ih _)
  | @comment line cs hline hword h ih =>
      have hcut : Piece.cut '#' (line ++ '\n' :: (cs ++ rest))
          = .ok ⟨none, '#' :: line, '\n' :: (cs ++ rest)⟩ :=
        Piece.cut_comment hline hword fun c hc => (Option.some.inj hc).symm
      rw [List.cons_append, List.append_assoc, List.cons_append, scanFrom_silent hcut,
        scanFrom_silent (Piece.cut_blank (by decide) _), ih, ← after_append, ← after_append]
      rfl

/-- What stands after the last token leaves nothing behind. -/
theorem scanFrom_trailing {cs : List Char} (h : Trailing cs) (p : Position) :
    scanFrom p cs = .ok ⟨[], p.after cs⟩ := by
  cases h with
  | gap h =>
      have hgap := scanFrom_gap h p []
      rw [List.append_nil] at hgap
      rw [hgap, scanFrom]
  | @comment cs line h hline hword =>
      have hcut : Piece.cut '#' (line ++ []) = .ok ⟨none, '#' :: line, []⟩ :=
        Piece.cut_comment hline hword fun c hc => by cases hc
      rw [List.append_nil] at hcut
      rw [scanFrom_gap h, scanFrom_silent hcut, scanFrom, after_append]

/-- A sound lexeme becomes a token before those of the rest. -/
theorem scanFrom_lexeme_eq {l : Lexeme} (hl : l.Sound) {rest : List Char} (hrest : l.Ends rest)
    {p : Position} : scanFrom p (l.text ++ rest) = (scanFrom (p.after l.text) rest).map
      fun ts => { ts with list := ⟨l.kind, String.ofList l.value, p⟩ :: ts.list } := by
  obtain ⟨c, cs, htext, hcut⟩ := Piece.cut_lexeme hl hrest
  rw [htext, scanFrom_cut hcut]
  rfl

/-- A lexeme in front adds its token. -/
theorem scanFrom_lexeme {l : Lexeme} (hl : l.Sound) {rest : List Char} (hrest : l.Ends rest)
    {p : Position} {ts : Tokens} (hscan : scanFrom (p.after l.text) rest = .ok ts) :
    scanFrom p (l.text ++ rest)
      = .ok { ts with list := ⟨l.kind, String.ofList l.value, p⟩ :: ts.list } := by
  rw [scanFrom_lexeme_eq hl hrest, hscan]
  rfl

end SystemMap
