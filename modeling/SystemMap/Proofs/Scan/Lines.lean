/-
A text after another one, on the lines below it. A line feed ends whatever a text may end with:
blanks stay blanks, a comment in the last line ends there, and no word, number or sign gets any
longer (`Lexeme.Ends.append_line`). So the tokens of the whole are those of the first text and
then those of the second, which stand as many lines further down as the first text takes; and if
the second cannot be cut, the whole cannot, at the same character (`scan_below`).
-/
import SystemMap.Proofs.Scan.Slices

namespace SystemMap

-- ================================================================ moved places

/-- The place so many lines further down. -/
def Position.down (lines : Nat) (p : Position) : Position := ⟨p.line + lines, p.column⟩

section Moved

variable (f : Position → Position)

/-- A token with its place moved. -/
def Token.moved (t : Token) : Token := { t with position := f t.position }

@[simp] theorem Token.moved_kind (t : Token) : (t.moved f).kind = t.kind := rfl

@[simp] theorem Token.moved_value (t : Token) : (t.moved f).value = t.value := rfl

/-- Tokens with their places moved, and the place past them. -/
def Tokens.moved (ts : Tokens) : Tokens := ⟨ts.list.map (.moved f), f ts.finish⟩

/-- Tokens of other places have the same kinds. -/
theorem Tokens.headKind?_moved (ts : Tokens) : (ts.moved f).headKind? = ts.headKind? := by
  obtain ⟨list, finish⟩ := ts
  cases list <;> rfl

theorem Tokens.secondKind?_moved (ts : Tokens) : (ts.moved f).secondKind? = ts.secondKind? := by
  obtain ⟨list, finish⟩ := ts
  match list with
  | [] => rfl
  | [t] => rfl
  | t :: u :: list => rfl

/-- A fault of scanning with its place moved. -/
def ScanError.moved (e : ScanError) : ScanError := { e with position := f e.position }

end Moved

/-- Tokens that others come before. -/
def Tokens.preceded (before : List Token) (ts : Tokens) : Tokens := ⟨before ++ ts.list, ts.finish⟩

-- ============================================================== further down

/-- Where a text ends is as many lines further down as where it starts. -/
theorem Position.down_after (lines : Nat) (p : Position) (cs : List Char) :
    (p.down lines).after cs = (p.after cs).down lines := by
  induction cs generalizing p with
  | nil => rfl
  | cons c cs ih =>
      have hstep : (p.down lines).step c = (p.step c).down lines := by
        unfold step down
        split
        · simp only [Int.add_right_comm]
        · rfl
      show ((p.down lines).step c).after cs = ((p.step c).after cs).down lines
      rw [hstep, ih]

/-- A piece in front of moved tokens is moved with them. -/
theorem Piece.consTo_moved (f : Position → Position) (piece : Piece) (p : Position)
    (ts : Tokens) : piece.consTo (f p) (ts.moved f) = (piece.consTo p ts).moved f := by
  unfold consTo
  split <;> rfl

/-- A text that starts further down has its tokens, or its fault, further down. The induction is
that of the scan, on what is left of the text. -/
theorem scanFrom_down (lines : Nat) (p : Position) (cs : List Char) :
    scanFrom (p.down lines) cs = match scanFrom p cs with
      | .ok ts => .ok (ts.moved (.down lines))
      | .error e => .error (e.moved (.down lines)) := by
  induction hn : cs.length using Nat.strongRecOn generalizing p cs with
  | ind n ih =>
      cases cs with
      | nil =>
          rw [scanFrom, scanFrom]
          rfl
      | cons c cs =>
          cases hcut : Piece.cut c cs with
          | error fault => rw [scanFrom_uncut hcut, scanFrom_uncut hcut]; rfl
          | ok piece =>
              have hless : piece.rest.length < n := hn ▸ Piece.cut_shorter hcut
              rw [scanFrom_cut hcut, scanFrom_cut hcut, p.down_after, ih _ hless _ _ rfl]
              cases scanFrom (p.after piece.taken) piece.rest with
              | error e => rfl
              | ok ts => exact congrArg Except.ok (piece.consTo_moved _ p ts)

-- ================================================================= line feeds

/-- What may stand after the last token of a text is a gap if the line ends after it. -/
theorem Trailing.gap_line {cs : List Char} (h : Trailing cs) : Gap (cs ++ ['\n']) := by
  cases h with
  | gap h => exact h.append (.blank (by decide) .nil)
  | comment h hline hword =>
      rw [List.append_assoc]
      exact h.append (.comment hline hword .nil)

/-- What ends before the end of a text ends before the end of a line. -/
theorem Lexeme.Ends.append_line {l : Lexeme} {rest : List Char} (h : l.Ends rest)
    (later : List Char) : l.Ends (rest ++ '\n' :: later) := by
  have hhead : ∀ {P : Char → Prop}, P '\n' → (∀ c ∈ rest.head?, P c) →
      ∀ c ∈ (rest ++ '\n' :: later).head?, P c := by
    intro P hline hrest c hc
    cases rest with
    | nil =>
        cases hc
        exact hline
    | cons d rest => exact hrest c hc
  obtain ⟨kind, value⟩ := l
  cases kind with
  | marker s => exact hhead (by decide) h
  | includeWord => exact hhead (by decide) h
  | udpWord => exact hhead (by decide) h
  | name => exact hhead (by decide) h
  | number => exact hhead (by decide) h
  | dash => exact hhead (by decide) h
  | _ => trivial

/-- The scan of a text with another one on the lines below, by induction along the first. -/
theorem Scans.scanFrom_below {p : Position} {cs : List Char} {ts : Tokens} (h : Scans p cs ts)
    (later : List Char) : scanFrom p (cs ++ '\n' :: later) =
      (scanFrom ((p.after cs).step '\n') later).map (.preceded ts.list) := by
  induction h with
  | @finished p cs h =>
      rw [← List.singleton_append, ← List.append_assoc, scanFrom_gap h.gap_line, after_append]
      show scanFrom ((p.after cs).step '\n') later = _
      cases scanFrom ((p.after cs).step '\n') later <;> rfl
  | @gap p gap rest ts hgap h ih =>
      rw [List.append_assoc, scanFrom_gap hgap, ih, after_append]
  | @lexeme p l rest ts hl hends h ih =>
      rw [List.append_assoc, scanFrom_lexeme_eq hl (hends.append_line later), ih, after_append]
      cases scanFrom (((p.after l.text).after rest).step '\n') later <;> rfl

/-- So many lines a text takes if a line feed comes after it. -/
def linesOf (text : String) : Nat := text.toList.count '\n' + 1

/-- The place below a text. -/
theorem after_line (cs : List Char) :
    (Position.origin.after cs).step '\n' = Position.origin.down (cs.count '\n' + 1) := by
  have hafter := after_take_eq_ofOffset cs cs.length
  rw [List.take_length] at hafter
  rw [hafter, Position.ofOffset, List.take_length]
  simp [Position.step, Position.down, Position.origin, Int.add_assoc]

/-- The tokens of a text with another one on the lines below are those of the first and then
those of the second, further down; where the second cannot be cut, so cannot the whole. -/
theorem scan_below {first : String} {ts : Tokens} (h : scan first = .ok ts) (second : String) :
    scan (first ++ "\n" ++ second) = match scan second with
      | .ok us => .ok ((us.moved (.down (linesOf first))).preceded ts.list)
      | .error e => .error (e.moved (.down (linesOf first))) := by
  have htext : (first ++ "\n" ++ second).toList = first.toList ++ '\n' :: second.toList := by
    rw [String.toList_append, String.toList_append, List.append_assoc]
    rfl
  unfold scan
  rw [htext, (scans_of_scanFrom h).scanFrom_below, after_line, scanFrom_down]
  cases scanFrom .origin second.toList <;> rfl

/-- Texts are scanned line by line. Below a text that is scanned, another one has the tokens and
the end that it has by itself, after those of the first, or the error that it has by itself; all
in the same columns, and so many lines further down as the first text and a line feed take. -/
theorem scan_line_by_line {first : String} {ts : Tokens} (h : scan first = .ok ts)
    (second : String) :
    (∀ us, scan second = .ok us → scan (first ++ "\n" ++ second) = .ok
      ⟨ts.list ++ us.list.map fun t => ⟨t.kind, t.value,
          ⟨t.position.line + (first.toList.count '\n' + 1 : Nat), t.position.column⟩⟩,
        ⟨us.finish.line + (first.toList.count '\n' + 1 : Nat), us.finish.column⟩⟩) ∧
    ∀ e, scan second = .error e → scan (first ++ "\n" ++ second) = .error
      ⟨e.fault, ⟨e.position.line + (first.toList.count '\n' + 1 : Nat), e.position.column⟩⟩ := by
  refine ⟨fun us hus => ?_, fun e he => ?_⟩
  · rw [scan_below h, hus]
    rfl
  · rw [scan_below h, he]
    rfl

/-- A dash and an open comment end with their lines: below them an arrowhead is refused, as it is
by itself, and a word is a word. -/
theorem lines_below_comment : scan "-" = .ok ⟨[⟨.dash, "-", ⟨1, 1⟩⟩], ⟨1, 2⟩⟩ ∧
    scan ("-" ++ "\n" ++ ">") = .error ⟨.unexpected '>', ⟨2, 1⟩⟩ ∧
    scan ("a\n#" ++ "\n" ++ " nat") =
      .ok ⟨[⟨.name, "a", ⟨1, 1⟩⟩, ⟨.name, "nat", ⟨3, 2⟩⟩], ⟨3, 5⟩⟩ := by
  have hdash : scan "-" = .ok ⟨[⟨.dash, "-", ⟨1, 1⟩⟩], ⟨1, 2⟩⟩ := by decide +kernel
  have hcomment : scan "a\n#" = .ok ⟨[⟨.name, "a", ⟨1, 1⟩⟩], ⟨2, 2⟩⟩ := by decide +kernel
  have hhead : scan ">" = .error ⟨.unexpected '>', ⟨1, 1⟩⟩ := by decide +kernel
  have hword : scan " nat" = .ok ⟨[⟨.name, "nat", ⟨1, 2⟩⟩], ⟨1, 5⟩⟩ := by decide +kernel
  refine ⟨hdash, ?_, ?_⟩
  · rw [(scan_line_by_line hdash ">").2 _ hhead]
    decide
  · rw [(scan_line_by_line hcomment " nat").1 _ hword]
    decide

end SystemMap
