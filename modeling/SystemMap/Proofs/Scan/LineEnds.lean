/-
Texts with other line ends. A carriage return right before a line feed can be left out: it is a
blank or the end of a comment there, or it stands inside a quoted text. In each case the line
feed that comes next brings the columns back to where they would be without it, so the two scans,
one of which is some characters behind the other, agree at every token (`scan_dropReturns`).

A carriage return that stands elsewhere stays what it is, a blank that takes a column.
-/
import SystemMap.Proofs.Scan.Derivation

namespace SystemMap

/-- Characters with a line feed for every carriage return and line feed that stand together. -/
def dropReturns : List Char → List Char
  | '\r' :: '\n' :: cs => '\n' :: dropReturns cs
  | c :: cs => c :: dropReturns cs
  | [] => []

-- ============================================================ characters kept

/-- All but a carriage return before a line feed is kept. -/
theorem dropReturns_cons {c : Char} {cs : List Char} (h : c = '\r' → cs.head? ≠ some '\n') :
    dropReturns (c :: cs) = c :: dropReturns cs := by
  rw [dropReturns]
  rintro cs rfl rfl
  exact h rfl rfl

/-- Without line feeds, or without returns, all is kept. -/
theorem dropReturns_eq_self {cs : List Char} (h : '\n' ∉ cs ∨ '\r' ∉ cs) :
    dropReturns cs = cs := by
  induction cs with
  | nil => rfl
  | cons c cs ih =>
      have hlater : '\n' ∉ cs ∨ '\r' ∉ cs :=
        h.imp List.not_mem_of_not_mem_cons List.not_mem_of_not_mem_cons
      rw [dropReturns_cons ?_, ih hlater]
      rintro rfl hfeed
      rcases h with hline | hreturn
      · exact hline (List.mem_cons_of_mem _ (List.mem_of_head? hfeed))
      · exact hreturn List.mem_cons_self

/-- Only a carriage return is ever left out. -/
theorem mem_dropReturns {c : Char} (hc : c ≠ '\r') {cs : List Char} :
    c ∈ dropReturns cs ↔ c ∈ cs := by
  fun_induction dropReturns cs with
  | case1 cs ih => simp [hc, ih]
  | case2 d cs hd ih => simp [ih]
  | case3 => rfl

/-- A text begins as it did, or with a line feed where it began with a carriage return. -/
theorem head?_dropReturns (cs : List Char) :
    (dropReturns cs).head? = cs.head? ∨
      cs.head? = some '\r' ∧ (dropReturns cs).head? = some '\n' := by
  fun_induction dropReturns cs with
  | case1 cs ih => exact .inr ⟨rfl, rfl⟩
  | case2 d cs hd ih => exact .inl rfl
  | case3 => exact .inl rfl

/-- What begins a text without its returns is a line feed or began it before. -/
theorem of_mem_head?_dropReturns {P : Char → Prop} (hline : P '\n') {cs : List Char}
    (h : ∀ c ∈ cs.head?, P c) : ∀ c ∈ (dropReturns cs).head?, P c := by
  intro c hc
  rcases head?_dropReturns cs with hsame | ⟨-, hother⟩
  · exact h c (hsame ▸ hc)
  · rw [hother] at hc
    cases hc
    exact hline

/-- Two texts lose no return where they meet, unless it is there that the line ends. -/
theorem dropReturns_append {a b : List Char}
    (h : a.getLast? = some '\r' → b.head? ≠ some '\n') :
    dropReturns (a ++ b) = dropReturns a ++ dropReturns b := by
  fun_induction dropReturns a with
  | case1 a ih =>
      refine congrArg _ (ih fun hlast => h ?_)
      rw [List.getLast?_cons_cons, List.getLast?_cons, hlast]
      rfl
  | case2 c a hc ih =>
      have hnext : c = '\r' → (a ++ b).head? ≠ some '\n' := by
        rintro rfl
        cases a with
        | nil => exact h rfl
        | cons d a => exact fun hd => hc a rfl (congrArg (· :: a) (Option.some.inj hd))
      rw [List.cons_append, dropReturns_cons hnext, ih, List.cons_append]
      intro hlast
      refine h ?_
      rw [List.getLast?_cons, hlast]
      rfl
  | case3 => rfl

/-- A line feed brings the columns back, so a return before it does not count. -/
theorem after_dropReturns (p : Position) (cs : List Char) :
    p.after (dropReturns cs) = p.after cs := by
  fun_induction dropReturns cs generalizing p with
  | case1 cs ih => exact ih (p.step '\n')
  | case2 c cs hc ih => exact ih (p.step c)
  | case3 => rfl

-- ==================================================================== lines

/-- The end of a line, seen from its front: what is left of the line has no line feed, and
begins with the same word. -/
theorem exists_line_dropReturns {line : List Char} (hline : '\n' ∉ line) :
    ∃ kept, '\n' ∉ kept ∧ kept.takeWhile isWordPart = line.takeWhile isWordPart ∧
      ∀ later, dropReturns (line ++ '\n' :: later) = kept ++ '\n' :: dropReturns later := by
  induction line with
  | nil => exact ⟨[], nofun, rfl, fun later => dropReturns_cons (absurd · (by decide))⟩
  | cons c line ih =>
      have hc : '\n' ≠ c := List.ne_of_not_mem_cons hline
      have hrest : '\n' ∉ line := List.not_mem_of_not_mem_cons hline
      by_cases hend : c = '\r' ∧ line = []
      · obtain ⟨rfl, rfl⟩ := hend
        exact ⟨[], nofun, rfl, fun later => rfl⟩
      · obtain ⟨kept, hkept, hword, hall⟩ := ih hrest
        refine ⟨c :: kept, List.not_mem_cons_of_ne_of_not_mem hc hkept, ?_, fun later => ?_⟩
        · rw [List.takeWhile_cons, List.takeWhile_cons, hword]
        · have hnext : c = '\r' → (line ++ '\n' :: later).head? ≠ some '\n' := by
            rintro rfl hd
            cases line with
            | nil => exact hend ⟨rfl, rfl⟩
            | cons d line =>
                cases hd
                exact hrest List.mem_cons_self
          rw [List.cons_append, dropReturns_cons hnext, hall, List.cons_append]

/-- A comment with the end of its line is a gap still, and leads to the same place. -/
theorem gap_comment_dropReturns {line : List Char} (hline : '\n' ∉ line)
    (hword : Section.ofWord? (line.takeWhile isWordPart) = none) :
    ∃ gap, Gap gap ∧
      (∀ later, dropReturns ('#' :: line ++ '\n' :: later) = gap ++ dropReturns later) ∧
      ∀ p : Position, p.after gap = p.after ('#' :: line ++ ['\n']) := by
  obtain ⟨kept, hkept, hsame, hall⟩ := exists_line_dropReturns hline
  have hdrop : ∀ later, dropReturns ('#' :: line ++ '\n' :: later)
      = '#' :: kept ++ ['\n'] ++ dropReturns later := by
    intro later
    rw [List.cons_append, dropReturns_cons (absurd · (by decide)), hall]
    simp
  refine ⟨'#' :: kept ++ ['\n'], .comment hkept (hsame ▸ hword) .nil, hdrop, fun p => ?_⟩
  rw [← after_dropReturns p ('#' :: line ++ ['\n']), hdrop, dropReturns, List.append_nil]

-- ================================================================== lexemes

namespace Lexeme

/-- A lexeme in a text without its returns: those inside a quoted text are left out as well. -/
def dropReturns (l : Lexeme) : Lexeme :=
  if l.kind = .text then { l with value := SystemMap.dropReturns l.value } else l

/-- Only a quoted text has carriage returns in it. -/
theorem Sound.return_notMem {l : Lexeme} (h : l.Sound) (hkind : l.kind ≠ .text) :
    '\r' ∉ l.text := by
  have hpart : ∀ {w : List Char}, (∀ c ∈ w, isWordPart c = true) → '\r' ∉ w :=
    fun hw hreturn => absurd (hw _ hreturn) (by decide)
  cases h with
  | marker hw hs => exact List.not_mem_cons_of_ne_of_not_mem (by decide) (hpart hw)
  | word hw =>
      rw [text_ofWord]
      obtain ⟨c, cs, rfl, hc, hcs⟩ := hw
      refine hpart fun d hd => ?_
      rcases List.mem_cons.1 hd with rfl | hd
      · exact isWordPart_of_isWordStart hc
      · exact hcs d hd
  | number hw => exact hpart fun c hc => isWordPart_of_isDigit (hw.2 c hc)
  | text hw => exact absurd rfl hkind
  | sign hc =>
      rw [(text_ends_sign hc []).1]
      intro hreturn
      rw [← List.mem_singleton.1 hreturn] at hc
      cases hc
  | doubleColon | arrow | dash => decide

/-- A lexeme stays one, written without its returns, -/
theorem Sound.dropReturns {l : Lexeme} (h : l.Sound) :
    l.dropReturns.Sound ∧ l.dropReturns.text = SystemMap.dropReturns l.text := by
  by_cases hkind : l.kind = .text
  · obtain ⟨kind, w⟩ := l
    cases hkind
    have hquote := h.value_of_kind.2.2 rfl
    refine ⟨.text ((mem_dropReturns (by decide)).not.2 hquote), ?_⟩
    show '"' :: (SystemMap.dropReturns w ++ ['"']) = SystemMap.dropReturns ('"' :: (w ++ ['"']))
    rw [dropReturns_cons (absurd · (by decide)),
      dropReturns_append fun _ hquote => absurd hquote (by decide)]
    rfl
  · rw [Lexeme.dropReturns, if_neg hkind]
    exact ⟨h, (dropReturns_eq_self (.inr (h.return_notMem hkind))).symm⟩

/-- and none ends with a return, which would go with a line feed after it. -/
theorem Sound.getLast?_ne {l : Lexeme} (h : l.Sound) : l.text.getLast? ≠ some '\r' := by
  intro hlast
  by_cases hkind : l.kind = .text
  · rw [Lexeme.text, hkind] at hlast
    simp [List.getLast?_cons] at hlast
  · exact h.return_notMem hkind (List.mem_of_getLast? hlast)

/-- It ends where it did, since a line feed makes no lexeme longer. -/
theorem Ends.dropReturns {l : Lexeme} {rest : List Char} (h : l.Ends rest) :
    l.dropReturns.Ends (SystemMap.dropReturns rest) := by
  obtain ⟨kind, value⟩ := l
  cases kind with
  | marker _ | includeWord | udpWord | name | number | dash =>
      exact of_mem_head?_dropReturns (by decide) h
  | _ => trivial

end Lexeme

/-- A stray character stays one without the returns after it. -/
theorem Piece.Stray.dropReturns {c : Char} {rest : List Char} (h : Stray c rest) :
    Stray c (SystemMap.dropReturns rest) :=
  { h with
    colon := fun hc hhead => by
      have hfirst : ∀ d ∈ rest.head?, d ≠ ':' := fun d hd hcolon => h.colon hc (hcolon ▸ hd)
      exact of_mem_head?_dropReturns (by decide) hfirst _ hhead rfl }

-- ============================================================= single steps

section Steps

variable (p : Position)

/-- A blank moves the place by a column. Where it is a return that is left out, the line feed
after it leads to the same place without it. -/
theorem scanFrom_blank_dropReturns {c : Char} (hc : isSpace c = true) (rest : List Char) :
    scanFrom p (dropReturns (c :: rest)) = scanFrom (p.step c) (dropReturns rest) := by
  by_cases hend : c = '\r' ∧ rest.head? = some '\n'
  · obtain ⟨rfl, hfeed⟩ := hend
    obtain ⟨later, rfl⟩ := List.head?_eq_some_iff.1 hfeed
    have hkept : dropReturns ('\n' :: later) = '\n' :: dropReturns later :=
      dropReturns_cons (absurd · (by decide))
    rw [dropReturns, hkept, scanFrom_silent (Piece.cut_blank (by decide) _),
      scanFrom_silent (Piece.cut_blank (by decide) _)]
    rfl
  · rw [dropReturns_cons fun hc hfeed => hend ⟨hc, hfeed⟩,
      scanFrom_silent (Piece.cut_blank hc _)]
    rfl

/-- A comment may lose the return at its end. Then it is a column shorter, but the line feed
after it does not tell. -/
theorem scanFrom_comment_dropReturns {line rest : List Char} (hline : '\n' ∉ line)
    (hword : Section.ofWord? (line.takeWhile isWordPart) = none)
    (hrest : ∀ c ∈ rest.head?, c = '\n') :
    scanFrom p (dropReturns ('#' :: line ++ rest))
      = scanFrom (p.after ('#' :: line)) (dropReturns rest) := by
  cases rest with
  | nil =>
      have hkept : '\n' ∉ '#' :: line := List.not_mem_cons_of_ne_of_not_mem (by decide) hline
      rw [List.append_nil, dropReturns_eq_self (.inl hkept), dropReturns, scanFrom]
      exact scanFrom_trailing (.comment .nil hline hword) p
  | cons c later =>
      cases hrest c rfl
      obtain ⟨gap, hgap, hall, hplace⟩ := gap_comment_dropReturns hline hword
      rw [hall, scanFrom_gap hgap, hplace, dropReturns_cons (absurd · (by decide)),
        scanFrom_silent (Piece.cut_blank (by decide) _), ← after_append]

/-- A lexeme becomes a token at the same place before those of the rest. -/
theorem scanFrom_lexeme_dropReturns {l : Lexeme} (hl : l.Sound) {rest : List Char}
    (hends : l.Ends rest) : scanFrom p (dropReturns (l.text ++ rest)) =
      (scanFrom (p.after l.text) (dropReturns rest)).map fun ts =>
        { ts with
          list := ⟨l.dropReturns.kind, String.ofList l.dropReturns.value, p⟩ :: ts.list } := by
  obtain ⟨hsound, hwritten⟩ := hl.dropReturns
  rw [dropReturns_append fun hlast => absurd hlast hl.getLast?_ne, ← hwritten,
    scanFrom_lexeme_eq hsound hends.dropReturns, hwritten, after_dropReturns]

/-- What cannot be cut cannot be cut without its returns. -/
theorem scanFrom_uncut_dropReturns {c : Char} {cs : List Char} {fault : ScanFault}
    (hcut : Piece.cut c cs = .error fault) :
    scanFrom p (dropReturns (c :: cs)) = .error ⟨fault, p⟩ := by
  have hkept : dropReturns (c :: cs) = c :: dropReturns cs := by
    refine dropReturns_cons ?_
    rintro rfl
    cases hcut
  rw [hkept]
  refine scanFrom_uncut (Piece.cut_error_iff.2 ?_)
  rcases Piece.cut_error_iff.1 hcut with ⟨hfault, hstray⟩ | ⟨hfault, hc, hopen⟩
  · exact .inl ⟨hfault, hstray.dropReturns⟩
  · exact .inr ⟨hfault, hc, (mem_dropReturns (by decide)).not.2 hopen⟩

end Steps

-- ============================================================== whole texts

/-- A token in a text without its returns. -/
def Token.dropReturns (t : Token) : Token :=
  if t.kind = .text then
    { t with value := String.ofList (SystemMap.dropReturns t.value.toList) }
  else t

/-- Tokens in a text without its returns. -/
def Tokens.dropReturns (ts : Tokens) : Tokens := ⟨ts.list.map Token.dropReturns, ts.finish⟩

theorem Lexeme.token_dropReturns (l : Lexeme) (p : Position) :
    Token.dropReturns ⟨l.kind, String.ofList l.value, p⟩
      = ⟨l.dropReturns.kind, String.ofList l.dropReturns.value, p⟩ := by
  unfold Token.dropReturns Lexeme.dropReturns
  dsimp only
  split
  · rw [String.toList_ofList]
  · rfl

/-- The scan without the returns, from any place. The induction is that of the scan with them, on
what is left of the text. -/
theorem scanFrom_dropReturns (p : Position) (cs : List Char) :
    scanFrom p (dropReturns cs) = (scanFrom p cs).map Tokens.dropReturns := by
  induction hn : cs.length using Nat.strongRecOn generalizing p cs with
  | ind n ih =>
      cases cs with
      | nil =>
          rw [dropReturns, scanFrom]
          rfl
      | cons c cs =>
          cases hcut : Piece.cut c cs with
          | error fault =>
              rw [scanFrom_uncut_dropReturns p hcut, scanFrom_uncut hcut]
              rfl
          | ok piece =>
              have hshort : piece.rest.length < n := hn ▸ Piece.cut_shorter hcut
              obtain ⟨htext, hproper⟩ := Piece.cut_ok_iff.1 hcut
              cases hproper with
              | blank hc =>
                  rw [scanFrom_silent hcut, ← htext]
                  exact (scanFrom_blank_dropReturns p hc _).trans (ih _ hshort _ _ rfl)
              | comment hline hword hrest =>
                  rw [← htext, scanFrom_comment_dropReturns p hline hword hrest, htext,
                    scanFrom_silent hcut, ih _ hshort _ _ rfl]
              | @lexeme l rest hl hends =>
                  rw [← htext, scanFrom_lexeme_dropReturns p hl hends, ih _ hshort _ _ rfl,
                    scanFrom_lexeme_eq hl hends]
                  cases scanFrom (p.after l.text) rest with
                  | error e => rfl
                  | ok ts =>
                      rw [← l.token_dropReturns p]
                      rfl

/-- Line ends do not matter. With a line feed for every carriage return and line feed that stand
together a text is scanned to tokens of the same kinds at the same places, and to the same end;
their values are the same but for quoted texts, in which the line ends are replaced as well. And
it is refused as before if it is refused, for the same fault at the same place. -/
theorem scan_dropReturns (text : String) :
    scan (String.ofList (dropReturns text.toList)) = match scan text with
      | .ok ts => .ok ⟨ts.list.map fun t => if t.kind = .text then
          { t with value := String.ofList (dropReturns t.value.toList) } else t, ts.finish⟩
      | .error e => .error e := by
  unfold scan
  rw [String.toList_ofList, scanFrom_dropReturns]
  cases scanFrom .origin text.toList <;> rfl

/-- Of two returns before a line feed only the second goes. -/
example : scan "a\r\r\n\"b\r\n\"" =
      .ok ⟨[⟨.name, "a", ⟨1, 1⟩⟩, ⟨.text, "b\r\n", ⟨2, 1⟩⟩], ⟨3, 2⟩⟩ ∧
    scan "a\r\n\"b\n\"" =
      .ok ⟨[⟨.name, "a", ⟨1, 1⟩⟩, ⟨.text, "b\n", ⟨2, 1⟩⟩], ⟨3, 2⟩⟩ := by
  decide +kernel

end SystemMap
