/-
Tokens written out with separators of any kind between them. A separator may be left out
wherever the two lexemes around it do not run into one another, that is, everywhere but
between a word and what begins with a word character, and between two numbers (`RunsInto`).
The text that comes of it is scanned into the same lexemes again (`scan_written`).

What makes it true is that a lexeme ends where the next thing begins: a separator begins with
a blank or a `#`, which goes on with nothing, and the first character of a lexeme tells enough
of it (`Sound.head_cases`).
-/
import Mathlib.Data.List.Chain
import SystemMap.Proofs.Scan.Derivation

namespace SystemMap

-- ===================================================== where a lexeme begins

/-- The first character of a lexeme. Only words begin with a letter or an underscore, only
numbers with a digit, and nothing with the second character of an arrow. -/
theorem Lexeme.Sound.head_cases {l : Lexeme} (h : l.Sound) :
    ∃ c cs, l.text = c :: cs ∧ c ≠ '>' ∧ (isDigit c = true → l.kind = .number) := by
  cases h with
  | marker hw hs => exact ⟨'#', _, rfl, by decide, nofun⟩
  | word hw =>
      obtain ⟨c, cs, rfl, hc, -⟩ := hw
      refine ⟨c, cs, Lexeme.text_ofWord _, ?_, fun hd => ?_⟩
      · rintro rfl
        exact absurd hc (by decide)
      · cases (isWordStart_of_isDigit hd).symm.trans hc
  | number hw =>
      obtain ⟨c, cs, rfl, hc⟩ := hw.exists_cons
      refine ⟨c, cs, rfl, ?_, fun _ => rfl⟩
      rintro rfl
      exact absurd hc (by decide)
  | text hw => exact ⟨'"', _, rfl, by decide, nofun⟩
  | @sign c kind hc =>
      refine ⟨c, [], (Lexeme.text_ends_sign hc []).1, ?_, ?_⟩
      · rintro rfl
        cases hc
      · unfold TokenKind.ofSign? at hc
        split at hc <;> cases hc <;> nofun
  | doubleColon => exact ⟨':', [':'], rfl, by decide, nofun⟩
  | arrow => exact ⟨'-', ['>'], rfl, by decide, nofun⟩
  | dash => exact ⟨'-', [], rfl, by decide, nofun⟩

-- ================================================== where a lexeme may end

namespace Lexeme

/-- Names, keywords and markers end in a run of word characters. -/
def endsInWord (l : Lexeme) : Bool :=
  match l.kind with
  | .marker _ | .includeWord | .udpWord | .name => true
  | _ => false

/-- The first character is one that goes on with a word. -/
def startsInWord (l : Lexeme) : Bool := l.text.head?.any isWordPart

/-- Without a separator between them, the second lexeme would go on with the first. -/
def RunsInto (a b : Lexeme) : Prop :=
  (a.endsInWord ∧ b.startsInWord) ∨ (a.kind = .number ∧ b.kind = .number)

instance (a b : Lexeme) : Decidable (a.RunsInto b) := inferInstanceAs (Decidable (_ ∨ _))

/-- A lexeme ends before a character that goes on with no word, number or arrow, as far as
the lexeme is one. -/
theorem ends_of_head {a : Lexeme} {rest : List Char}
    (hword : a.endsInWord → ∀ c ∈ rest.head?, isWordPart c = false)
    (hnumber : a.kind = .number → ∀ c ∈ rest.head?, isDigit c = false)
    (hdash : ∀ c ∈ rest.head?, c ≠ '>') : a.Ends rest := by
  obtain ⟨kind, value⟩ := a
  cases kind with
  | marker _ | includeWord | udpWord | name => exact hword rfl
  | number => exact hnumber rfl
  | dash => exact hdash
  | _ => trivial

/-- A lexeme ends before another one that it does not run into. -/
theorem ends_of_not_runsInto {a b : Lexeme} (hb : b.Sound) (h : ¬ a.RunsInto b)
    (rest : List Char) : a.Ends (b.text ++ rest) := by
  obtain ⟨c, cs, htext, harrow, hdigit⟩ := hb.head_cases
  have hhead : ∀ d ∈ (b.text ++ rest).head?, d = c := by
    rw [htext]
    exact fun d hd => (Option.some.inj hd).symm
  refine ends_of_head (fun ha d hd => ?_) (fun ha d hd => ?_) (fun d hd => ?_)
  · obtain rfl := hhead d hd
    refine Bool.eq_false_iff.2 fun hpart => h (.inl ⟨ha, ?_⟩)
    rw [startsInWord, htext]
    exact hpart
  · obtain rfl := hhead d hd
    exact Bool.eq_false_iff.2 fun hd => h (.inr ⟨ha, hdigit hd⟩)
  · obtain rfl := hhead d hd
    exact harrow

/-- A lexeme ends before a blank, a comment and the end of the text. -/
theorem ends_of_barrier {a : Lexeme} {rest : List Char}
    (h : ∀ c ∈ rest.head?, isSpace c = true ∨ c = '#') : a.Ends rest := by
  have hword : ∀ c ∈ rest.head?, isWordPart c = false := by
    intro c hc
    refine Bool.eq_false_iff.2 fun hpart => ?_
    rcases h c hc with hspace | hhash
    · cases (isSpace_of_isWordPart hpart).symm.trans hspace
    · exact ne_hash_of_isWordPart hpart hhash
  refine ends_of_head (fun _ => hword) (fun _ c hc => ?_) ?_
  · refine Bool.eq_false_iff.2 fun hdigit => ?_
    cases (hword c hc).symm.trans (isWordPart_of_isDigit hdigit)
  · rintro c hc rfl
    exact absurd (h _ hc) (by decide)

end Lexeme

-- ============================================================== separators

/-- A gap begins with a blank or a comment. -/
theorem Gap.head_barrier {cs : List Char} (h : Gap cs) :
    ∀ c ∈ cs.head?, isSpace c = true ∨ c = '#' := by
  cases h with
  | nil => exact nofun
  | blank hc _ =>
      intro c h
      cases h
      exact .inl hc
  | comment =>
      intro c h
      cases h
      exact .inr rfl

/-- So does what stands after the last token. -/
theorem Trailing.head_barrier {cs : List Char} (h : Trailing cs) :
    ∀ c ∈ cs.head?, isSpace c = true ∨ c = '#' := by
  cases h with
  | gap h => exact h.head_barrier
  | @comment gap line h =>
      cases hgap : gap with
      | nil =>
          intro c hc
          cases hc
          exact .inr rfl
      | cons d ds =>
          intro c hc
          exact h.head_barrier c (hgap ▸ hc)

-- ============================================================ written tokens

/-- A lexeme and the separator that is written before it. -/
structure Written where
  gap : List Char
  lexeme : Lexeme

/-- Lexemes written one after another, with something after the last one. -/
def Written.text (parts : List Written) (last : List Char) : List Char :=
  (parts.flatMap fun w => w.gap ++ w.lexeme.text) ++ last

theorem written_text_cons (w : Written) (later : List Written) (last : List Char) :
    Written.text (w :: later) last = w.gap ++ (w.lexeme.text ++ Written.text later last) := by
  simp [Written.text]

/-- Lexemes that a text can have, written with separators that are gaps, one of them between
any two lexemes that would run into one another. -/
structure Written.Legible (parts : List Written) (last : List Char) : Prop where
  sound : ∀ w ∈ parts, w.lexeme.Sound
  gaps : ∀ w ∈ parts, Gap w.gap
  last : Trailing last
  apart : parts.IsChain fun a b => a.lexeme.RunsInto b.lexeme → b.gap ≠ []

/-- The first lexeme of some that are legible ends before the others. -/
theorem Written.Legible.head_ends {w : Written} {later : List Written} {last : List Char}
    (h : Legible (w :: later) last) : w.lexeme.Ends (Written.text later last) := by
  cases later with
  | nil => exact Lexeme.ends_of_barrier h.last.head_barrier
  | cons next more =>
      have hnext : next ∈ w :: next :: more := by simp
      rw [written_text_cons]
      -- a gap stops every lexeme; without one the two do not run into one another
      cases hgap : next.gap with
      | nil =>
          refine Lexeme.ends_of_not_runsInto (h.sound _ hnext) (fun hruns => ?_) _
          exact (List.isChain_cons_cons.1 h.apart).1 hruns hgap
      | cons c cs =>
          refine Lexeme.ends_of_barrier fun d hd => (h.gaps _ hnext).head_barrier d ?_
          rw [hgap]
          exact hd

/-- What is left of legible parts is legible. -/
theorem Written.Legible.tail {w : Written} {later : List Written} {last : List Char}
    (h : Legible (w :: later) last) : Legible later last where
  sound v hv := h.sound v (List.mem_cons_of_mem _ hv)
  gaps v hv := h.gaps v (List.mem_cons_of_mem _ hv)
  last := h.last
  apart := h.apart.tail

/-- Written lexemes as a layout. -/
def Written.layout (parts : List Written) : Layout :=
  parts.flatMap fun w => [.gap w.gap, .lexeme w.lexeme]

/-- The parts make a layout, with the last text behind it. -/
theorem Written.text_eq (parts : List Written) (last : List Char) :
    Written.text parts last = (layout parts).text ++ last := by
  induction parts with
  | nil => rfl
  | cons w later ih =>
      rw [written_text_cons, ih]
      simp [layout, Layout.text, Ink.text]

theorem Written.lexemes_layout (parts : List Written) :
    (layout parts).lexemes = parts.map (·.lexeme) := by
  induction parts with
  | nil => rfl
  | cons w later ih => exact congrArg (w.lexeme :: ·) ih

/-- Legible lexemes make up a spaced layout, by induction along them. -/
theorem Written.Legible.spaced {parts : List Written} {last : List Char}
    (h : Legible parts last) : (layout parts).Spaced last := by
  induction parts with
  | nil => trivial
  | cons w later ih =>
      have hends := h.head_ends
      rw [Written.text_eq] at hends
      exact ⟨h.gaps w List.mem_cons_self, h.sound w List.mem_cons_self, hends, ih h.tail⟩

/-- Tokens written with legible separators are read back: the text is scanned into exactly
those kinds and values, in order. -/
theorem scan_written {parts : List Written} {last : List Char}
    (h : Written.Legible parts last) :
    ∃ ts, scan (String.ofList (Written.text parts last)) = .ok ts ∧
      ts.list.map Token.lexeme = parts.map (·.lexeme) := by
  rw [Written.text_eq, ← Written.lexemes_layout]
  exact scan_spaced h.spaced h.last

/-- A number before a name, words around a comment, a marker right after a word, and dashes
before an arrow, with a comment that the text breaks off. -/
def crowded : List Written :=
  [⟨[], ⟨.number, ['1', '2']⟩⟩, ⟨[], ⟨.name, ['a', '2']⟩⟩,
    ⟨['#', 'x', '\n'], ⟨.udpWord, ['U', 'd', 'p']⟩⟩, ⟨[], ⟨.marker .nats, ['N', 'A', 'T', 'S']⟩⟩,
    ⟨[], ⟨.text, ['#']⟩⟩, ⟨[], ⟨.dash, ['-']⟩⟩, ⟨[], ⟨.arrow, ['-', '>']⟩⟩,
    ⟨[], ⟨.doubleColon, [':', ':']⟩⟩]

/-- Lexemes with nothing between them, where that is enough. -/
theorem crowded_scanned :
    Written.Legible crowded ['#', 'y'] ∧
      ∃ ts, scan (String.ofList (Written.text crowded ['#', 'y'])) = .ok ts ∧
        ts.list.map Token.lexeme = crowded.map (·.lexeme) := by
  have hlegible : Written.Legible crowded ['#', 'y'] := by
    have hbroken : Trailing ([] ++ '#' :: ['y']) := .comment .nil (by decide) (by decide)
    refine ⟨?_, ?_, hbroken, by decide⟩
    · have hnumber : Lexeme.Sound ⟨.number, ['1', '2']⟩ :=
        .number ⟨by decide, List.all_eq_true.1 (by decide)⟩
      have hname : Lexeme.Sound ⟨.name, ['a', '2']⟩ :=
        .word ⟨'a', ['2'], rfl, by decide, List.all_eq_true.1 (by decide)⟩
      have hudp : Lexeme.Sound ⟨.udpWord, ['U', 'd', 'p']⟩ :=
        .word ⟨'U', ['d', 'p'], rfl, by decide, List.all_eq_true.1 (by decide)⟩
      have hnats : Lexeme.Sound ⟨.marker .nats, ['N', 'A', 'T', 'S']⟩ :=
        .marker (List.all_eq_true.1 (by decide)) (by decide)
      simp only [crowded, List.forall_mem_cons]
      exact ⟨hnumber, hname, hudp, hnats, .text (by decide), .dash, .arrow, .doubleColon, nofun⟩
    · have hcomment : Gap ('#' :: (['x'] ++ ['\n'])) := .comment (by decide) (by decide) .nil
      simp only [crowded, List.forall_mem_cons]
      exact ⟨.nil, .nil, hcomment, .nil, .nil, .nil, .nil, .nil, nofun⟩
  exact ⟨hlegible, scan_written hlegible⟩

end SystemMap
