/-
Tokens as they stand in a text. A `Lexeme` is a token without its place. The sound ones are
those that cutting a text yields, and a sound lexeme is cut off the front of a text again
unless what follows would have made it longer (`Ends`).

Besides lexemes only blanks and comments are cut off. `Piece.Proper` lists the three kinds of
pieces, and a piece is cut off a text exactly if it is proper and stands there with what it
leaves (`cut_ok_iff`); where none can be, the text starts with a stray character or with a quote
that is left open (`cut_error_iff`). Nothing after this module looks into `Piece.cut` again; whole
texts are a matter of layouts and derivations.
-/
import SystemMap.Proofs.Text.Digits
import SystemMap.Token.Scan

namespace SystemMap

/-- A token without its place. -/
structure Lexeme where
  kind : TokenKind
  value : List Char
deriving DecidableEq

/-- What is left of a token without its place. -/
def Token.lexeme (t : Token) : Lexeme := ⟨t.kind, t.value.toList⟩

/-- Left without the place that it was given, a lexeme is what it was. -/
theorem lexeme_placed (l : Lexeme) (p : Position) :
    Token.lexeme ⟨l.kind, String.ofList l.value, p⟩ = l := by
  unfold Token.lexeme
  rw [String.toList_ofList]

/-- A word. -/
def IsWord (w : List Char) : Prop :=
  ∃ c cs, w = c :: cs ∧ isWordStart c = true ∧ ∀ d ∈ cs, isWordPart d = true

namespace Lexeme

/-- How a lexeme is written. -/
def text (l : Lexeme) : List Char :=
  match l.kind with
  | .marker _ => '#' :: l.value
  | .text => '"' :: (l.value ++ ['"'])
  | _ => l.value

/-- The lexemes of texts. -/
inductive Sound : Lexeme → Prop
  | marker {s w} (hw : ∀ c ∈ w, isWordPart c = true) (hs : Section.ofWord? w = some s) :
      Sound ⟨.marker s, w⟩
  | word {w} (hw : IsWord w) : Sound ⟨.ofWord w, w⟩
  | number {w} (hw : IsDigits w) : Sound ⟨.number, w⟩
  | text {w} (hw : '"' ∉ w) : Sound ⟨.text, w⟩
  | sign {c kind} (hc : TokenKind.ofSign? c = some kind) : Sound ⟨kind, [c]⟩
  | doubleColon : Sound ⟨.doubleColon, [':', ':']⟩
  | arrow : Sound ⟨.arrow, ['-', '>']⟩
  | dash : Sound ⟨.dash, ['-']⟩

/-- What comes next does not make a lexeme longer. -/
def Ends (l : Lexeme) (rest : List Char) : Prop :=
  match l.kind with
  | .marker _ | .includeWord | .udpWord | .name => ∀ c ∈ rest.head?, isWordPart c = false
  | .number => ∀ c ∈ rest.head?, isDigit c = false
  | .dash => ∀ c ∈ rest.head?, c ≠ '>'
  | _ => True

end Lexeme

-- ===================================================== kinds of characters

/-- The blanks are four. -/
theorem isSpace_iff {c : Char} :
    isSpace c = true ↔ c = ' ' ∨ c = '\t' ∨ c = '\r' ∨ c = '\n' := by
  simp [isSpace, or_assoc]

/-- A blank ends a word. -/
theorem isSpace_of_isWordPart {c : Char} (h : isWordPart c = true) : isSpace c = false := by
  refine Bool.eq_false_iff.2 fun hs => ?_
  obtain rfl | rfl | rfl | rfl := isSpace_iff.1 hs <;> exact absurd h (by decide)

/-- So does the sign in front of markers and comments. -/
theorem ne_hash_of_isWordPart {c : Char} (h : isWordPart c = true) : c ≠ '#' := by
  intro hc
  subst hc
  exact absurd h (by decide)

/-- A word may go on with whatever may start one. -/
theorem isWordPart_of_isWordStart {c : Char} (h : isWordStart c = true) :
    isWordPart c = true := by
  unfold isWordPart
  rw [h]
  rfl

/-- It may go on with digits too. -/
theorem isWordPart_of_isDigit {c : Char} (h : isDigit c = true) : isWordPart c = true := by
  unfold isWordPart
  rw [h]
  exact Bool.or_true _

/-- But no word starts with a digit. -/
theorem isWordStart_of_isDigit {c : Char} (h : isDigit c = true) : isWordStart c = false := by
  obtain ⟨d, hd, rfl⟩ := exists_digitChar h
  revert d
  decide

/-- A word is a name or one of the two keywords. -/
theorem ofWord_cases (w : List Char) :
    TokenKind.ofWord w = .includeWord ∨ TokenKind.ofWord w = .udpWord ∨
      TokenKind.ofWord w = .name := by
  unfold TokenKind.ofWord
  split
  · exact Or.inl rfl
  · split
    · exact Or.inr (Or.inl rfl)
    · exact Or.inr (Or.inr rfl)

/-- Names are the words that are no keywords. -/
theorem ofWord_eq_name_iff {w : List Char} : TokenKind.ofWord w = .name
    ↔ lowerWord w ≠ "include".toList ∧ lowerWord w ≠ "udp".toList := by
  unfold TokenKind.ofWord
  by_cases hinclude : lowerWord w = "include".toList
  · rw [if_pos hinclude]
    exact ⟨nofun, fun h => absurd hinclude h.1⟩
  · rw [if_neg hinclude]
    by_cases hudp : lowerWord w = "udp".toList
    · rw [if_pos hudp]
      exact ⟨nofun, fun h => absurd hudp h.2⟩
    · rw [if_neg hudp]
      exact ⟨fun _ => ⟨hinclude, hudp⟩, fun _ => rfl⟩

-- ================================================================== runs

section Runs

variable {p : Char → Bool} {w rest : List Char}

/-- A run is taken up to where it ends. -/
theorem takeWhile_run (hw : ∀ c ∈ w, p c = true) (hrest : ∀ c ∈ rest.head?, p c = false) :
    (w ++ rest).takeWhile p = w := by
  rw [List.takeWhile_append_of_pos hw]
  cases rest with
  | nil => exact List.append_nil w
  | cons c cs => rw [List.takeWhile_cons, hrest c rfl]; exact List.append_nil w

/-- What is left starts where the run ends. -/
theorem dropWhile_run (hw : ∀ c ∈ w, p c = true) (hrest : ∀ c ∈ rest.head?, p c = false) :
    (w ++ rest).dropWhile p = rest := by
  rw [List.dropWhile_append_of_pos hw]
  cases rest with
  | nil => rfl
  | cons c cs => rw [List.dropWhile_cons, hrest c rfl]; rfl

end Runs

/-- What a run leaves does not go on with it. -/
theorem head?_dropWhile_eq_false (p : Char → Bool) (cs : List Char) :
    ∀ c ∈ (cs.dropWhile p).head?, p c = false := by
  intro c hc
  have h := List.head?_dropWhile_not p cs
  rw [Option.mem_def.1 hc] at h
  exact h

-- ================================================================== kinds

/-- No sign is a name, a number or a quoted text. -/
theorem ofSign?_ne {c : Char} {kind : TokenKind} (h : TokenKind.ofSign? c = some kind) :
    kind ≠ .name ∧ kind ≠ .number ∧ kind ≠ .text := by
  unfold TokenKind.ofSign? at h
  split at h <;> cases h <;> decide

/-- What the value of a sound lexeme is, for the kinds whose values differ. -/
theorem Lexeme.Sound.value_of_kind {l : Lexeme} (h : l.Sound) :
    (l.kind = .name → IsWord l.value ∧ TokenKind.ofWord l.value = .name) ∧
      (l.kind = .number → IsDigits l.value) ∧ (l.kind = .text → '"' ∉ l.value) := by
  cases h with
  | @word w hw =>
      refine ⟨fun hk => ⟨hw, hk⟩, fun hk => ?_, fun hk => ?_⟩
      · obtain h | h | h := ofWord_cases w <;> cases h.symm.trans hk
      · obtain h | h | h := ofWord_cases w <;> cases h.symm.trans hk
  | number hw => exact ⟨nofun, fun _ => hw, nofun⟩
  | text hw => exact ⟨nofun, nofun, fun _ => hw⟩
  | sign hc =>
      obtain ⟨hname, hnumber, htext⟩ := ofSign?_ne hc
      exact ⟨fun hk => absurd hk hname, fun hk => absurd hk hnumber, fun hk => absurd hk htext⟩
  | _ => exact ⟨nofun, nofun, nofun⟩

namespace Lexeme

theorem text_ofWord (w : List Char) : Lexeme.text ⟨.ofWord w, w⟩ = w := by
  unfold Lexeme.text
  obtain h | h | h := ofWord_cases w <;> rw [h]

/-- A word is whole where no part of words follows. -/
theorem ends_ofWord {w rest : List Char} (h : ∀ c ∈ rest.head?, isWordPart c = false) :
    Lexeme.Ends ⟨.ofWord w, w⟩ rest := by
  unfold Lexeme.Ends
  obtain hk | hk | hk := ofWord_cases w <;> rw [hk] <;> exact h

/-- A sign is written as it is, and nothing makes it longer. -/
theorem text_ends_sign {c : Char} {kind : TokenKind} (h : TokenKind.ofSign? c = some kind)
    (rest : List Char) : Lexeme.text ⟨kind, [c]⟩ = [c] ∧ Lexeme.Ends ⟨kind, [c]⟩ rest := by
  unfold TokenKind.ofSign? at h
  split at h <;> cases h <;> exact ⟨rfl, trivial⟩

end Lexeme

-- ================================================================ cutting

namespace Piece

/-- A sound lexeme that nothing makes longer is what is cut off. -/
theorem cut_lexeme {l : Lexeme} (hl : l.Sound) {rest : List Char} (hrest : l.Ends rest) :
    ∃ c cs, l.text ++ rest = c :: cs ∧
      cut c cs = .ok ⟨some (l.kind, l.value), l.text, rest⟩ := by
  cases hl with
  | @marker s w hw hs =>
      refine ⟨'#', w ++ rest, rfl, ?_⟩
      have htake := takeWhile_run hw hrest
      have hdrop := dropWhile_run hw hrest
      unfold cut ofHash
      rw [htake, hdrop, if_neg (by decide), if_pos rfl]
      dsimp only
      rw [hs]
      rfl
  | @word w hw =>
      obtain ⟨c, cs, rfl, hc, hcs⟩ := hw
      have hends : ∀ c ∈ rest.head?, isWordPart c = false := by
        unfold Lexeme.Ends at hrest
        obtain h | h | h := ofWord_cases (c :: cs) <;> rw [h] at hrest <;> exact hrest
      have hpart := isWordPart_of_isWordStart hc
      rw [Lexeme.text_ofWord]
      refine ⟨c, cs ++ rest, rfl, ?_⟩
      unfold cut
      rw [takeWhile_run hcs hends, dropWhile_run hcs hends, isSpace_of_isWordPart hpart,
        if_neg Bool.false_ne_true, if_neg (ne_hash_of_isWordPart hpart), if_pos hc]
  | @number w hw =>
      obtain ⟨hne, hall⟩ := hw
      cases w with
      | nil => exact absurd rfl hne
      | cons c cs =>
          have hc : isDigit c = true := hall c List.mem_cons_self
          have hcs : ∀ d ∈ cs, isDigit d = true := fun d hd => hall d (List.mem_cons_of_mem _ hd)
          have hpart := isWordPart_of_isDigit hc
          refine ⟨c, cs ++ rest, rfl, ?_⟩
          unfold cut
          rw [takeWhile_run hcs hrest, dropWhile_run hcs hrest, isSpace_of_isWordPart hpart,
            if_neg Bool.false_ne_true, if_neg (ne_hash_of_isWordPart hpart),
            isWordStart_of_isDigit hc, if_neg Bool.false_ne_true, if_pos hc]
          rfl
  | @text w hw =>
      have hin : ∀ c ∈ w, (decide (c ≠ '"')) = true :=
        fun c hc => decide_eq_true fun h => hw (h ▸ hc)
      have hout : ∀ c ∈ ('"' :: rest).head?, (decide (c ≠ '"')) = false := by
        intro c hc
        cases hc
        rfl
      refine ⟨'"', w ++ '"' :: rest, by simp [Lexeme.text], ?_⟩
      unfold cut ofQuote
      rw [if_neg (by decide), if_neg (by decide), if_neg (by decide), if_neg (by decide),
        if_pos rfl, takeWhile_run hin hout, dropWhile_run hin hout]
      rfl
  | @sign c kind hc =>
      refine ⟨c, rest, ?_, ?_⟩
      · unfold TokenKind.ofSign? at hc
        split at hc <;> cases hc <;> rfl
      · unfold TokenKind.ofSign? at hc
        split at hc <;> cases hc <;> rfl
  | doubleColon => exact ⟨':', ':' :: rest, rfl, rfl⟩
  | arrow => exact ⟨'-', '>' :: rest, rfl, rfl⟩
  | dash =>
      refine ⟨'-', rest, rfl, ?_⟩
      cases rest with
      | nil => rfl
      | cons d ds =>
          unfold cut
          rw [if_neg (by decide), if_neg (by decide), if_neg (by decide), if_neg (by decide),
            if_neg (by decide)]
          rw [show TokenKind.ofSign? '-' = none from rfl]
          dsimp only
          split
          · next hcolon _ => exact absurd hcolon (by decide)
          · next heq => exact absurd (List.cons.inj heq).1 (hrest d rfl)
          · rfl
          · next h _ _ => exact absurd rfl h

/-- A comment is cut off up to the end of its line. -/
theorem cut_comment {line rest : List Char} (hline : '\n' ∉ line)
    (hword : Section.ofWord? (line.takeWhile isWordPart) = none)
    (hrest : ∀ c ∈ rest.head?, c = '\n') :
    cut '#' (line ++ rest) = .ok ⟨none, '#' :: line, rest⟩ := by
  have hin : ∀ c ∈ line, (decide (c ≠ '\n')) = true :=
    fun c hc => decide_eq_true fun h => hline (h ▸ hc)
  have hout : ∀ c ∈ rest.head?, (decide (c ≠ '\n')) = false :=
    fun c hc => decide_eq_false fun h => h (hrest c hc)
  -- the word after the sign ends with the line
  have htake : (line ++ rest).takeWhile isWordPart = line.takeWhile isWordPart := by
    have hstop : rest.takeWhile isWordPart = [] := by
      cases rest with
      | nil => rfl
      | cons c cs =>
          cases hrest c rfl
          exact List.takeWhile_cons_of_neg (by decide)
    rw [List.takeWhile_append]
    split
    · next hall =>
      rw [hstop, List.append_nil]
      exact ((List.takeWhile_prefix _).eq_of_length hall).symm
    · rfl
  unfold cut ofHash
  rw [if_neg (by decide), if_pos rfl, htake, takeWhile_run hin hout, dropWhile_run hin hout]
  dsimp only
  rw [hword]

/-- A blank is cut off by itself. -/
theorem cut_blank {c : Char} (hc : isSpace c = true) (rest : List Char) :
    cut c rest = .ok ⟨none, [c], rest⟩ := if_pos hc

/-- The pieces that texts are made of. -/
inductive Proper : Piece → Prop
  | blank {c rest} (hc : isSpace c = true) : Proper ⟨none, [c], rest⟩
  | comment {line rest} (hline : '\n' ∉ line)
      (hword : Section.ofWord? (line.takeWhile isWordPart) = none)
      (hrest : ∀ c ∈ rest.head?, c = '\n') : Proper ⟨none, '#' :: line, rest⟩
  | lexeme {l : Lexeme} {rest} (hl : l.Sound) (hends : l.Ends rest) :
      Proper ⟨some (l.kind, l.value), l.text, rest⟩

/-- What starts with the sign of sections is the name of one or a comment. -/
theorem ofHash_proper (cs : List Char) : (ofHash cs).Proper := by
  unfold ofHash
  dsimp only
  split
  · next s hs =>
    exact .lexeme (.marker (fun d hd => List.mem_takeWhile_imp hd) hs)
      (head?_dropWhile_eq_false _ _)
  · next hword =>
    refine .comment (fun hin => absurd (List.mem_takeWhile_imp hin) (by decide)) ?_
      fun d hd => by simpa using head?_dropWhile_eq_false _ _ d hd
    -- a word is over before its line is
    rw [List.takeWhile_takeWhile]
    rw [show (fun a => decide (isWordPart a = true ∧ decide (a ≠ '\n') = true)) = isWordPart
      from funext fun a => ?_]
    · exact hword
    · by_cases ha : a = '\n'
      · subst ha
        rfl
      · simp [ha]

/-- What is cut off is proper: the cases are those of `cut`. -/
theorem cut_proper {c : Char} {cs : List Char} {piece : Piece} (h : cut c cs = .ok piece) :
    piece.Proper := by
  unfold cut at h
  split at h
  · next hc =>
    cases h
    exact .blank hc
  split at h
  · cases h
    exact ofHash_proper cs
  split at h
  · next hc =>
    cases h
    have hword : IsWord (c :: cs.takeWhile isWordPart) :=
      ⟨c, _, rfl, hc, fun d hd => List.mem_takeWhile_imp hd⟩
    have hproper := Proper.lexeme (.word hword)
      (Lexeme.ends_ofWord (head?_dropWhile_eq_false isWordPart cs))
    rwa [Lexeme.text_ofWord] at hproper
  split at h
  · next hc =>
    cases h
    have hdigits : IsDigits (c :: cs.takeWhile isDigit) := by
      refine ⟨List.cons_ne_nil _ _, fun d hd => ?_⟩
      rcases List.mem_cons.1 hd with rfl | hd
      · exact hc
      · exact List.mem_takeWhile_imp hd
    exact .lexeme (.number hdigits) (head?_dropWhile_eq_false isDigit cs)
  split at h
  · unfold ofQuote at h
    dsimp only at h
    split at h
    · cases h
      exact .lexeme (.text fun hq => absurd (List.mem_takeWhile_imp hq) (by decide)) trivial
    · cases h
  split at h
  · next k hk =>
    cases h
    obtain ⟨htext, hends⟩ := Lexeme.text_ends_sign hk cs
    have hproper := Proper.lexeme (.sign hk) hends
    rwa [htext] at hproper
  -- neither a run nor a sign by itself: two colons, an arrow or a dash
  · split at h <;> cases h
    · exact .lexeme .doubleColon trivial
    · exact .lexeme .arrow trivial
    · next hdash =>
      refine .lexeme .dash fun d hd hsign => ?_
      subst hsign
      obtain ⟨rest, rfl⟩ := List.head?_eq_some_iff.1 hd
      exact hdash rest rfl

/-- A piece is cut off exactly if it is proper and the text is made up of it and what it
leaves. -/
theorem cut_ok_iff {c : Char} {cs : List Char} {piece : Piece} :
    cut c cs = .ok piece ↔ piece.taken ++ piece.rest = c :: cs ∧ piece.Proper := by
  constructor
  · exact fun h => ⟨(cut_append h).1, cut_proper h⟩
  · rintro ⟨htext, hproper⟩
    cases hproper with
    | blank hc =>
        cases htext
        exact cut_blank hc _
    | comment hline hword hrest =>
        cases htext
        exact cut_comment hline hword hrest
    | lexeme hl hends =>
        obtain ⟨d, ds, hsplit, hcut⟩ := cut_lexeme hl hends
        obtain ⟨rfl, rfl⟩ := List.cons.inj (hsplit.symm.trans htext)
        exact hcut

/-- Nothing starts with a character before `rest`: it is no blank, and neither a comment nor a
lexeme begins with it. A colon begins one only before another colon. -/
structure Stray (c : Char) (rest : List Char) : Prop where
  blank : isSpace c = false
  hash : c ≠ '#'
  word : isWordStart c = false
  digit : isDigit c = false
  quote : c ≠ '"'
  sign : TokenKind.ofSign? c = none
  dash : c ≠ '-'
  colon : c = ':' → rest.head? ≠ some ':'

/-- A text cannot be cut exactly if it starts with a stray character, or with a quote that no
other one follows. -/
theorem cut_error_iff {c : Char} {cs : List Char} {fault : ScanFault} :
    cut c cs = .error fault ↔ fault = .unexpected c ∧ Stray c cs ∨
      fault = .unterminatedText ∧ c = '"' ∧ '"' ∉ cs := by
  constructor
  · intro h
    unfold cut at h
    split at h
    · cases h
    next hblank =>
    split at h
    · cases h
    next hhash =>
    split at h
    · cases h
    next hword =>
    split at h
    · cases h
    next hdigit =>
    split at h
    · next hquote =>
      unfold ofQuote at h
      dsimp only at h
      split at h
      · cases h
      · next hnone =>
        cases h
        have hclosed := List.dropWhile_eq_nil_iff.1 hnone
        exact .inr ⟨rfl, hquote, fun hin => by simpa using hclosed _ hin⟩
    next hquote =>
    split at h
    · cases h
    next hsign =>
    split at h <;> cases h
    next hdash hcolons _ =>
    refine .inl ⟨rfl, ⟨Bool.eq_false_iff.2 hblank, hhash, Bool.eq_false_iff.2 hword,
      Bool.eq_false_iff.2 hdigit, hquote, hsign, fun hc => hdash hc, fun hc hhead => ?_⟩⟩
    obtain ⟨rest, rfl⟩ := List.head?_eq_some_iff.1 hhead
    exact hcolons rest hc rfl
  · rintro (⟨rfl, h⟩ | ⟨rfl, rfl, hopen⟩)
    · unfold cut
      rw [if_neg (Bool.eq_false_iff.1 h.blank), if_neg h.hash, if_neg (Bool.eq_false_iff.1 h.word),
        if_neg (Bool.eq_false_iff.1 h.digit), if_neg h.quote, h.sign]
      dsimp only
      split
      · next rest => exact absurd rfl (h.colon rfl)
      · next rest => exact absurd rfl h.dash
      · next rest => exact absurd rfl h.dash
      · rfl
    · have hnone : cs.dropWhile (· ≠ '"') = [] :=
        List.dropWhile_eq_nil_iff.2 fun d hd => decide_eq_true fun hq => hopen (hq ▸ hd)
      unfold cut ofQuote
      rw [if_neg (by decide), if_neg (by decide), if_neg (by decide), if_neg (by decide),
        if_pos rfl, hnone]

end Piece

end SystemMap
