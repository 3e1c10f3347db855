/-
The steps of reading read the grammar, exactly. `Step.Reads s shape` says that a step yields
a value and leaves some tokens just if the tokens it takes spell the value before those it
leaves; it speaks of success in both directions, so it also says when the step succeeds.

There is one lemma for each way of putting steps together, and one for each construct, which
takes its step apart by those lemmas and compares what comes out with the cases of its shape.
-/
import SystemMap.Proofs.Grammar.Shape

namespace SystemMap

open Step (expect accept here numeral manyWhile manyAfter separated Shrinks Keeps)

namespace Step

variable {α β : Type}

/-- The step succeeds on just the tokens that the shape describes. -/
def Reads (s : Step α) (shape : Shape α) : Prop :=
  ∀ ts a rest, s ts = .ok (a, rest) ↔
    rest.finish = ts.finish ∧ ∃ run, ts.list = run ++ rest.list ∧ shape a run rest.list

/-- What a step reads may be put in other words. -/
theorem Reads.congr {s : Step α} {P Q : Shape α} (h : s.Reads P)
    (hiff : ∀ a run rest, P a run rest ↔ Q a run rest) : s.Reads Q := by
  intro ts a rest
  rw [h]
  exact and_congr_right fun _ => exists_congr fun run => and_congr_right fun _ => hiff ..

-- ============================================================== sequencing

/-- Three steps in a row, grouped either way. -/
theorem bind_assoc {γ : Type} (s : Step α) (f : α → Step β) (g : β → Step γ) :
    (s.bind f).bind g = s.bind fun a => (f a).bind g := by
  funext ts
  unfold Step.bind
  cases s ts <;> rfl

/-- Nothing is added by a last step that takes nothing. -/
theorem bind_pure (s : Step α) : s.bind Step.pure = s := by
  funext ts
  unfold Step.bind Step.pure
  cases s ts <;> rfl

/-- Nor by a first one. -/
theorem pure_bind (a : α) (f : α → Step β) : (Step.pure a).bind f = f a := rfl

/-- Two steps succeed if the first does and the second does on what is left. -/
theorem bind_ok_iff {s : Step α} {f : α → Step β} {ts rest : Tokens} {b : β} :
    s.bind f ts = .ok (b, rest) ↔ ∃ a mid, s ts = .ok (a, mid) ∧ f a mid = .ok (b, rest) := by
  unfold Step.bind
  cases hs : s ts with
  | error e => simp
  | ok r =>
      constructor
      · intro h
        exact ⟨r.1, r.2, rfl, h⟩
      · intro hall
        obtain ⟨a, mid, h, h'⟩ := hall
        cases h
        exact h'

/-- A step that takes nothing reads no tokens. -/
theorem reads_pure (a : α) : (Step.pure a).Reads fun b run _ => b = a ∧ run = [] := by
  intro ts b rest
  obtain ⟨list, finish⟩ := ts
  obtain ⟨list', finish'⟩ := rest
  unfold Step.pure
  constructor
  · intro h
    cases h
    exact ⟨rfl, [], rfl, rfl, rfl⟩
  · intro h
    obtain ⟨rfl, run, hrun, rfl, rfl⟩ := h
    rw [show list = list' from hrun]

/-- Two steps read what the first does and then what the second does. For the first, the tokens of
the second are among those that follow. -/
theorem Reads.bind {s : Step α} {f : α → Step β} {P : Shape α} {Q : α → Shape β}
    (hs : s.Reads P) (hf : ∀ a, (f a).Reads (Q a)) :
    (s.bind f).Reads fun b run rest => ∃ a first later, run = first ++ later ∧
      P a first (later ++ rest) ∧ Q a b later rest := by
  intro ts b rest
  rw [bind_ok_iff]
  constructor
  · intro hall
    obtain ⟨a, mid, h, h'⟩ := hall
    obtain ⟨hfin, first, hts, hP⟩ := (hs ..).1 h
    obtain ⟨hfin', later, hmid, hQ⟩ := (hf ..).1 h'
    rw [hmid] at hts hP
    refine ⟨hfin'.trans hfin, first ++ later, ?_, a, first, later, rfl, hP, hQ⟩
    rw [hts, List.append_assoc]
  · intro h
    obtain ⟨hfin, run, hts, a, first, later, rfl, hP, hQ⟩ := h
    refine ⟨a, ⟨later ++ rest.list, ts.finish⟩, (hs ..).2 ⟨rfl, first, ?_, hP⟩,
      (hf ..).2 ⟨hfin, later, rfl, hQ⟩⟩
    rw [hts, List.append_assoc]

/-- Whatever is made of the value, the same tokens are read. -/
theorem Reads.map {s : Step α} {P : Shape α} (hs : s.Reads P) (f : α → β) :
    (s.map f).Reads fun b run rest => ∃ a, b = f a ∧ P a run rest := by
  refine (hs.bind fun a => reads_pure (f a)).congr fun b run rest => ?_
  constructor
  · intro h
    obtain ⟨a, first, later, rfl, hP, rfl, rfl⟩ := h
    rw [List.append_nil]
    exact ⟨a, rfl, hP⟩
  · intro h
    obtain ⟨a, rfl, hP⟩ := h
    exact ⟨a, run, [], (List.append_nil run).symm, hP, rfl, rfl⟩

-- ============================================================ single tokens

/-- A wanted token is taken off the front. -/
theorem expect_ok_iff {kind : TokenKind} {want : Want} {ts rest : Tokens} {t : Token} :
    expect kind want ts = .ok (t, rest)
      ↔ rest.finish = ts.finish ∧ ts.list = t :: rest.list ∧ t.kind = kind := by
  obtain ⟨list, finish⟩ := ts
  obtain ⟨list', finish'⟩ := rest
  unfold expect
  cases list with
  | nil => simp
  | cons u us =>
      dsimp only
      split
      · next hu =>
        constructor
        · intro h
          cases h
          exact ⟨rfl, rfl, hu⟩
        · intro hall
          obtain ⟨rfl, h, ht⟩ := hall
          cases h
          rfl
      · next hu =>
        constructor
        · intro h
          cases h
        · intro hall
          obtain ⟨rfl, h, ht⟩ := hall
          cases h
          exact absurd ht hu

/-- A token that has to come next, and what is read after it. -/
theorem Reads.expect {kind : TokenKind} {want : Want} {f : Token → Step β}
    {Q : Token → Shape β} (hf : ∀ t, (f t).Reads (Q t)) :
    ((Step.expect kind want).bind f).Reads fun b run rest =>
      ∃ t later, run = t :: later ∧ t.kind = kind ∧ Q t b later rest := by
  intro ts b rest
  rw [bind_ok_iff]
  constructor
  · intro hall
    obtain ⟨t, mid, h, h'⟩ := hall
    obtain ⟨hfin, hts, ht⟩ := expect_ok_iff.1 h
    obtain ⟨hfin', later, hmid, hQ⟩ := (hf ..).1 h'
    refine ⟨hfin'.trans hfin, t :: later, ?_, t, later, rfl, ht, hQ⟩
    rw [hts, hmid]
    rfl
  · intro h
    obtain ⟨hfin, run, hts, t, later, rfl, ht, hQ⟩ := h
    exact ⟨t, ⟨later ++ rest.list, ts.finish⟩, expect_ok_iff.2 ⟨rfl, hts, ht⟩,
      (hf ..).2 ⟨hfin, later, rfl, hQ⟩⟩

/-- A wanted token is read as a run of one. -/
theorem reads_expect (kind : TokenKind) (want : Want) :
    (Step.expect kind want).Reads fun t run _ => run = [t] ∧ t.kind = kind := by
  intro ts t rest
  rw [expect_ok_iff]
  refine and_congr_right fun _ => ⟨?_, ?_⟩
  · intro h
    obtain ⟨hts, ht⟩ := h
    exact ⟨[t], hts, rfl, ht⟩
  · intro h
    obtain ⟨run, hts, rfl, ht⟩ := h
    exact ⟨hts, ht⟩

/-- An optional token is taken if it comes next. -/
theorem accept_of_next {kind : TokenKind} {t : Token} {list : List Token} {finish : Position}
    (ht : t.kind = kind) :
    Step.accept kind ⟨t :: list, finish⟩ = .ok (true, ⟨list, finish⟩) := if_pos ht

/-- Otherwise nothing is taken. -/
theorem accept_of_not_next {kind : TokenKind} {ts : Tokens} (h : ¬ Next kind ts.list) :
    Step.accept kind ts = .ok (false, ts) := by
  obtain ⟨list, finish⟩ := ts
  cases list with
  | nil => rfl
  | cons t list => exact if_neg h

/-- A token that may come next, and what is read in either case. -/
theorem Reads.accept {kind : TokenKind} {f : Bool → Step β} {Yes No : Shape β}
    (hyes : (f true).Reads Yes) (hno : (f false).Reads No) :
    ((Step.accept kind).bind f).Reads fun b run rest =>
      (∃ t later, run = t :: later ∧ t.kind = kind ∧ Yes b later rest) ∨
        ¬ Next kind (run ++ rest) ∧ No b run rest := by
  intro ts b rest
  obtain ⟨list, finish⟩ := ts
  rw [bind_ok_iff]
  by_cases hnext : Next kind list
  · cases list with
    | nil => exact absurd hnext id
    | cons t list =>
        rw [accept_of_next (show t.kind = kind from hnext)]
        constructor
        · intro hall
          obtain ⟨a, mid, h, h'⟩ := hall
          cases h
          obtain ⟨hfin, later, hmid, hY⟩ := (hyes ..).1 h'
          exact ⟨hfin, t :: later, congrArg (t :: ·) hmid, Or.inl ⟨t, later, rfl, hnext, hY⟩⟩
        · intro h
          obtain ⟨hfin, run, hts, ⟨t', later, rfl, ht, hY⟩ | ⟨hn, hN⟩⟩ := h
          · cases hts
            exact ⟨true, _, rfl, (hyes ..).2 ⟨hfin, later, rfl, hY⟩⟩
          · rw [← show t :: list = run ++ rest.list from hts] at hn
            exact absurd hnext hn
  · rw [accept_of_not_next hnext]
    constructor
    · intro hall
      obtain ⟨a, mid, h, h'⟩ := hall
      cases h
      obtain ⟨hfin, run, hts, hN⟩ := (hno ..).1 h'
      rw [show list = run ++ rest.list from hts] at hnext
      exact ⟨hfin, run, hts, Or.inr ⟨hnext, hN⟩⟩
    · intro h
      obtain ⟨hfin, run, hts, ⟨t, later, rfl, ht, hY⟩ | ⟨hn, hN⟩⟩ := h
      · rw [show list = t :: later ++ rest.list from hts] at hnext
        exact absurd ht hnext
      · exact ⟨false, _, rfl, (hno ..).2 ⟨hfin, run, hts, hN⟩⟩

/-- The place of the first token, for what is read by taking one. -/
theorem Reads.here {f : Position → Step β} {Q : Position → Shape β}
    (hf : ∀ p, (f p).Reads (Q p)) (hne : ∀ {p b run rest}, Q p b run rest → run ≠ []) :
    (Step.here.bind f).Reads fun b run rest =>
      ∃ t later, run = t :: later ∧ Q t.position b run rest := by
  intro ts b rest
  rw [show Step.here.bind f ts = f ts.position ts from rfl, hf]
  refine and_congr_right fun _ => ⟨?_, ?_⟩
  · intro h
    obtain ⟨run, hts, hQ⟩ := h
    cases run with
    | nil => exact absurd rfl (hne hQ)
    | cons t later =>
        refine ⟨t :: later, hts, t, later, rfl, ?_⟩
        rwa [show ts.position = t.position by rw [Tokens.position, hts]; rfl] at hQ
  · intro h
    obtain ⟨run, hts, t, later, rfl, hQ⟩ := h
    refine ⟨t :: later, hts, ?_⟩
    rwa [show ts.position = t.position by rw [Tokens.position, hts]; rfl]

/-- A number is read from the value of its token, which was taken before. -/
theorem reads_numeral (t : Token) :
    (Step.numeral t).Reads fun n run _ => run = [] ∧ Text.Numeral.read t.value = .ok n := by
  intro ts n rest
  obtain ⟨list, finish⟩ := ts
  obtain ⟨list', finish'⟩ := rest
  unfold Step.numeral
  cases Text.Numeral.read t.value with
  | error e => simp
  | ok m =>
      constructor
      · intro h
        cases h
        exact ⟨rfl, [], rfl, rfl, rfl⟩
      · intro hall
        obtain ⟨rfl, run, hts, rfl, h⟩ := hall
        cases h
        rw [show list = list' from hts]

-- ================================================================== lists

/-- One round of reading items: an item, then the same again. -/
theorem manyWhile_go {ahead : Tokens → Bool} {item : Step α} (h : item.Shrinks) {ts : Tokens}
    (hgo : ahead ts = true) :
    manyWhile ahead item h ts
      = item.bind (fun a => Step.map (a :: ·) (manyWhile ahead item h)) ts := by
  rw [manyWhile, if_pos hgo]
  unfold Step.map Step.bind Step.pure
  cases hi : item ts with
  | error e => rfl
  | ok r =>
      dsimp only
      cases manyWhile ahead item h r.2 <;> rfl

/-- A list ends where what lies ahead says so. -/
theorem manyWhile_stop {ahead : Tokens → Bool} {item : Step α} (h : item.Shrinks)
    {ts : Tokens} (hstop : ¬ ahead ts = true) :
    manyWhile ahead item h ts = Step.pure [] ts := by
  rw [manyWhile, if_neg hstop]
  rfl

/-- One round of reading after signs: an item, then the same again. -/
theorem manyAfter_go {sign : TokenKind} {item : Step α} (h : item.Keeps) {t : Token}
    {list : List Token} {finish : Position} (hgo : t.kind = sign) :
    manyAfter sign item h ⟨t :: list, finish⟩
      = item.bind (fun a => Step.map (a :: ·) (manyAfter sign item h)) ⟨list, finish⟩ := by
  rw [manyAfter]
  dsimp only
  rw [if_pos hgo]
  unfold Step.map Step.bind Step.pure
  cases hi : item ⟨list, finish⟩ with
  | error e => rfl
  | ok r =>
      dsimp only
      cases manyAfter sign item h r.2 <;> rfl

/-- A list ends where no sign comes next. -/
theorem manyAfter_stop {sign : TokenKind} {item : Step α} (h : item.Keeps) {ts : Tokens}
    (hstop : ¬ Next sign ts.list) : manyAfter sign item h ts = Step.pure [] ts := by
  obtain ⟨list, finish⟩ := ts
  rw [manyAfter]
  cases list with
  | nil => rfl
  | cons t list => exact if_neg hstop

/-- A step with something made of its value succeeds as the step does. -/
theorem map_ok_iff {s : Step α} {f : α → β} {ts rest : Tokens} {b : β} :
    s.map f ts = .ok (b, rest) ↔ ∃ a, s ts = .ok (a, rest) ∧ b = f a := by
  unfold Step.map
  rw [bind_ok_iff]
  constructor
  · intro hall
    obtain ⟨a, mid, h, h'⟩ := hall
    cases h'
    exact ⟨a, h, rfl⟩
  · intro hall
    obtain ⟨a, h, rfl⟩ := hall
    exact ⟨a, rest, h, rfl⟩

/-- Reading items for as long as something starts one. The induction is on the number of
tokens, as the reading itself. -/
theorem reads_manyWhile {ahead : Tokens → Bool} {starts : List Token → Prop} {item : Step α}
    {P : Shape α} (h : item.Shrinks) (hP : item.Reads P)
    (hahead : ∀ ts : Tokens, ahead ts = true ↔ starts ts.list) :
    Reads (manyWhile ahead item h) (Many starts P) := by
  intro ts
  induction hn : ts.list.length using Nat.strongRecOn generalizing ts with
  | ind n ih =>
      intro as rest
      by_cases hgo : starts ts.list
      · rw [manyWhile_go h ((hahead ts).2 hgo), bind_ok_iff]
        constructor
        · intro h
          obtain ⟨a, mid, hi, hmap⟩ := h
          obtain ⟨as', hrec, rfl⟩ := map_ok_iff.1 hmap
          obtain ⟨hfin, run, hts, ha⟩ := (hP ..).1 hi
          obtain ⟨hfin', later, hmid, hl⟩ := (ih _ (hn ▸ h _ _ _ hi) mid rfl as' rest).1 hrec
          have hall : ts.list = run ++ (later ++ rest.list) := by rw [hts, hmid]
          rw [hmid] at ha
          refine ⟨hfin'.trans hfin, run ++ later, ?_, .more (hall ▸ hgo) ha hl⟩
          rw [hall, List.append_assoc]
        · intro h
          obtain ⟨hfin, run, hts, hm⟩ := h
          cases hm with
          | stop hs => exact absurd (by rwa [hts] at hgo) hs
          | @more a as' run later _ hs ha hl =>
              have hi : item ts = .ok (a, ⟨later ++ rest.list, ts.finish⟩) :=
                (hP ..).2 ⟨rfl, run, by rw [hts, List.append_assoc], ha⟩
              exact ⟨a, _, hi, map_ok_iff.2 ⟨as',
                (ih _ (hn ▸ h _ _ _ hi) _ rfl as' rest).2 ⟨hfin, later, rfl, hl⟩, rfl⟩⟩
      · rw [manyWhile_stop h fun hb => hgo ((hahead ts).1 hb), reads_pure]
        refine and_congr_right fun _ => exists_congr fun run => and_congr_right fun hts => ?_
        constructor
        · intro h
          obtain ⟨rfl, rfl⟩ := h
          exact .stop (by rwa [hts] at hgo)
        · intro hm
          cases hm with
          | stop hs => exact ⟨rfl, rfl⟩
          | more hs ha hl => exact absurd (by rwa [hts, List.append_assoc]) hgo

/-- Reading the sign and an item for as long as the sign comes next, by the same
induction. -/
theorem reads_manyAfter {sign : TokenKind} {item : Step α} {P : Shape α} (h : item.Keeps)
    (hP : item.Reads P) : Reads (manyAfter sign item h) (After sign P) := by
  intro ts
  induction hn : ts.list.length using Nat.strongRecOn generalizing ts with
  | ind n ih =>
      intro as rest
      by_cases hgo : Next sign ts.list
      · obtain ⟨list, finish⟩ := ts
        cases list with
        | nil => exact absurd hgo id
        | cons t list =>
            have hless : ∀ {a mid}, item ⟨list, finish⟩ = .ok (a, mid) → mid.list.length < n :=
              fun hi => hn ▸ Nat.lt_succ_of_le (h _ _ _ hi)
            rw [manyAfter_go h (show t.kind = sign from hgo), bind_ok_iff]
            constructor
            · intro h
              obtain ⟨a, mid, hi, hmap⟩ := h
              obtain ⟨as', hrec, rfl⟩ := map_ok_iff.1 hmap
              obtain ⟨hfin, run, hts, ha⟩ := (hP ..).1 hi
              obtain ⟨hfin', later, hmid, hl⟩ := (ih _ (hless hi) mid rfl as' rest).1 hrec
              rw [hmid] at ha hts
              refine ⟨hfin'.trans hfin, t :: (run ++ later), ?_, .more hgo ha hl⟩
              show t :: list = t :: (run ++ later ++ rest.list)
              rw [show list = run ++ (later ++ rest.list) from hts, List.append_assoc]
            · intro h
              obtain ⟨hfin, run, hts, hm⟩ := h
              cases hm with
              | stop hs => exact absurd (by rwa [show t :: list = rest.list from hts] at hgo) hs
              | @more s a as' run later _ hs ha hl =>
                  cases hts
                  have hi : item ⟨run ++ later ++ rest.list, finish⟩
                      = .ok (a, ⟨later ++ rest.list, finish⟩) :=
                    (hP ..).2 ⟨rfl, run, List.append_assoc .., ha⟩
                  exact ⟨a, _, hi, map_ok_iff.2 ⟨as',
                    (ih _ (hless hi) _ rfl as' rest).2 ⟨hfin, later, rfl, hl⟩, rfl⟩⟩
      · rw [manyAfter_stop h hgo, reads_pure]
        refine and_congr_right fun _ => exists_congr fun run => and_congr_right fun hts => ?_
        constructor
        · intro h
          obtain ⟨rfl, rfl⟩ := h
          exact .stop (by rwa [hts] at hgo)
        · intro hm
          cases hm with
          | stop hs => exact ⟨rfl, rfl⟩
          | more hs ha hl => exact absurd (by rw [hts]; exact hs) hgo

/-- A list with signs between its items reads what `Listed` spells. -/
theorem reads_separated {sign : TokenKind} {item : Step α} {P : Shape α} (h : item.Shrinks)
    (hP : item.Reads P) : (separated sign item h).Reads (Listed sign P) := by
  refine (hP.bind fun a => (reads_manyAfter h.keeps hP).map (a :: ·)).congr
    fun as run rest => ?_
  constructor
  · intro h
    obtain ⟨a, first, later, rfl, ha, as', rfl, hl⟩ := h
    exact .mk ha hl
  · intro hl
    cases hl with
    | mk ha hl => exact ⟨_, _, _, rfl, ha, _, rfl, hl⟩

end Step

end SystemMap
