/-
How early a step stops. A step that does not find what it wants stops at the first token that
could not stand there: any tokens that are the same up to it and including it are refused in the
same way (`StopsAt.same`), whereas what comes before it can be completed to tokens that the step
takes (`StopsAt.later`). Numbers must be readable, for a number that is not is no matter of the
token at which a step stops.

Whether tokens are taken depends on what follows, so completions are spelled out for what is
closed to the step, which is most often that certain signs do not come next. `Viable` says of a
step that it stops early on all tokens, and which tokens it takes at least; it is what is proved
of each construct, and there is one lemma for each way of putting steps together.

Some lemmas also keep count of the tokens before the one at which a step stops, because a step
that found its first token cannot stop there.
-/
import SystemMap.Proofs.Grammar.Alike
import SystemMap.Proofs.Grammar.Following

namespace SystemMap

-- =================================================== the same tokens in front

/-- What comes next is the first token of those that are left. -/
theorem Next.exists_cons {kind : TokenKind} {ts : List Token} (h : Next kind ts) :
    ∃ t tail, ts = t :: tail ∧ t.kind = kind := by
  cases ts with
  | nil => exact h.elim
  | cons t tail => exact ⟨t, tail, rfl, h⟩

namespace Tokens

/-- The first `n` tokens are the same in both, where the end counts as a token. -/
structure SameFor (ts : Tokens) (n : Nat) (us : Tokens) : Prop where
  take : us.list.take n = ts.list.take n
  finish : ts.list.length < n → us.finish = ts.finish

section SameFor

variable {ts us : Tokens} {m n k : Nat}

theorem SameFor.refl (ts : Tokens) (n : Nat) : ts.SameFor n ts := ⟨rfl, fun _ => rfl⟩

/-- Tokens that are the same for long are so for a shorter stretch. -/
theorem SameFor.mono (h : ts.SameFor n us) (hmn : m ≤ n) : ts.SameFor m us where
  take := by
    have htake := congrArg (List.take m) h.take
    rwa [List.take_take, List.take_take, Nat.min_eq_left hmn] at htake
  finish := fun hlt => h.finish (Nat.lt_of_lt_of_le hlt hmn)

/-- What is the same stays so behind tokens that both have in front. -/
theorem SameFor.drop (h : ts.SameFor (k + n) us) : (ts.drop k).SameFor n (us.drop k) where
  take := by
    have hdrop := congrArg (List.drop k) h.take
    rwa [List.drop_take, List.drop_take, Nat.add_sub_cancel_left] at hdrop
  finish := fun hlt => h.finish (by
    have hlen : (ts.drop k).list.length = ts.list.length - k := List.length_drop
    omega)

/-- Tokens in front of which others are the same. -/
theorem sameFor_take (h : k ≤ ts.list.length) (later : List Token) (finish : Position) :
    ts.SameFor k ⟨ts.list.take k ++ later, finish⟩ where
  take := List.take_left' (List.length_take_of_le h)
  finish := fun hlt => absurd h (Nat.not_le.2 hlt)

/-- The tokens in front, and what comes after them. -/
theorem SameFor.eq_append (h : ts.SameFor k us) :
    us = ⟨ts.list.take k ++ (us.drop k).list, us.finish⟩ := by
  rw [← h.take]
  unfold Tokens.drop
  rw [List.take_append_drop]

/-- After the end comes nothing that could differ. -/
theorem SameFor.eq_of_nil (h : ts.SameFor (n + 1) us) (hts : ts.list = []) : us = ts := by
  obtain ⟨list, finish⟩ := us
  obtain ⟨list', finish'⟩ := ts
  cases hts
  obtain rfl : finish = finish' := h.finish (Nat.succ_pos n)
  cases list with
  | nil => rfl
  | cons u list => cases h.take

/-- The same first token and then the same tokens. -/
theorem SameFor.exists_cons {t : Token} {tail : List Token} (h : ts.SameFor (n + 1) us)
    (hts : ts.list = t :: tail) : ∃ tail', us.list = t :: tail' ∧
      (⟨tail, ts.finish⟩ : Tokens).SameFor n ⟨tail', us.finish⟩ := by
  obtain ⟨list, finish⟩ := us
  obtain ⟨list', finish'⟩ := ts
  cases hts
  cases list with
  | nil => cases h.take
  | cons u list =>
      obtain ⟨rfl, htake⟩ := List.cons.inj h.take
      exact ⟨list, rfl, htake, fun hlt => h.finish (Nat.succ_lt_succ hlt)⟩

/-- The first token is one of those that are the same. -/
theorem SameFor.next_iff (h : ts.SameFor (n + 1) us) (kind : TokenKind) :
    Next kind us.list ↔ Next kind ts.list := by
  cases hts : ts.list with
  | nil => rw [h.eq_of_nil hts, hts]
  | cons t tail =>
      obtain ⟨tail', hus, -⟩ := h.exists_cons hts
      rw [hus]
      exact Iff.rfl

/-- Nothing comes next in the one that does not in the other. -/
theorem SameFor.endsLike (h : ts.SameFor (n + 1) us) (kinds : List TokenKind) :
    EndsLike kinds ts.list us.list := fun kind _ => (h.next_iff kind).1

/-- A fault would name the same kind of token. -/
theorem SameFor.headKind?_eq (h : ts.SameFor (n + 1) us) : us.headKind? = ts.headKind? := by
  unfold headKind?
  cases hts : ts.list with
  | nil => rw [h.eq_of_nil hts, hts]
  | cons t tail =>
      obtain ⟨tail', hus, -⟩ := h.exists_cons hts
      rw [hus]
      rfl

/-- A fault would stand at the same place. -/
theorem SameFor.position_eq (h : ts.SameFor (n + 1) us) : us.position = ts.position := by
  unfold position
  cases hts : ts.list with
  | nil => rw [h.eq_of_nil hts, hts]
  | cons t tail =>
      obtain ⟨tail', hus, -⟩ := h.exists_cons hts
      rw [hus]

/-- Whether a connector starts is told by two tokens. -/
theorem SameFor.startsConnector_iff (h : ts.SameFor (n + 2) us) :
    StartsConnector us.list ↔ StartsConnector ts.list := by
  have hsecond : Next .doubleColon us.list.tail ↔ Next .doubleColon ts.list.tail := by
    have hdrop : (ts.drop 1).SameFor (n + 1) (us.drop 1) :=
      (h.mono (by omega : 1 + (n + 1) ≤ n + 2)).drop
    have hnext := hdrop.next_iff .doubleColon
    rwa [show (us.drop 1).list = us.list.tail from List.drop_one,
      show (ts.drop 1).list = ts.list.tail from List.drop_one] at hnext
  unfold StartsConnector
  rw [h.next_iff .star, h.next_iff .name, hsecond]

end SameFor

end Tokens

-- ========================================================== readable tokens

/-- A number has a run of digits that is not too long to be read. -/
def Token.Readable (t : Token) : Prop :=
  t.kind = .number →
    IsDigits t.value.toList ∧ t.value.toList.length ≤ Text.Numeral.digitLimit

/-- The value of a readable number is a number. -/
theorem Token.Readable.exists_read {t : Token} (h : t.Readable) (hkind : t.kind = .number) :
    ∃ n, Text.Numeral.read t.value = .ok n := by
  obtain ⟨hdigits, hlen⟩ := h hkind
  have hread := Text.Numeral.read_of_isDigits hdigits
  rw [String.ofList_toList, if_neg (Nat.not_lt.2 hlen)] at hread
  exact ⟨_, hread⟩

/-- Tokens all of whose numbers can be read. -/
def AllReadable (ts : List Token) : Prop := ∀ t ∈ ts, t.Readable

theorem AllReadable.append {a b : List Token} (ha : AllReadable a) (hb : AllReadable b) :
    AllReadable (a ++ b) := fun t ht => (List.mem_append.1 ht).elim (ha t) (hb t)

theorem AllReadable.tail {t : Token} {ts : List Token} (h : AllReadable (t :: ts)) :
    AllReadable ts := fun u hu => h u (List.mem_cons_of_mem t hu)

theorem AllReadable.drop {ts : List Token} (h : AllReadable ts) (k : Nat) :
    AllReadable (ts.drop k) := fun t ht => h t (List.mem_of_mem_drop ht)

/-- Some token of a kind. -/
def Token.sample (kind : TokenKind) : Token := ⟨kind, String.ofList ['0'], .origin⟩

/-- The sample of each kind is readable, the number among them. -/
theorem Token.readable_sample (kind : TokenKind) : (Token.sample kind).Readable := by
  intro _
  unfold sample
  rw [String.toList_ofList]
  exact ⟨⟨List.cons_ne_nil _ _, List.forall_mem_singleton.2 (by decide)⟩, by decide⟩

/-- So samples in a row can complete any readable tokens. -/
theorem allReadable_samples (kinds : List TokenKind) : AllReadable (kinds.map Token.sample) :=
  List.forall_mem_map.2 fun kind _ => Token.readable_sample kind

-- ============================================================ stopping early

/-- None of the kinds given comes next. -/
def Ends (kinds : List TokenKind) (tail : List Token) : Prop := ∀ kind ∈ kinds, ¬ Next kind tail

theorem ends_nil (kinds : List TokenKind) : Ends kinds [] := fun _ _ h => h

/-- A sample of another kind closes a step. -/
theorem ends_sample {kinds : List TokenKind} {kind : TokenKind} (h : kind ∉ kinds)
    (tail : List Token) : Ends kinds (Token.sample kind :: tail) := by
  intro next hnext hkind
  obtain rfl : kind = next := hkind
  exact h hnext

/-- What is closed to all of some kinds is no less closed than anything else. -/
theorem Ends.endsLike {kinds : List TokenKind} {rest' : List Token} (h : Ends kinds rest')
    (rest : List Token) : EndsLike kinds rest rest' :=
  fun kind hkind hnext => (h kind hkind hnext).elim

namespace Step

variable {α β : Type}

/-- The step takes just these tokens off any others that are closed to it. -/
def Takes (closed : List Token → Prop) (run : List Token) (s : Step α) : Prop :=
  ∀ tail finish, closed tail → ∃ a, s ⟨run ++ tail, finish⟩ = .ok (a, ⟨tail, finish⟩)

/-- The step stops at the token after the first `k`, and no earlier token tells that it will. -/
structure StopsAt (closed : List Token → Prop) (s : Step α) (ts : Tokens) (m : Mismatch)
    (k : Nat) : Prop where
  le : k ≤ ts.list.length
  found : m.found = (ts.drop k).headKind?
  position : m.position = (ts.drop k).position
  same : ∀ us, ts.SameFor (k + 1) us → s us = .error (.mismatch m)
  later : ∃ later, AllReadable later ∧ s.Takes closed (ts.list.take k ++ later)

/-- If the step stops, then as early as could be, and not before `n` tokens. -/
def Early (closed : List Token → Prop) (n : Nat) (s : Step α) (ts : Tokens) : Prop :=
  ∀ e, s ts = .error e → ∃ m k, e = .mismatch m ∧ n ≤ k ∧ s.StopsAt closed ts m k

/-- A step that takes some tokens and that stops as early as could be. -/
structure Viable (closed : List Token → Prop) (run : List TokenKind) (s : Step α) : Prop where
  takes : s.Takes closed (run.map Token.sample)
  early : ∀ ts, AllReadable ts.list → s.Early closed 0 ts

-- ================================================================ sequencing

section Combined

variable {closed : List Token → Prop} {kinds : List TokenKind} {run run' : List TokenKind}
  {n : Nat} {ts : Tokens}

/-- A step that takes tokens off all closed ones takes them off fewer. -/
theorem Takes.mono {closed' : List Token → Prop} {run : List Token} {s : Step α}
    (h : s.Takes closed run) (hclosed : ∀ tail, closed' tail → closed tail) :
    s.Takes closed' run := fun tail finish htail => h tail finish (hclosed tail htail)

/-- Two steps take the tokens of one after those of the other. What the second takes, and what
follows it, must close the first. -/
theorem Takes.bind {s : Step α} {f : α → Step β} {run run' : List Token}
    (hs : s.Takes (Ends kinds) run) (hf : ∀ a, (f a).Takes closed run')
    (hclosed : ∀ tail, closed tail → Ends kinds (run' ++ tail)) :
    (s.bind f).Takes closed (run ++ run') := by
  intro tail finish htail
  obtain ⟨a, ha⟩ := hs (run' ++ tail) finish (hclosed tail htail)
  obtain ⟨b, hb⟩ := hf a tail finish htail
  refine ⟨b, bind_ok_iff.2 ⟨a, _, ?_, hb⟩⟩
  rw [List.append_assoc]
  exact ha

/-- Whatever is made of the value, the tokens taken are the same. -/
theorem Takes.map {s : Step α} {run : List Token} (h : s.Takes closed run) (g : α → β) :
    (s.map g).Takes closed run := by
  intro tail finish htail
  obtain ⟨a, ha⟩ := h tail finish htail
  exact ⟨g a, map_ok_iff.2 ⟨a, ha, rfl⟩⟩

/-- A step that stops late enough also stops after fewer tokens. -/
theorem Early.mono {s : Step α} {m : Nat} (h : s.Early closed n ts) (hmn : m ≤ n) :
    s.Early closed m ts := by
  intro e he
  obtain ⟨mismatch, k, heq, hk, hstop⟩ := h e he
  exact ⟨mismatch, k, heq, Nat.le_trans hmn hk, hstop⟩

/-- A step that, after its first token, goes on as another one. -/
theorem Early.cons {s s' : Step α} {t : Token} {tail : List Token}
    (h : s'.Early closed n ⟨tail, ts.finish⟩) (hts : ts.list = t :: tail)
    (heq : ∀ tail finish, s ⟨t :: tail, finish⟩ = s' ⟨tail, finish⟩) :
    s.Early closed (n + 1) ts := by
  obtain ⟨list, finish⟩ := ts
  cases hts
  intro e he
  rw [heq] at he
  obtain ⟨m, k, rfl, hk, hstop⟩ := h e he
  refine ⟨m, k + 1, rfl, Nat.succ_le_succ hk, Nat.succ_le_succ hstop.le, hstop.found,
    hstop.position, fun us hus => ?_, ?_⟩
  · obtain ⟨tail', hus', hsame⟩ := hus.exists_cons rfl
    obtain ⟨list, finish'⟩ := us
    cases hus'
    rw [heq]
    exact hstop.same _ hsame
  · obtain ⟨later, hreadable, htakes⟩ := hstop.later
    refine ⟨later, hreadable, fun rest finish' hrest => ?_⟩
    show ∃ a, s ⟨t :: (tail.take k ++ later ++ rest), finish'⟩ = _
    rw [heq]
    exact htakes rest finish' hrest

/-- A step that does as another one on all tokens that are the same in front. What comes before
its first token is completed by the tokens that it takes. -/
theorem Early.congr {s s' : Step α} {j : Nat} (h : s'.Early closed n ts) (run : List TokenKind)
    (heq : ∀ us, ts.SameFor j us → s us = s' us) (hj : j ≤ n ∨ j ≤ 1)
    (htakes : s.Takes closed (run.map Token.sample)) : s.Early closed n ts := by
  intro e he
  rw [heq ts (.refl ts j)] at he
  obtain ⟨m, k, rfl, hk, hstop⟩ := h e he
  refine ⟨m, k, rfl, hk, hstop.le, hstop.found, hstop.position, fun us hus => ?_, ?_⟩
  · rw [heq us (hus.mono (by omega))]
    exact hstop.same us hus
  · rcases Nat.lt_or_ge k j with hlt | hge
    · obtain rfl : k = 0 := by omega
      exact ⟨_, allReadable_samples run, htakes⟩
    · obtain ⟨later, hreadable, htakes⟩ := hstop.later
      refine ⟨later, hreadable, fun tail finish htail => ?_⟩
      rw [heq, List.append_assoc]
      · rw [← List.append_assoc]
        exact htakes tail finish htail
      · rw [List.append_assoc]
        exact (Tokens.sameFor_take hstop.le _ finish).mono hge

/-- Whatever is made of the value, the step stops where it did. -/
theorem Early.map {s : Step α} (h : s.Early closed n ts) (g : α → β) :
    (s.map g).Early closed n ts := by
  have herror : ∀ us e, s.map g us = .error e ↔ s us = .error e := by
    intro us e
    unfold Step.map Step.bind
    cases s us with
    | error e' =>
        exact ⟨fun h => congrArg _ (Except.error.inj h), fun h => congrArg _ (Except.error.inj h)⟩
    | ok r => exact ⟨nofun, nofun⟩
  intro e he
  obtain ⟨m, k, rfl, hk, hstop⟩ := h e ((herror ts e).1 he)
  obtain ⟨later, hreadable, htakes⟩ := hstop.later
  exact ⟨m, k, rfl, hk, hstop.le, hstop.found, hstop.position,
    fun us hus => (herror us _).2 (hstop.same us hus), later, hreadable, htakes.map g⟩

/-- A step that ended does so too if what follows goes on with it no more. -/
theorem Reads.steady {s : Step α} {shape : Shape α} (hreads : s.Reads shape)
    (hends : Shape.EndsBy shape kinds) {a : α} {rest : Tokens} (h : s ts = .ok (a, rest)) :
    ∃ k ≤ ts.list.length, rest = ts.drop k ∧ ∀ rest' finish, EndsLike kinds rest.list rest' →
      s ⟨ts.list.take k ++ rest', finish⟩ = .ok (a, ⟨rest', finish⟩) := by
  obtain ⟨hfinish, front, hts, hshape⟩ := (hreads ..).1 h
  refine ⟨front.length, ?_, ?_, fun rest' finish hrest => ?_⟩
  · rw [hts, List.length_append]
    exact Nat.le_add_right ..
  · unfold Tokens.drop
    rw [hts, List.drop_left, ← hfinish]
  · rw [hts, List.take_left]
    exact (hreads ..).2 ⟨rfl, front, rfl, hends hshape hrest⟩

/-- Where the first step ends, the second stops as early as could be: what comes next is the
same, or it is the start of what the second step takes, and that is closed to the first. -/
theorem Early.bind {s : Step α} {f : α → Step β} {shape : Shape α} (hreads : s.Reads shape)
    (hends : Shape.EndsBy shape kinds) (run : List TokenKind) (hs : s.Early (Ends kinds) n ts)
    (hf : ∀ a k, s ts = .ok (a, ts.drop k) → (f a).Early closed (n - k) (ts.drop k))
    (htakes : ∀ a, (f a).Takes closed (run.map Token.sample))
    (hclosed : ∀ tail, closed tail → Ends kinds (run.map Token.sample ++ tail)) :
    (s.bind f).Early closed n ts := by
  intro e he
  cases hst : s ts with
  | error e' =>
      obtain rfl : e' = e := by
        unfold Step.bind at he
        rw [hst] at he
        exact Except.error.inj he
      obtain ⟨m, k, rfl, hn, hstop⟩ := hs e' hst
      obtain ⟨later, hreadable, hlater⟩ := hstop.later
      refine ⟨m, k, rfl, hn, hstop.le, hstop.found, hstop.position, fun us hus => ?_,
        later ++ run.map Token.sample, hreadable.append (allReadable_samples run), ?_⟩
      · unfold Step.bind
        rw [hstop.same us hus]
      · rw [← List.append_assoc]
        exact hlater.bind htakes hclosed
  | ok r =>
      obtain ⟨a, rest⟩ := r
      obtain ⟨k, hk, rfl, hsteady⟩ := hreads.steady hends hst
      have hfe : f a (ts.drop k) = .error e := by
        unfold Step.bind at he
        rwa [hst] at he
      obtain ⟨m, j, rfl, hn, hstop⟩ := hf a k hst e hfe
      have hlen : (ts.drop k).list.length = ts.list.length - k := List.length_drop
      have hj := hstop.le
      -- the second step starts on what it gets if the first one takes what it took
      have hgo : ∀ rest' finish, EndsLike kinds (ts.drop k).list rest' →
          s.bind f ⟨ts.list.take k ++ rest', finish⟩ = f a ⟨rest', finish⟩ := by
        intro rest' finish hrest
        unfold Step.bind
        rw [hsteady rest' finish hrest]
      refine ⟨m, k + j, rfl, by omega, by omega, ?_, ?_, fun us hus => ?_, ?_⟩
      · rw [← Tokens.drop_drop]
        exact hstop.found
      · rw [← Tokens.drop_drop]
        exact hstop.position
      · have hdrop : (ts.drop k).SameFor (j + 1) (us.drop k) :=
          (hus.mono (by omega : k + (j + 1) ≤ k + j + 1)).drop
        rw [(hus.mono (by omega : k ≤ k + j + 1)).eq_append, hgo _ _ (hdrop.endsLike kinds)]
        exact hstop.same _ hdrop
      · rcases Nat.eq_zero_or_pos j with rfl | hpos
        · refine ⟨_, allReadable_samples run, fun tail finish htail => ?_⟩
          rw [Nat.add_zero, List.append_assoc, hgo _ _ ((hclosed tail htail).endsLike _)]
          exact htakes a tail finish htail
        · obtain ⟨later, hreadable, hlater⟩ := hstop.later
          refine ⟨later, hreadable, fun tail finish htail => ?_⟩
          have hsame := (Tokens.sameFor_take hj (later ++ tail) finish).mono hpos
          have htake : ts.list.take (k + j) = ts.list.take k ++ (ts.drop k).list.take j :=
            List.take_add
          rw [htake, List.append_assoc, List.append_assoc, hgo _ _ (hsame.endsLike kinds),
            ← List.append_assoc]
          exact hlater tail finish htail

end Combined

-- ============================================================== viable steps

section Viable

variable {closed : List Token → Prop} {kinds : List TokenKind} {run run' : List TokenKind}
  {kind : TokenKind} {want : Want}

/-- A viable step stays so for fewer ends. -/
theorem Viable.mono {closed' : List Token → Prop} {s : Step α} (h : s.Viable closed run)
    (hclosed : ∀ tail, closed' tail → closed tail) : s.Viable closed' run where
  takes := h.takes.mono hclosed
  early := by
    intro ts hts e he
    obtain ⟨m, k, heq, hk, hstop⟩ := h.early ts hts e he
    obtain ⟨later, hreadable, hlater⟩ := hstop.later
    exact ⟨m, k, heq, hk, hstop.le, hstop.found, hstop.position, hstop.same, later, hreadable,
      hlater.mono hclosed⟩

/-- A step that takes nothing never stops. -/
theorem viable_pure (a : α) : (Step.pure a).Viable closed [] where
  takes := fun _ _ _ => ⟨a, rfl⟩
  early := by
    intro ts _ e he
    cases he

/-- Whatever is made of the value, the step stays viable. -/
theorem Viable.map {s : Step α} (h : s.Viable closed run) (g : α → β) :
    (s.map g).Viable closed run where
  takes := h.takes.map g
  early := fun ts hts => (h.early ts hts).map g

/-- One viable step after another, if a run of the second one closes the first. The first ends
where no token of `kinds` comes next, and it can always be completed so. -/
theorem Viable.bind {s : Step α} {f : α → Step β} {shape : Shape α} (hs : s.Viable (Ends kinds) run)
    (hreads : s.Reads shape) (hends : Shape.EndsBy shape kinds)
    (hf : ∀ a, (f a).Viable closed run')
    (hclosed : ∀ tail, closed tail → Ends kinds (run'.map Token.sample ++ tail)) :
    (s.bind f).Viable closed (run ++ run') where
  takes := by
    rw [List.map_append]
    exact hs.takes.bind (fun a => (hf a).takes) hclosed
  early := fun ts hts => .bind hreads hends run' (hs.early ts hts)
    (fun a k _ => ((hf a).early _ (hts.drop k)).mono (Nat.zero_sub k).le)
    (fun a => (hf a).takes) hclosed

/-- Where the wanted token comes next, the step goes on behind it. -/
theorem expect_bind_cons {f : Token → Step β} {t : Token} (ht : t.kind = kind)
    (tail : List Token) (finish : Position) :
    (Step.expect kind want).bind f ⟨t :: tail, finish⟩ = f t ⟨tail, finish⟩ := by
  unfold Step.bind Step.expect
  dsimp only
  rw [if_pos ht]

/-- Where another token comes next, the step stops at it. -/
theorem expect_bind_other {f : Token → Step β} {ts : Tokens} (h : ¬ Next kind ts.list) :
    (Step.expect kind want).bind f ts
      = .error (.mismatch ⟨want, ts.headKind?, ts.position⟩) := by
  obtain ⟨list, finish⟩ := ts
  unfold Step.bind Step.expect
  cases list with
  | nil => rfl
  | cons t list =>
      dsimp only
      rw [if_neg (show ¬ t.kind = kind from h)]
      rfl

/-- A wanted token in front of a viable step. -/
theorem Viable.expect {f : Token → Step β}
    (hf : ∀ t, t.kind = kind → t.Readable → (f t).Viable closed run) :
    ((Step.expect kind want).bind f).Viable closed (kind :: run) := by
  have htakes : ((Step.expect kind want).bind f).Takes closed
      ((kind :: run).map Token.sample) := by
    intro tail finish htail
    rw [List.map_cons, List.cons_append,
      expect_bind_cons (show (Token.sample kind).kind = kind from rfl)]
    exact (hf _ rfl (Token.readable_sample kind)).takes tail finish htail
  refine ⟨htakes, fun ts hts => ?_⟩
  by_cases hnext : Next kind ts.list
  · obtain ⟨t, tail, hlist, ht⟩ := hnext.exists_cons
    rw [hlist] at hts
    have hlater := (hf t ht (hts t List.mem_cons_self)).early ⟨tail, ts.finish⟩ hts.tail
    exact (hlater.cons hlist (expect_bind_cons ht)).mono (Nat.zero_le _)
  · intro e he
    rw [expect_bind_other hnext] at he
    cases he
    refine ⟨_, 0, rfl, Nat.zero_le _, Nat.zero_le _, rfl, rfl, fun us hus => ?_,
      _, allReadable_samples (kind :: run), htakes⟩
    rw [expect_bind_other fun h => hnext ((hus.next_iff kind).1 h), hus.headKind?_eq,
      hus.position_eq]

/-- Where an optional token comes next, the step goes on behind it. -/
theorem accept_bind_cons {f : Bool → Step β} {t : Token} (ht : t.kind = kind)
    (tail : List Token) (finish : Position) :
    (Step.accept kind).bind f ⟨t :: tail, finish⟩ = f true ⟨tail, finish⟩ := by
  unfold Step.bind
  rw [accept_of_next ht]

/-- Where another token comes next, an optional one is passed over. -/
theorem accept_bind_other {f : Bool → Step β} {ts : Tokens} (h : ¬ Next kind ts.list) :
    (Step.accept kind).bind f ts = f false ts := by
  unfold Step.bind
  rw [accept_of_not_next h]

/-- A step with an optional token in front is viable if it is so with and without it, and if no
completion without it starts with it. -/
theorem Viable.accept (run' : List TokenKind) {f : Bool → Step β}
    (hyes : (f true).Viable closed run')
    (hno : (f false).Viable closed run)
    (hother : ∀ tail, closed tail → ¬ Next kind (run.map Token.sample ++ tail)) :
    ((Step.accept kind).bind f).Viable closed run := by
  have htakes : ((Step.accept kind).bind f).Takes closed (run.map Token.sample) := by
    intro tail finish htail
    rw [accept_bind_other (hother tail htail)]
    exact hno.takes tail finish htail
  refine ⟨htakes, fun ts hts => ?_⟩
  by_cases hnext : Next kind ts.list
  · obtain ⟨t, tail, hlist, ht⟩ := hnext.exists_cons
    rw [hlist] at hts
    have hlater := hyes.early ⟨tail, ts.finish⟩ hts.tail
    exact (hlater.cons hlist (accept_bind_cons ht)).mono (Nat.zero_le _)
  · refine (hno.early ts hts).congr run (j := 1) (fun us hus => ?_) (.inr (Nat.le_refl _)) htakes
    exact accept_bind_other fun h => hnext ((hus.next_iff kind).1 h)

/-- What may be left out is no place to stop at before it has started. -/
theorem early_optional (run' : List TokenKind) {f : Bool → Step β} {b : β}
    (hyes : (f true).Viable closed run') (hno : f false = Step.pure b) {ts : Tokens} (hts : AllReadable ts.list) :
    ((Step.accept kind).bind f).Early closed 1 ts := by
  by_cases hnext : Next kind ts.list
  · obtain ⟨t, tail, hlist, ht⟩ := hnext.exists_cons
    rw [hlist] at hts
    exact (hyes.early ⟨tail, ts.finish⟩ hts.tail).cons hlist (accept_bind_cons ht)
  · intro e he
    rw [accept_bind_other hnext, hno] at he
    cases he

/-- A number that can be read is no place to stop at. -/
theorem numeral_bind {t : Token} {n : Int} (h : Text.Numeral.read t.value = .ok n)
    (f : Int → Step β) : (numeral t).bind f = f n := by
  funext ts
  unfold Step.bind numeral
  rw [h]

-- ==================================================================== lists

variable (sign : TokenKind) {item : Step α} {shape : Shape α}

/-- The sign and an item, for as long as the sign stands next, by the induction of the loop. -/
theorem viable_manyAfter {h : item.Keeps} (hitem : item.Viable (Ends kinds) run)
    (hreads : item.Reads shape) (hends : Shape.EndsBy shape kinds) :
    Viable (Ends (sign :: kinds)) [] (manyAfter sign item h) := by
  have htakes : Takes (Ends (sign :: kinds)) [] (manyAfter sign item h) :=
    fun tail finish htail => ⟨[], manyAfter_stop h (htail sign List.mem_cons_self)⟩
  refine ⟨htakes, fun ts => ?_⟩
  induction hn : ts.list.length using Nat.strongRecOn generalizing ts with
  | ind n ih =>
      intro hts
      by_cases hnext : Next sign ts.list
      · obtain ⟨t, tail, hlist, ht⟩ := hnext.exists_cons
        rw [hlist] at hts hn
        have hround : Early (Ends (sign :: kinds)) 0
            (item.bind fun a => Step.map (a :: ·) (manyAfter sign item h)) ⟨tail, ts.finish⟩ := by
          refine .bind hreads hends [] (hitem.early _ hts.tail) (fun a k _ => ?_)
            (fun a => htakes.map _) fun rest hrest kind hkind =>
              hrest kind (List.mem_cons_of_mem _ hkind)
          rw [Nat.zero_sub]
          refine (ih _ ?_ _ rfl (hts.tail.drop k)).map _
          have hlen : (tail.drop k).length = tail.length - k := List.length_drop
          show (tail.drop k).length < n
          rw [List.length_cons] at hn
          omega
        exact (hround.cons hlist fun _ _ => manyAfter_go h ht).mono (Nat.zero_le _)
      · intro e he
        rw [manyAfter_stop h hnext] at he
        cases he

/-- A list of items with signs between them. Its shortest run is that of one item, and it can end
wherever an item can and no sign comes next. -/
theorem viable_separated {h : item.Shrinks} (hitem : item.Viable (Ends kinds) run)
    (hreads : item.Reads shape) (hends : Shape.EndsBy shape kinds) :
    Viable (Ends (sign :: kinds)) run (separated sign item h) := by
  have hlist := hitem.bind hreads hends
    (fun a => (viable_manyAfter sign (h := h.keeps) hitem hreads hends).map (a :: ·))
    fun rest hrest kind hkind => hrest kind (List.mem_cons_of_mem _ hkind)
  rwa [List.append_nil] at hlist

end Viable

end Step

end SystemMap
