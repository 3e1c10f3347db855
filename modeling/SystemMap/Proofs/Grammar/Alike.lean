/-
Reading two token lists side by side. Tokens are alike if they are of one kind and, where the
value matters, of one value; they may stand anywhere, and a keyword may be spelled in any way.
On alike lists a step comes to matching outcomes: it takes as many tokens of the one as of the
other and yields values in some relation, or it stops at the same token wanting the same.

`Step.Match` says so of two steps, since what a step does next may depend on a value found
before. There is one lemma for each way of putting steps together. Numbers must be readable,
and then a step stops for no other reason than a token it did not want.
-/
import Mathlib.Data.List.Forall2
import SystemMap.Outline.Step

namespace SystemMap

-- ============================================================= alike tokens

/-- Two tokens that differ at most in their places and in the spelling of a keyword. -/
structure Token.Alike (t u : Token) : Prop where
  kind : t.kind = u.kind
  value : t.kind = .name ∨ t.kind = .number ∨ t.kind = .text → t.value = u.value

namespace Tokens

/-- Token lists that are alike one by one, with numbers that can all be read. -/
structure Alike (ts us : Tokens) : Prop where
  tokens : List.Forall₂ Token.Alike ts.list us.list
  numbers : ∀ t ∈ ts.list, t.kind = .number → ∃ n, Text.Numeral.read t.value = .ok n

/-- What is left after `k` tokens. -/
def drop (k : Nat) (ts : Tokens) : Tokens := { ts with list := ts.list.drop k }

@[simp] theorem drop_zero (ts : Tokens) : ts.drop 0 = ts := rfl

@[simp] theorem drop_drop (k l : Nat) (ts : Tokens) : (ts.drop k).drop l = ts.drop (k + l) := by
  unfold drop
  rw [List.drop_drop]

/-- Dropping one token leaves the tail. -/
theorem drop_one {ts : Tokens} {t : Token} {tail : List Token} (h : ts.list = t :: tail) :
    ts.drop 1 = { ts with list := tail } := by
  unfold drop
  rw [h, List.drop_one, List.tail_cons]

variable {ts us : Tokens}

/-- Alike tokens stay so when as many are dropped from both. -/
theorem Alike.drop (h : ts.Alike us) (k : Nat) : (ts.drop k).Alike (us.drop k) where
  tokens := List.forall₂_drop k h.tokens
  numbers := fun t ht => h.numbers t (List.mem_of_mem_drop ht)

/-- Alike lists are empty together. -/
theorem Alike.nil_or_cons (h : ts.Alike us) : (ts.list = [] ∧ us.list = []) ∨
    ∃ t u tail tail', ts.list = t :: tail ∧ us.list = u :: tail' ∧ t.Alike u := by
  have htokens := h.tokens
  cases hts : ts.list with
  | nil =>
      rw [hts, List.forall₂_nil_left_iff] at htokens
      exact .inl ⟨rfl, htokens⟩
  | cons t tail =>
      rw [hts] at htokens
      obtain ⟨u, tail', hu, htail, hus⟩ := List.forall₂_cons_left_iff.1 htokens
      exact .inr ⟨t, u, tail, tail', rfl, hus, hu⟩

/-- The first tokens are of one kind. -/
theorem Alike.headKind?_eq (h : ts.Alike us) : ts.headKind? = us.headKind? := by
  unfold headKind?
  rcases h.nil_or_cons with ⟨hts, hus⟩ | ⟨t, u, tail, tail', hts, hus, hu⟩
  · rw [hts, hus]
  · rw [hts, hus]
    exact congrArg some hu.kind

/-- So are the second ones. -/
theorem Alike.secondKind?_eq (h : ts.Alike us) : ts.secondKind? = us.secondKind? :=
  (h.drop 1).headKind?_eq

end Tokens

namespace Step

-- ======================================================== matching outcomes

section Outcomes

variable {α β : Type}

/-- Matching outcomes of two steps, the one on `ts` and the other on `us`. -/
inductive Agree (same : α → α → Prop) (ts us : Tokens) :
    Except TextFault (α × Tokens) → Except TextFault (α × Tokens) → Prop
  | done {a b : α} (k : Nat) (h : same a b) :
      Agree same ts us (.ok (a, ts.drop k)) (.ok (b, us.drop k))
  | stuck (k : Nat) (want : Want) (found : Option TokenKind) :
      Agree same ts us (.error (.mismatch ⟨want, found, (ts.drop k).position⟩))
        (.error (.mismatch ⟨want, found, (us.drop k).position⟩))

variable {same : α → α → Prop} {ts us : Tokens} {r r' : Except TextFault (α × Tokens)}

/-- Outcomes on what is left after some tokens match on the whole lists. -/
theorem Agree.of_drop {k : Nat} (h : Agree same (ts.drop k) (us.drop k) r r') :
    Agree same ts us r r' := by
  cases h with
  | done l h =>
      rw [Tokens.drop_drop, Tokens.drop_drop]
      exact .done (k + l) h
  | stuck l want found =>
      rw [Tokens.drop_drop, Tokens.drop_drop]
      exact .stuck (k + l) want found

/-- Outcomes that agree closely agree less closely. -/
theorem Agree.imp {other : α → α → Prop} (h : Agree same ts us r r')
    (himp : ∀ a b, same a b → other a b) : Agree other ts us r r' := by
  cases h with
  | done k h => exact .done k (himp _ _ h)
  | stuck k want found => exact .stuck k want found

/-- Steps in a row agree on alike tokens if the first ones do and, after the same number of
tokens, the second ones. -/
theorem Agree.bind {s s' : Step α} {f f' : α → Step β} {then_ : β → β → Prop}
    (hs : Agree same ts us (s ts) (s' us))
    (hf : ∀ a b k, s ts = .ok (a, ts.drop k) → same a b →
      Agree then_ (ts.drop k) (us.drop k) (f a (ts.drop k)) (f' b (us.drop k))) :
    Agree then_ ts us (s.bind f ts) (s'.bind f' us) := by
  unfold Step.bind
  generalize hr : s ts = r at hs hf
  generalize s' us = r' at hs
  cases hs with
  | done k h => exact (hf _ _ k rfl h).of_drop
  | stuck k want found => exact .stuck k want found

end Outcomes

-- =========================================================== matching steps

variable {α β γ : Type}

/-- Two steps come to matching outcomes on alike token lists. -/
def Match (same : α → α → Prop) (s s' : Step α) : Prop :=
  ∀ ts us, ts.Alike us → Agree same ts us (s ts) (s' us)

/-- A step that yields values of one image under `f` on alike token lists. -/
def Uniform (f : α → γ) (s : Step α) : Prop := Match (fun a b => f a = f b) s s

/-- Steps that take nothing match if their values do. -/
theorem match_pure {same : α → α → Prop} {a b : α} (h : same a b) :
    Match same (Step.pure a) (Step.pure b) :=
  fun _ _ _ => .done 0 h

/-- Steps in a row match if each does, on values that match. -/
theorem Match.bind {same : α → α → Prop} {then_ : β → β → Prop} {s s' : Step α}
    {f f' : α → Step β} (hs : Match same s s')
    (hf : ∀ a b, same a b → Match then_ (f a) (f' b)) :
    Match then_ (s.bind f) (s'.bind f') :=
  fun ts us h => (hs ts us h).bind fun a b k _ hab => hf a b hab _ _ (h.drop k)

/-- What is made of matching values has to match. -/
theorem Match.map {same : α → α → Prop} {then_ : β → β → Prop} {s s' : Step α} {f g : α → β}
    (hs : Match same s s') (h : ∀ a b, same a b → then_ (f a) (g b)) :
    Match then_ (s.map f) (s'.map g) :=
  hs.bind fun a b hab => match_pure (h a b hab)

/-- Tokens of a kind that were found at the same place of alike lists. -/
structure Twins (kind : TokenKind) (t u : Token) : Prop where
  alike : t.Alike u
  isKind : t.kind = kind
  readable : kind = .number → ∃ n, Text.Numeral.read t.value = .ok n

/-- Twins of a kind whose values tell something have the same value. -/
theorem Twins.value {kind : TokenKind} {t u : Token} (h : Twins kind t u)
    (hkind : kind = .name ∨ kind = .number ∨ kind = .text) : t.value = u.value :=
  h.alike.value (h.isKind ▸ hkind)

/-- A wanted token is found in both, and they are twins, or both are refused for it. -/
theorem match_expect (kind : TokenKind) (want : Want) :
    Match (Twins kind) (expect kind want) (expect kind want) := by
  intro ts us h
  rcases h.nil_or_cons with ⟨hts, hus⟩ | ⟨t, u, tail, tail', hts, hus, hu⟩
  · have hplace : Agree (Twins kind) ts us _ _ := .stuck 0 want none
    unfold Tokens.position at hplace
    unfold expect
    rw [hts, hus]
    simpa [hts, hus] using hplace
  · have hplace : Agree (Twins kind) ts us _ _ := .stuck 0 want (some t.kind)
    unfold Tokens.position at hplace
    unfold expect
    rw [hts, hus]
    dsimp only
    rw [← hu.kind]
    split
    · next hkind =>
      rw [← Tokens.drop_one hts, ← Tokens.drop_one hus]
      refine .done 1 ⟨hu, hkind, fun hnumber => ?_⟩
      exact h.numbers t (hts ▸ List.mem_cons_self) (hkind.trans hnumber)
    · simpa [hts, hus] using hplace

/-- An optional token is in both or in neither. -/
theorem match_accept (kind : TokenKind) : Match Eq (accept kind) (accept kind) := by
  intro ts us h
  unfold accept
  rcases h.nil_or_cons with ⟨hts, hus⟩ | ⟨t, u, tail, tail', hts, hus, hu⟩
  · rw [hts, hus]
    exact .done 0 rfl
  · rw [hts, hus]
    dsimp only
    rw [← hu.kind]
    split
    · rw [← Tokens.drop_one hts, ← Tokens.drop_one hus]
      exact .done 1 rfl
    · exact .done 0 rfl

/-- An optional token that is there is taken. -/
theorem length_lt_of_accept {kind : TokenKind} {ts rest : Tokens}
    (h : accept kind ts = .ok (true, rest)) : rest.list.length < ts.list.length := by
  unfold accept at h
  split at h
  · next t tail hts =>
    split at h
    · cases h
      rw [hts]
      exact Nat.lt_succ_self _
    · cases h
  · cases h

/-- Steps that look where they are see places, which need not match. -/
theorem match_here : Match (fun _ _ => True) here here :=
  fun _ _ _ => .done 0 trivial

/-- Numbers with the same value are read alike. -/
theorem match_numeral {t u : Token} (h : Twins .number t u) :
    Match Eq (numeral t) (numeral u) := by
  intro ts us _
  obtain ⟨n, hn⟩ := h.readable rfl
  unfold numeral
  rw [← h.value (by simp), hn]
  exact .done 0 rfl

-- ================================================================== lists

section Lists

variable {f : α → γ} {item : Step α}

/-- A loop over items, taken apart after one of them. -/
theorem manyWhile_eq (ahead : Tokens → Bool) (h : item.Shrinks) (ts : Tokens) :
    manyWhile ahead item h ts =
      if ahead ts then item.bind (fun a => Step.map (a :: ·) (manyWhile ahead item h)) ts
      else .ok ([], ts) := by
  rw [manyWhile]
  unfold Step.map Step.bind Step.pure
  split
  · cases item ts with
    | error e => rfl
    | ok r =>
        dsimp only
        cases manyWhile ahead item h r.2 with
        | error e => rfl
        | ok r' => rfl
  · rfl

/-- A loop over signs and items, taken apart after one of each. -/
theorem manyAfter_eq (sign : TokenKind) (h : item.Keeps) (ts : Tokens) :
    manyAfter sign item h ts = (accept sign).bind (fun more =>
      if more then item.bind fun a => Step.map (a :: ·) (manyAfter sign item h)
      else Step.pure []) ts := by
  rw [manyAfter]
  unfold accept
  rw [Step.bind]
  split
  · next hts => rw [hts]; rfl
  · next t tail hts =>
    rw [hts]
    dsimp only
    split
    · dsimp only
      rw [if_pos rfl]
      unfold Step.map Step.bind Step.pure
      cases item { ts with list := tail } with
      | error e => rfl
      | ok r =>
          dsimp only
          cases manyAfter sign item h r.2 with
          | error e => rfl
          | ok r' => rfl
    · rfl

/-- Loops over items that are called for by what is alike. -/
theorem uniform_manyWhile {ahead : Tokens → Bool} {h : item.Shrinks} (hitem : Uniform f item)
    (hahead : ∀ ts us, ts.Alike us → ahead ts = ahead us) :
    Uniform (List.map f) (manyWhile ahead item h) := by
  intro ts
  induction hn : ts.list.length using Nat.strongRecOn generalizing ts with
  | ind n ih =>
      intro us halike
      rw [manyWhile_eq, manyWhile_eq, ← hahead ts us halike]
      split
      · refine (hitem ts us halike).bind fun a b k hs hab => ?_
        have hshorter := h _ _ _ hs
        refine (ih _ (hn ▸ hshorter) _ rfl _ (halike.drop k)).bind fun as bs l _ hlater => ?_
        exact .done 0 (congrArg₂ List.cons hab hlater)
      · exact .done 0 rfl

/-- A list that goes on after each sign is as uniform as its items. -/
theorem uniform_manyAfter {sign : TokenKind} {h : item.Keeps} (hitem : Uniform f item) :
    Uniform (List.map f) (manyAfter sign item h) := by
  intro ts
  induction hn : ts.list.length using Nat.strongRecOn generalizing ts with
  | ind n ih =>
      intro us halike
      rw [manyAfter_eq, manyAfter_eq]
      refine (match_accept sign ts us halike).bind fun more more' k hs hmore => ?_
      subst hmore
      split
      · next hmore =>
        refine (hitem _ _ (halike.drop k)).bind fun a b l hitem hab => ?_
        have hshorter : ((ts.drop k).drop l).list.length < n := by
          rw [hmore] at hs
          exact hn ▸ Nat.lt_of_le_of_lt (h _ _ _ hitem) (length_lt_of_accept hs)
        refine (ih _ hshorter _ rfl _ ((halike.drop k).drop l)).bind fun as bs l _ hlater => ?_
        exact .done 0 (congrArg₂ List.cons hab hlater)
      · exact .done 0 rfl

/-- A list with signs between its items is as uniform as they are. -/
theorem uniform_separated {sign : TokenKind} {h : item.Shrinks} (hitem : Uniform f item) :
    Uniform (List.map f) (separated sign item h) :=
  Match.bind hitem fun _ _ hab =>
    Match.map (uniform_manyAfter hitem) fun _ _ hlater => congrArg₂ List.cons hab hlater

end Lists

end Step

end SystemMap
