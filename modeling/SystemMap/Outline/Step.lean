/-
Steps of reading. A step takes tokens off the front and yields a value, or stops with a
fault. No step puts tokens back (`Keeps`), and one that has to find a token takes at least
that one (`Shrinks`); both facts pass through sequencing, which is what lets lists be read
by a loop that ends.

A fault says what was wanted and what was found instead, and where.
-/
import SystemMap.Text.Numeral
import SystemMap.Token.Scan

namespace SystemMap

-- ================================================================= faults

/-- What a step may want to find. -/
inductive Want where
  | includeWord
  | filePath
  | className
  | doubleColon
  | connectorName
  | portListEnd
  | udpOpening
  | udpClosing
  | port
  | lastPort
  | sourceClass
  | targetClass
  | refDot
  | sourceConnector
  | targetConnector
  | arrow
  | instanceName
  | addressEnd
  | octet
  | translationMark
  | translationName
  | translationOpening
  | addressComma
  | translationEnd
  | sourceName
  | targetName
deriving DecidableEq

/-- How a message calls what was wanted. -/
def Want.phrase : Want → String
  | .includeWord => "'include'"
  | .filePath => "file path string"
  | .className => "node class name"
  | .doubleColon => "'::' after node class name"
  | .connectorName => "connector name"
  | .portListEnd => "')' after port list"
  | .udpOpening => "'(' after UDP"
  | .udpClosing => "')' after UDP port"
  | .port => "port number"
  | .lastPort => "end port number"
  | .sourceClass => "source node class"
  | .targetClass => "target node class"
  | .refDot => "'.'"
  | .sourceConnector => "source connector"
  | .targetConnector => "target connector"
  | .arrow => "'->'"
  | .instanceName => "instance name"
  | .addressEnd => "')' after IP address"
  | .octet => "IP address octet"
  | .translationMark => "'@'"
  | .translationName => "NAT name"
  | .translationOpening => "'(' after NAT name"
  | .addressComma => "',' between IP addresses"
  | .translationEnd => "')' after IP addresses"
  | .sourceName => "source entity name"
  | .targetName => "target entity name"

/-- A token, or the end of the text, that is not what was wanted there. -/
structure Mismatch where
  want : Want
  found : Option TokenKind
  position : Position
deriving DecidableEq

/-- What a message says about a mismatch. -/
def Mismatch.message (m : Mismatch) : String :=
  atPlace m.position
    ("Expected " ++ m.want.phrase ++ ", got " ++ TokenKind.labelOrEnd m.found)

/-- Why a text has no document. -/
inductive TextFault where
  /-- It cannot be cut into tokens. -/
  | scan (e : ScanError)
  /-- A token stands where it cannot stand. -/
  | mismatch (m : Mismatch)
  /-- A port has too many digits. -/
  | numeral (f : Text.Numeral.Fault)
deriving DecidableEq

/-- What a message says about a fault. -/
def TextFault.message : TextFault → String
  | .scan e => e.message
  | .mismatch m => m.message
  | .numeral f => f.message

-- ================================================================== steps

/-- A step of reading. -/
abbrev Step (α : Type) := Tokens → Except TextFault (α × Tokens)

namespace Step

variable {α β : Type}

/-- Takes nothing. -/
protected def pure (a : α) : Step α := fun ts => .ok (a, ts)

/-- One step after another. -/
protected def bind (s : Step α) (f : α → Step β) : Step β := fun ts =>
  match s ts with
  | .ok (a, rest) => f a rest
  | .error e => .error e

/-- A step whose value is sent on. -/
protected def map (f : α → β) (s : Step α) : Step β := s.bind fun a => Step.pure (f a)

/-- Takes a token of the kind given, or stops. -/
def expect (kind : TokenKind) (want : Want) : Step Token := fun ts =>
  match ts.list with
  | t :: rest =>
    if t.kind = kind then .ok (t, { ts with list := rest })
    else .error (.mismatch ⟨want, some t.kind, t.position⟩)
  | [] => .error (.mismatch ⟨want, none, ts.finish⟩)

/-- Takes a token if it is of the kind given, and tells whether it did. -/
def accept (kind : TokenKind) : Step Bool := fun ts =>
  match ts.list with
  | t :: rest => if t.kind = kind then .ok (true, { ts with list := rest }) else .ok (false, ts)
  | [] => .ok (false, ts)

/-- Where the next token stands; takes nothing. -/
def here : Step Position := fun ts => .ok (ts.position, ts)

/-- The number that a token writes; takes nothing. -/
def numeral (t : Token) : Step Int := fun ts =>
  match Text.Numeral.read t.value with
  | .ok n => .ok (n, ts)
  | .error f => .error (.numeral f)

-- ============================================================ what is left

/-- The step leaves no more tokens than it found. -/
def Keeps (s : Step α) : Prop :=
  ∀ ts a rest, s ts = .ok (a, rest) → rest.list.length ≤ ts.list.length

/-- The step leaves fewer tokens than it found. -/
def Shrinks (s : Step α) : Prop :=
  ∀ ts a rest, s ts = .ok (a, rest) → rest.list.length < ts.list.length

theorem Shrinks.keeps {s : Step α} (h : s.Shrinks) : s.Keeps :=
  fun ts a rest hs => Nat.le_of_lt (h ts a rest hs)

theorem keeps_pure (a : α) : (Step.pure a).Keeps := by
  intro ts b rest h
  cases h
  exact Nat.le_refl _

theorem Keeps.bind {s : Step α} {f : α → Step β} (hs : s.Keeps) (hf : ∀ a, (f a).Keeps) :
    (s.bind f).Keeps := by
  intro ts b rest h
  unfold Step.bind at h
  split at h
  · next a mid hmid => exact Nat.le_trans (hf a _ _ _ h) (hs _ _ _ hmid)
  · cases h

theorem Shrinks.bind {s : Step α} {f : α → Step β} (hs : s.Shrinks) (hf : ∀ a, (f a).Keeps) :
    (s.bind f).Shrinks := by
  intro ts b rest h
  unfold Step.bind at h
  split at h
  · next a mid hmid => exact Nat.lt_of_le_of_lt (hf a _ _ _ h) (hs _ _ _ hmid)
  · cases h

theorem Keeps.bind_shrinks {s : Step α} {f : α → Step β} (hs : s.Keeps)
    (hf : ∀ a, (f a).Shrinks) : (s.bind f).Shrinks := by
  intro ts b rest h
  unfold Step.bind at h
  split at h
  · next a mid hmid => exact Nat.lt_of_lt_of_le (hf a _ _ _ h) (hs _ _ _ hmid)
  · cases h

theorem Keeps.map {s : Step α} (f : α → β) (hs : s.Keeps) : (s.map f).Keeps :=
  hs.bind fun _ => keeps_pure _

theorem Shrinks.map {s : Step α} (f : α → β) (hs : s.Shrinks) : (s.map f).Shrinks :=
  hs.bind fun _ => keeps_pure _

theorem shrinks_expect (kind : TokenKind) (want : Want) : (expect kind want).Shrinks := by
  intro ts t rest h
  unfold expect at h
  split at h
  · next u us hts =>
    split at h
    · cases h
      simp [hts]
    · cases h
  · cases h

theorem keeps_accept (kind : TokenKind) : (accept kind).Keeps := by
  intro ts b rest h
  unfold accept at h
  split at h
  · next u us hts =>
    split at h
    · cases h
      simp [hts]
    · cases h
      exact Nat.le_refl _
  · cases h
    exact Nat.le_refl _

theorem keeps_here : here.Keeps := by
  intro ts p rest h
  cases h
  exact Nat.le_refl _

theorem keeps_numeral (t : Token) : (numeral t).Keeps := by
  intro ts n rest h
  unfold numeral at h
  split at h
  · cases h
    exact Nat.le_refl _
  · cases h

-- ================================================================== lists

/-- Items for as long as the tokens ahead call for one. -/
def manyWhile (ahead : Tokens → Bool) (item : Step α) (h : item.Shrinks) (ts : Tokens) :
    Except TextFault (List α × Tokens) :=
  if ahead ts then
    match _hi : item ts with
    | .error e => .error e
    | .ok (a, mid) =>
      match manyWhile ahead item h mid with
      | .error e => .error e
      | .ok (as, rest) => .ok (a :: as, rest)
  else .ok ([], ts)
termination_by ts.list.length
decreasing_by exact h _ _ _ _hi

theorem keeps_manyWhile (ahead : Tokens → Bool) (item : Step α) (h : item.Shrinks) :
    Keeps (manyWhile ahead item h) := by
  intro ts
  induction hn : ts.list.length using Nat.strongRecOn generalizing ts with
  | ind n ih =>
    intro as rest hs
    rw [manyWhile] at hs
    split at hs
    · split at hs
      · cases hs
      · next a mid hi =>
        have hlt := h _ _ _ hi
        split at hs
        · cases hs
        · next as' rest' hrec =>
          cases hs
          have := ih _ (hn ▸ hlt) _ rfl _ _ hrec
          omega
    · cases hs
      omega

/-- The sign and an item, for as long as the sign stands next. -/
def manyAfter (sign : TokenKind) (item : Step α) (h : item.Keeps) (ts : Tokens) :
    Except TextFault (List α × Tokens) :=
  match _ht : ts.list with
  | [] => .ok ([], ts)
  | t :: tail =>
    if t.kind = sign then
      match _hi : item { ts with list := tail } with
      | .error e => .error e
      | .ok (a, mid) =>
        match manyAfter sign item h mid with
        | .error e => .error e
        | .ok (as, rest) => .ok (a :: as, rest)
    else .ok ([], ts)
termination_by ts.list.length
decreasing_by
  have hle : mid.list.length ≤ tail.length := h _ _ _ _hi
  simp only [_ht, List.length_cons]
  omega

theorem keeps_manyAfter (sign : TokenKind) (item : Step α) (h : item.Keeps) :
    Keeps (manyAfter sign item h) := by
  intro ts
  induction hn : ts.list.length using Nat.strongRecOn generalizing ts with
  | ind n ih =>
    intro as rest hs
    rw [manyAfter] at hs
    split at hs
    · cases hs
      omega
    · next t tail ht =>
      have hlen : ts.list.length = tail.length + 1 := by simp [ht]
      split at hs
      · split at hs
        · cases hs
        · next a mid hi =>
          have hle : mid.list.length ≤ tail.length := h _ _ _ hi
          split at hs
          · cases hs
          · next as' rest' hrec =>
            cases hs
            have := ih mid.list.length (by omega) _ rfl _ _ hrec
            omega
      · cases hs
        omega

/-- One item, and one more after each sign that stands next. -/
def separated (sign : TokenKind) (item : Step α) (h : item.Shrinks) : Step (List α) :=
  item.bind fun a => Step.map (a :: ·) (manyAfter sign item h.keeps)

theorem shrinks_separated (sign : TokenKind) {item : Step α} (h : item.Shrinks) :
    (separated sign item h).Shrinks :=
  Shrinks.bind h fun _ => Keeps.map _ (keeps_manyAfter _ _ _)

end Step

end SystemMap
