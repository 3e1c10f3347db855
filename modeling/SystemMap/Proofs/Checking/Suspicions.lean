/-
What a check doubts. Where nothing is wrong, each cause of a suspicion is told exactly once: an end
of a link class against the direction of its connector, a range of ports that is reversed, a number
that is no port, an address that is not four octets, and a connection that no link class permits
(`Sound.countP_suspicions`). `Document.causes` counts the causes without the check.

The check keeps tables of its own: of several declarations of a connector it takes the first, of
several instances of a name the last. In a sound document there is one of each, so that it takes
the one that is meant (`roleOf?_eq_some_iff`, `classOf?_eq_some_iff`).

Sound or not, a document is checked to the end if the numbers of ports and places are short enough
to be written, and addresses are digits, short enough to be read, with dots between them
(`check_returns`).
-/
import Mathlib.Algebra.BigOperators.Group.List.Basic
import SystemMap.Proofs.Checking.Defects
import SystemMap.Proofs.Printing.Print
import SystemMap.Proofs.Text.Digits

namespace SystemMap

-- ================================================================== kinds

/-- The kinds of suspicions. -/
inductive Suspicion.Kind where
  | linkFromServer
  | linkToClient
  | reversedRange
  | portOutOfRange
  | instanceAddress
  | translationAddress
  | unpermitted
deriving DecidableEq

namespace Suspicion

/-- The kind of a suspicion. -/
def kind : Suspicion → Kind
  | .linkFromServer .. => .linkFromServer
  | .linkToClient .. => .linkToClient
  | .reversedRange .. => .reversedRange
  | .portOutOfRange .. => .portOutOfRange
  | .instanceAddress .. => .instanceAddress
  | .translationAddress .. => .translationAddress
  | .unpermitted .. => .unpermitted

/-- All kinds. -/
def Kind.all : List Kind :=
  [linkFromServer, linkToClient, reversedRange, portOutOfRange, instanceAddress,
    translationAddress, unpermitted]

/-- Suspicions are of one kind each. -/
theorem length_eq_sum (xs : List Suspicion) :
    xs.length = (Kind.all.map fun k => xs.countP (·.kind = k)).sum := by
  induction xs with
  | nil => rfl
  | cons x later ih =>
      have hone : (Kind.all.map fun k => if x.kind = k then 1 else 0).sum = 1 := by
        cases x.kind <;> rfl
      simp only [List.countP_cons, decide_eq_true_eq]
      rw [List.sum_map_add, ← ih, hone, List.length_cons]

end Suspicion

-- ==================================================================== causes

/-- A range of ports whose first is above its last. -/
def Ports.Reversed : Ports → Prop
  | .single _ => False
  | .range first last => last < first

instance (ports : Ports) : Decidable ports.Reversed :=
  match ports with
  | .single _ => inferInstanceAs (Decidable False)
  | .range first last => inferInstanceAs (Decidable (last < first))

/-- Four octets, each at most 255. -/
def IsQuad (address : String) : Prop :=
  (octets address).length = 4 ∧
    ∀ o ∈ octets address, IsDigits o ∧ Nat.ofDigitChars 10 o 0 ≤ 255

instance (address : String) : Decidable (IsQuad address) :=
  inferInstanceAs (Decidable ((octets address).length = 4 ∧
    ∀ o ∈ octets address, IsDigits o ∧ Nat.ofDigitChars 10 o 0 ≤ 255))

namespace Document

variable (d : Document)

/-- A connector is declared with a role, by some declaration of its node class. -/
def HasRole (ref : ConnectorRef) (role : Role) : Prop :=
  ∃ c ∈ d.nodeClasses, c.name = ref.nodeClass ∧
    ∃ k ∈ c.connectors, k.name = ref.connector ∧ k.role = role

instance (ref : ConnectorRef) (role : Role) : Decidable (d.HasRole ref role) :=
  inferInstanceAs (Decidable (∃ c ∈ d.nodeClasses, c.name = ref.nodeClass ∧
    ∃ k ∈ c.connectors, k.name = ref.connector ∧ k.role = role))

/-- Single ports and ranges, of all connectors. -/
def ports : List Ports :=
  d.nodeClasses.flatMap fun c => c.connectors.flatMap fun k => k.ports.map (·.ports)

/-- The addresses of instances. -/
def instanceAddresses : List String := d.deployed.filterMap (·.2.address)

/-- Both addresses of all translations. -/
def translationAddresses : List String :=
  d.translations.flatMap fun t => [t.external, t.internal]

/-- A connection joins two instances, but no link class leads from the class of the one to the
class of the other. -/
def Unpermitted (c : Connection) : Prop :=
  ∃ s ∈ d.deployed, s.2.name = c.source ∧ ∃ t ∈ d.deployed, t.2.name = c.target ∧
    ∀ l ∈ d.linkClasses, ¬ (l.source.nodeClass = s.1 ∧ l.target.nodeClass = t.1)

instance (c : Connection) : Decidable (d.Unpermitted c) :=
  inferInstanceAs (Decidable (∃ s ∈ d.deployed, s.2.name = c.source ∧
    ∃ t ∈ d.deployed, t.2.name = c.target ∧
      ∀ l ∈ d.linkClasses, ¬ (l.source.nodeClass = s.1 ∧ l.target.nodeClass = t.1)))

/-- So many causes a document has for suspicions of a kind. Without link classes nothing is
restricted. -/
def causes : Suspicion.Kind → Nat
  | .linkFromServer => d.linkClasses.countP (d.HasRole ·.source .server)
  | .linkToClient => d.linkClasses.countP (d.HasRole ·.target .client)
  | .reversedRange => d.ports.countP (·.Reversed)
  | .portOutOfRange => d.portNumbers.countP (65535 < ·)
  | .instanceAddress => d.instanceAddresses.countP (¬ IsQuad ·)
  | .translationAddress => d.translationAddresses.countP (¬ IsQuad ·)
  | .unpermitted => if d.linkClasses = [] then 0 else d.connections.countP (d.Unpermitted ·)

end Document

-- =================================================================== counting

/-- What is told for each item counts as much as two other things that it stands for. -/
theorem countP_flatMap_add {α β γ δ : Type} {f : α → List β} {g : α → List γ} {g' : α → List δ}
    {p : β → Bool} {q : γ → Bool} {q' : δ → Bool} {l : List α}
    (h : ∀ a ∈ l, (f a).countP p = (g a).countP q + (g' a).countP q') :
    (l.flatMap f).countP p = (l.flatMap g).countP q + (l.flatMap g').countP q' := by
  rw [List.countP_flatMap, List.countP_flatMap, List.countP_flatMap, ← List.sum_map_add]
  exact congrArg _ (List.map_congr_left h)

/-- What is told under a condition counts once for its kind if the condition holds. -/
theorem Suspicion.countP_told {q : Prop} [Decidable q] {kind k : Kind} {x : Suspicion}
    (hx : x.kind = kind) : (if q then [x] else []).countP (·.kind = k) =
      if decide (kind = k ∧ q) = true then 1 else 0 := by
  subst hx
  split_ifs with h <;> simp_all

/-- Ports are told once if they are reversed, and once for each number out of range. -/
theorem Ports.countP_suspicions (ports : Ports) (ref : ConnectorRef) (k : Suspicion.Kind) :
    (ports.suspicions ref).countP (·.kind = k) =
      [ports].countP (fun ports => .reversedRange = k ∧ ports.Reversed) +
        ports.numbers.countP fun n => .portOutOfRange = k ∧ 65535 < n := by
  have hreversal : (ports.reversal ref).countP (·.kind = k)
      = [ports].countP fun ports => .reversedRange = k ∧ ports.Reversed := by
    cases ports with
    | single port => simp [reversal, Reversed]
    | range first last =>
        unfold reversal
        rw [Suspicion.countP_told rfl, List.countP_singleton]
        rfl
  rw [suspicions_eq, List.countP_append, hreversal, List.countP_map, List.countP_filter]
  congr 1
  refine List.countP_congr fun n _ => ?_
  simp only [Function.comp_apply, Bool.and_eq_true, decide_eq_true_eq]
  exact Iff.rfl

-- ================================================================= addresses

/-- Cutting at each dot gives the octets. -/
theorem splitAt_eq_splitOn (sep : Char) (cs : List Char) :
    Text.splitAt sep cs = cs.splitOn sep := by
  induction cs with
  | nil => rfl
  | cons c cs ih =>
      have hne : cs.splitOn sep ≠ [] := List.splitOnP_ne_nil _ _
      have hcons : (c :: cs).splitOn sep = if c == sep then [] :: cs.splitOn sep
          else (cs.splitOn sep).modifyHead (List.cons c) := List.splitOnP_cons_eq_if_modifyHead ..
      rw [hcons]
      unfold Text.splitAt
      rw [ih]
      cases hparts : cs.splitOn sep with
      | nil => exact absurd hparts hne
      | cons part parts => simp

/-- Plain numbers are octets exactly if each is at most 255. -/
theorem areOctets_iff {parts : List (List Char)} (hplain : ∀ o ∈ parts, IsDigits o) {good : Bool}
    (h : areOctets parts = .ok good) :
    good = true ↔ ∀ o ∈ parts, Nat.ofDigitChars 10 o 0 ≤ 255 := by
  induction parts with
  | nil =>
      cases h
      simp
  | cons part later ih =>
      obtain ⟨hpart, hlater⟩ := List.forall_mem_cons.1 hplain
      rw [areOctets, if_pos (Text.isDigitText_of_isDigits hpart),
        Text.Numeral.read_of_isDigits hpart] at h
      rw [List.forall_mem_cons]
      by_cases hlong : part.length > Text.Numeral.digitLimit
      · rw [if_pos hlong] at h
        cases h
      · rw [if_neg hlong] at h
        dsimp only at h
        split at h
        · next hle => rw [ih hlater h, and_iff_right (by omega)]
        · next hgreat =>
          cases h
          simp only [Bool.false_eq_true, false_iff, not_and]
          omega

/-- Numbers with dots are a good address if they are four, each at most 255. -/
theorem isAddress_iff {address : String} (hplain : IsAddress address) {good : Bool}
    (h : isAddress address = .ok good) : good = true ↔ IsQuad address := by
  unfold isAddress at h
  dsimp only at h
  rw [splitAt_eq_splitOn] at h
  change (if (octets address).length = 4 then areOctets (octets address) else .ok false) = _ at h
  unfold IsQuad
  split_ifs at h with hfour
  · rw [areOctets_iff hplain h, and_iff_right hfour]
    exact forall₂_congr fun o ho => (and_iff_right (hplain o ho)).symm
  · cases h
    simp [hfour]

/-- The first address is tested, and if that ends well, the later ones are. -/
theorem exists_of_suspectAddresses_cons {item : String × Suspicion}
    {later : List (String × Suspicion)} {doubtful : List Suspicion}
    (h : suspectAddresses (item :: later) = .ok doubtful) :
    ∃ good rest, isAddress item.1 = .ok good ∧ suspectAddresses later = .ok rest ∧
      doubtful = if good then rest else item.2 :: rest := by
  unfold suspectAddresses at h
  cases hgood : isAddress item.1 with
  | error f =>
      rw [hgood] at h
      cases h
  | ok good =>
      cases hrest : suspectAddresses later with
      | error f =>
          rw [hgood, hrest] at h
          cases h
      | ok rest =>
          rw [hgood, hrest] at h
          cases h
          exact ⟨good, rest, rfl, rfl, rfl⟩

/-- What is told of some addresses is told of those that are no four octets. -/
theorem suspectAddresses_eq {items : List (String × Suspicion)} {doubtful : List Suspicion}
    (hplain : ∀ item ∈ items, IsAddress item.1) (h : suspectAddresses items = .ok doubtful) :
    doubtful = (items.filter (¬ IsQuad ·.1)).map (·.2) := by
  induction items generalizing doubtful with
  | nil =>
      cases h
      rfl
  | cons item later ih =>
      obtain ⟨hitem, hlater⟩ := List.forall_mem_cons.1 hplain
      obtain ⟨good, rest, hgood, hrest, rfl⟩ := exists_of_suspectAddresses_cons h
      have hquad := isAddress_iff hitem hgood
      rw [List.filter_cons, ih hlater hrest]
      cases good with
      | true => simp [hquad.1 rfl]
      | false => simp [show ¬ IsQuad item.1 from fun hq => by cases hquad.2 hq]

/-- Nothing else is told of addresses than what is to be told of one of them. -/
theorem exists_item_of_suspectAddresses {items : List (String × Suspicion)}
    {doubtful : List Suspicion} (h : suspectAddresses items = .ok doubtful) :
    ∀ x ∈ doubtful, ∃ item ∈ items, item.2 = x := by
  induction items generalizing doubtful with
  | nil =>
      cases h
      simp
  | cons item later ih =>
      obtain ⟨good, rest, -, hrest, rfl⟩ := exists_of_suspectAddresses_cons h
      intro x hx
      have hcases : x = item.2 ∨ x ∈ rest := by
        cases good with
        | true => exact .inr hx
        | false => exact List.mem_cons.1 hx
      rcases hcases with rfl | hx
      · exact ⟨item, List.mem_cons_self, rfl⟩
      · obtain ⟨other, hother, rfl⟩ := ih hrest x hx
        exact ⟨other, List.mem_cons_of_mem _ hother, rfl⟩

-- ================================================================ returning

/-- Digits, or nothing, few enough to be read. -/
def ShortDigits (cs : List Char) : Prop :=
  (∀ c ∈ cs, isDigit c = true) ∧ cs.length ≤ Text.Numeral.digitLimit

/-- Digits that were read are not too many. -/
theorem shortDigits_of_read {cs : List Char} (h : IsDigits cs) {n : Int}
    (hread : Text.Numeral.read (String.ofList cs) = .ok n) : ShortDigits cs := by
  refine ⟨h.2, Nat.not_lt.1 fun hlong => ?_⟩
  rw [Text.Numeral.read_of_isDigits h, if_pos hlong] at hread
  cases hread

/-- A test of short octets returns. -/
theorem areOctets_returns {parts : List (List Char)} (h : ∀ o ∈ parts, ShortDigits o) :
    ∃ good, areOctets parts = .ok good := by
  induction parts with
  | nil => exact ⟨true, rfl⟩
  | cons part later ih =>
      obtain ⟨hpart, hlater⟩ := List.forall_mem_cons.1 h
      unfold areOctets
      by_cases hempty : part = []
      · subst hempty
        exact ⟨false, rfl⟩
      · have hdigits : IsDigits part := ⟨hempty, hpart.1⟩
        rw [if_pos (Text.isDigitText_of_isDigits hdigits), Text.Numeral.read_of_isDigits hdigits,
          if_neg (Nat.not_lt.2 hpart.2)]
        dsimp only
        split
        · exact ih hlater
        · exact ⟨false, rfl⟩

/-- A test of addresses returns if all octets are short. -/
theorem suspectAddresses_returns {items : List (String × Suspicion)}
    (h : ∀ item ∈ items, ∀ o ∈ octets item.1, ShortDigits o) :
    ∃ doubtful, suspectAddresses items = .ok doubtful := by
  induction items with
  | nil => exact ⟨[], rfl⟩
  | cons item later ih =>
      obtain ⟨hitem, hlater⟩ := List.forall_mem_cons.1 h
      obtain ⟨rest, hrest⟩ := ih hlater
      have hgood : ∃ good, isAddress item.1 = .ok good := by
        unfold isAddress
        dsimp only
        rw [splitAt_eq_splitOn]
        split
        · exact areOctets_returns hitem
        · exact ⟨false, rfl⟩
      obtain ⟨good, hgood⟩ := hgood
      unfold suspectAddresses
      rw [hgood, hrest]
      exact ⟨_, rfl⟩

namespace Document

variable {d : Document}

/-- A check returns if its numbers can be written, and octets can be read. -/
theorem check_returns
    (hnumbers : ∀ n ∈ d.portNumbers ++ d.placeNumbers, Text.Numeral.isWritable n = true)
    (haddresses : ∀ a ∈ d.addresses, ∀ o ∈ octets a.1, ShortDigits o) : ∃ r, d.check = .ok r := by
  rcases check_cases d with ⟨f, hf, -⟩ | ⟨f, hf, -⟩ | ⟨doubtful, -, hok⟩
  · obtain ⟨-, n, hn, hlong⟩ := demandWritable_error hf
    cases hlong.symm.trans (hnumbers n (mem_of_toldNumbers hn))
  · obtain ⟨doubtful, hok⟩ := suspectAddresses_returns haddresses
    cases hf.symm.trans hok
  · exact ⟨_, hok⟩

-- ============================================================ a sound document

section Lookups

variable (h : d.Sound)
include h

/-- Where names are unique, the role of a connector is that of its declaration. -/
theorem Sound.roleOf?_eq_some_iff {ref : ConnectorRef} {role : Role} :
    d.roleOf? ref = some role ↔ d.HasRole ref role := by
  constructor
  · intro hrole
    obtain ⟨c, hc, hfound⟩ := List.exists_of_findSome?_eq_some hrole
    split at hfound
    · next hname =>
      obtain ⟨k, hfind, hrole⟩ := Option.map_eq_some_iff.1 hfound
      obtain ⟨hk, hconnector⟩ := (find?_eq_some_iff (h.connectors c hc)).1 hfind
      exact ⟨c, hc, hname, k, hk, hconnector, hrole⟩
    · cases hfound
  · rintro ⟨c, hc, hname, k, hk, hconnector, hrole⟩
    -- no other class has the name, and no other connector of the class
    have hfind : c.connectors.find? (·.name = ref.connector) = some k :=
      (find?_eq_some_iff (h.connectors c hc)).2 ⟨hk, hconnector⟩
    unfold roleOf?
    cases hfirst : d.nodeClasses.findSome? _ with
    | none =>
        have hno := List.findSome?_eq_none_iff.1 hfirst c hc
        rw [if_pos hname, hfind] at hno
        cases hno
    | some found =>
        obtain ⟨other, hother, hfound⟩ := List.exists_of_findSome?_eq_some hfirst
        split at hfound
        · next hotherName =>
            have hsame : other = c :=
              List.inj_on_of_nodup_map h.classes hother hc (hotherName.trans hname.symm)
            rw [hsame, hfind] at hfound
            rw [← hfound, ← hrole]
            rfl
        · cases hfound

/-- The class of an instance is that of its group. -/
theorem Sound.classOf?_eq_some_iff {name nodeClass : String} :
    d.classOf? name = some nodeClass ↔ ∃ e ∈ d.deployed, e.2.name = name ∧ e.1 = nodeClass := by
  have hnames : (d.deployed.map (·.2.name)).Nodup := (List.nodup_append.1 h.endpoints).1
  unfold classOf?
  simp only [Option.map_eq_some_iff, find?_reverse_eq_some_iff hnames, and_assoc]

/-- Each end of a link class that is against its direction is told once. -/
theorem Sound.countP_misdirectedLinks (k : Suspicion.Kind) :
    d.misdirectedLinks.countP (·.kind = k) =
      d.linkClasses.countP (fun l => .linkFromServer = k ∧ d.HasRole l.source .server) +
        d.linkClasses.countP fun l => .linkToClient = k ∧ d.HasRole l.target .client := by
  have hown : d.linkClasses.flatMap (fun l => [l]) = d.linkClasses := List.flatMap_singleton' _
  unfold misdirectedLinks
  conv => rhs; rw [← hown]
  refine countP_flatMap_add fun l _ => ?_
  simp only [h.roleOf?_eq_some_iff]
  rw [List.countP_append, Suspicion.countP_told rfl, Suspicion.countP_told rfl,
    List.countP_singleton, List.countP_singleton]
  rfl

/-- A connection is not permitted if both ends have a class and no link class leads from the one
to the other. -/
theorem Sound.unpermitted_iff {c : Connection} : d.Unpermitted c ↔
    ∃ source target, d.classOf? c.source = some source ∧ d.classOf? c.target = some target ∧
      d.permits source target = false := by
  have hpermits : ∀ source target, d.permits source target = false ↔
      ∀ l ∈ d.linkClasses, ¬ (l.source.nodeClass = source ∧ l.target.nodeClass = target) := by
    intro source target
    simp [permits]
  simp only [h.classOf?_eq_some_iff, hpermits]
  constructor
  · rintro ⟨s, hs, hsource, t, ht, htarget, hnone⟩
    exact ⟨s.1, t.1, ⟨s, hs, hsource, rfl⟩, ⟨t, ht, htarget, rfl⟩, hnone⟩
  · rintro ⟨_, _, ⟨s, hs, hsource, rfl⟩, ⟨t, ht, htarget, rfl⟩, hnone⟩
    exact ⟨s, hs, hsource, t, ht, htarget, hnone⟩

/-- Each connection that no link class permits is told once, if there are any link classes. -/
theorem Sound.countP_unpermittedConnections (k : Suspicion.Kind) :
    d.unpermittedConnections.countP (·.kind = k) = if d.linkClasses = [] then 0
      else d.connections.countP fun c => .unpermitted = k ∧ d.Unpermitted c := by
  unfold unpermittedConnections
  simp only [List.isEmpty_iff]
  split_ifs with hempty
  · rfl
  rw [List.countP_filterMap]
  refine List.countP_congr fun c _ => ?_
  rw [decide_eq_true_eq, h.unpermitted_iff]
  cases hsource : d.classOf? c.source with
  | none => simp
  | some source =>
      cases htarget : d.classOf? c.target with
      | none => simp
      | some target =>
          cases hpermits : d.permits source target with
          | true => simp [hpermits]
          | false =>
              simp only [Bool.false_eq_true, if_false, Option.map_some, Option.getD_some,
                decide_eq_true_eq, Option.some.injEq, exists_and_left, exists_eq_left', hpermits,
                and_true]
              exact Iff.rfl

end Lookups

/-- Suspicions of ports are counted by reversed ranges and by numbers that are too large. -/
theorem countP_doubtfulPorts (k : Suspicion.Kind) :
    d.doubtfulPorts.countP (·.kind = k) =
      d.ports.countP (fun ports => .reversedRange = k ∧ ports.Reversed) +
        d.portNumbers.countP fun n => .portOutOfRange = k ∧ 65535 < n := by
  unfold doubtfulPorts ports portNumbers
  refine countP_flatMap_add fun c _ => countP_flatMap_add fun connector _ => ?_
  rw [List.map_eq_flatMap]
  exact countP_flatMap_add fun spec _ => spec.ports.countP_suspicions _ k

/-- Each address that is no four octets is told once. -/
theorem countP_suspectAddresses {doubtful : List Suspicion}
    (hplain : ∀ a ∈ d.addresses, IsAddress a.1) (h : suspectAddresses d.addresses = .ok doubtful)
    (k : Suspicion.Kind) : doubtful.countP (·.kind = k) =
      d.instanceAddresses.countP (fun a => .instanceAddress = k ∧ ¬ IsQuad a) +
        d.translationAddresses.countP fun a => .translationAddress = k ∧ ¬ IsQuad a := by
  have htold : ∀ (kind : Suspicion.Kind) (items : List (String × Suspicion)),
      (∀ item ∈ items, item.2.kind = kind) →
      ((items.filter (¬ IsQuad ·.1)).map (·.2)).countP (·.kind = k) =
        (items.map (·.1)).countP fun a => kind = k ∧ ¬ IsQuad a := by
    intro kind items hkind
    rw [List.countP_map, List.countP_filter, List.countP_map]
    refine List.countP_congr fun item hitem => ?_
    simp [hkind item hitem]
  have hinstances : (d.deployed.filterMap fun e => e.2.address.map fun a =>
      (a, Suspicion.instanceAddress e.2.name a)).map (·.1) = d.instanceAddresses := by
    rw [List.map_filterMap]
    refine List.filterMap_congr fun e _ => ?_
    exact (Option.map_map ..).trans (Option.map_id' ..)
  rw [suspectAddresses_eq hplain h]
  unfold addresses
  rw [List.filter_append, List.map_append, List.countP_append, htold .instanceAddress,
    htold .translationAddress, hinstances, List.map_flatMap]
  · rfl
  · intro item hitem
    obtain ⟨t, -, ht⟩ := List.mem_flatMap.1 hitem
    rcases List.mem_pair.1 ht with rfl | rfl <;> rfl
  · intro item hitem
    obtain ⟨e, -, he⟩ := List.mem_filterMap.1 hitem
    obtain ⟨a, -, rfl⟩ := Option.map_eq_some_iff.1 he
    rfl

/-- Where nothing is wrong and addresses are plain numbers, a check tells each cause once. -/
theorem Sound.countP_suspicions (h : d.Sound) (hplain : ∀ a ∈ d.addresses, IsAddress a.1)
    {r : Report} (hr : d.check = .ok r) (k : Suspicion.Kind) :
    r.suspicions.countP (·.kind = k) = d.causes k := by
  obtain ⟨doubtful, hdoubtful, rfl⟩ := exists_of_check hr
  simp only [List.countP_append]
  rw [h.countP_misdirectedLinks, countP_doubtfulPorts, countP_suspectAddresses hplain hdoubtful,
    h.countP_unpermittedConnections]
  -- a kind belongs to one part of the check, so the other parts count nothing
  cases k <;> simp [causes]

/-- What is told of a connection that is not permitted is told of one that is restricted: there
are link classes, and neither end is a translation. -/
theorem Sound.restricted_of_unpermitted (h : d.Sound) (hplain : ∀ a ∈ d.addresses, IsAddress a.1)
    {r : Report} (hr : d.check = .ok r) {source target a b : String}
    (hx : .unpermitted source target a b ∈ r.suspicions) :
    d.linkClasses ≠ [] ∧ ∀ t ∈ d.translations, t.name ≠ source ∧ t.name ≠ target := by
  have hother : ∀ {xs : List Suspicion}, xs.countP (·.kind = .unpermitted) = 0 →
      .unpermitted source target a b ∉ xs := fun hzero hmem =>
    List.countP_eq_zero.1 hzero _ hmem (decide_eq_true rfl)
  have htold : .unpermitted source target a b ∈ d.unpermittedConnections := by
    obtain ⟨doubtful, hdoubtful, rfl⟩ := exists_of_check hr
    simp only [List.mem_append] at hx
    rcases hx with ((hx | hx) | hx) | hx
    · exact absurd hx (hother (by simp [h.countP_misdirectedLinks]))
    · exact absurd hx (hother (by simp [countP_doubtfulPorts]))
    · exact absurd hx (hother (by simp [countP_suspectAddresses hplain hdoubtful]))
    · exact hx
  unfold unpermittedConnections at htold
  split at htold
  · cases htold
  next hlinks =>
  obtain ⟨c, -, hc⟩ := List.mem_filterMap.1 htold
  split at hc
  · next hsource htarget =>
    split at hc
    · cases hc
    · cases hc
      have hinstance : ∀ {name nodeClass}, d.classOf? name = some nodeClass →
          ∀ t ∈ d.translations, t.name ≠ name := by
        intro name nodeClass hclass t ht hname
        obtain ⟨e, he, hsame, -⟩ := h.classOf?_eq_some_iff.1 hclass
        exact (List.nodup_append.1 h.endpoints).2.2 _ (List.mem_map_of_mem he) _
          (List.mem_map_of_mem ht) (hsame.trans hname.symm)
      exact ⟨fun hempty => hlinks (List.isEmpty_iff.2 hempty),
        fun t ht => ⟨hinstance hsource t ht, hinstance htarget t ht⟩⟩
  · cases hc

end Document

end SystemMap
