/-
Names that a list holds more than once. A list of names serves as the names of a graph and as
a namespace of a document; the first keeps each name at its first place, the second must not
hold any name twice.
-/
import Mathlib.Data.Finset.Card
import Mathlib.Data.List.Dedup
import Mathlib.Data.List.Perm.Subperm

namespace SystemMap

/-- Induction along the recursion of erasing duplicates, which drops every copy of the head
before it goes on. -/
theorem induction_without_copies {α : Type} [BEq α] {motive : List α → Prop} (nil : motive [])
    (cons : ∀ a later, motive (later.filter fun b => !b == a) → motive (a :: later))
    (l : List α) : motive l := by
  induction hn : l.length using Nat.strongRecOn generalizing l with
  | ind n ih =>
      cases l with
      | nil => exact nil
      | cons a later =>
          have hshorter : (later.filter fun b => !b == a).length < n := by
            have := List.length_filter_le (fun b => !b == a) later
            rw [← hn, List.length_cons]
            omega
          exact cons a later (ih _ hshorter _ rfl)

/-- Erasing duplicates leaves none. -/
theorem nodup_eraseDups {α : Type} [BEq α] [LawfulBEq α] (l : List α) : l.eraseDups.Nodup := by
  induction l using induction_without_copies with
  | nil => simp
  | cons a later ih =>
      rw [List.eraseDups_cons]
      refine List.nodup_cons.2 ⟨?_, ih⟩
      rw [List.mem_eraseDups]
      simp

/-- Erasing duplicates and leaving elements out come to the same in either order. -/
theorem eraseDups_filter {α : Type} [BEq α] [LawfulBEq α] (p : α → Bool) (l : List α) :
    (l.filter p).eraseDups = l.eraseDups.filter p := by
  induction l using induction_without_copies with
  | nil => rfl
  | cons a later ih =>
      have hswap : (later.filter fun b => !b == a).filter p
          = (later.filter p).filter fun b => !b == a := by
        rw [List.filter_filter, List.filter_filter]
        exact List.filter_congr fun b _ => Bool.and_comm ..
      rw [List.eraseDups_cons]
      by_cases ha : p a = true
      · rw [List.filter_cons_of_pos ha, List.filter_cons_of_pos ha, List.eraseDups_cons, ← ih,
          hswap]
      · rw [List.filter_cons_of_neg ha, List.filter_cons_of_neg ha, ← ih, hswap]
        refine congrArg _ (List.filter_eq_self.2 fun b hb => ?_).symm
        have hne : b ≠ a := fun h => ha (h ▸ (List.mem_filter.1 hb).2)
        simpa using hne

/-- Leaving elements out keeps the order of first places. -/
theorem idxOf_filter_lt_iff {α : Type} [BEq α] [LawfulBEq α] {p : α → Bool} {a b : α}
    (ha : p a = true) (hb : p b = true) (l : List α) :
    (l.filter p).idxOf a < (l.filter p).idxOf b ↔ l.idxOf a < l.idxOf b := by
  induction l with
  | nil => rfl
  | cons c l ih => grind

/-- Without duplicates, elements stand in the order of their first places. -/
theorem pairwise_idxOf_eraseDups {α : Type} [BEq α] [LawfulBEq α] (l : List α) :
    l.eraseDups.Pairwise fun a b => l.idxOf a < l.idxOf b := by
  induction l using induction_without_copies with
  | nil => exact .nil
  | cons a later ih =>
      rw [List.eraseDups_cons]
      refine List.pairwise_cons.2 ⟨fun b hb => ?_, ih.imp_of_mem fun {b c} hb hc hbc => ?_⟩
      · have hne := (List.mem_filter.1 (List.mem_eraseDups.1 hb)).2
        grind
      · have hb := (List.mem_filter.1 (List.mem_eraseDups.1 hb)).2
        have hc := (List.mem_filter.1 (List.mem_eraseDups.1 hc)).2
        have hlater := (idxOf_filter_lt_iff (p := fun b => !b == a) hb hc later).1 hbc
        grind

/-- An element is the only one of its name in a list where names are unique. -/
theorem filter_eq_singleton {α β : Type} [DecidableEq β] {name : α → β} {l : List α}
    (hnames : (l.map name).Nodup) {a : α} (ha : a ∈ l) : l.filter (name · = name a) = [a] := by
  apply List.perm_singleton.1
  apply (List.perm_ext_iff_of_nodup (hnames.of_map.filter _) (List.nodup_singleton a)).2
  intro b
  rw [List.mem_filter, List.mem_singleton, decide_eq_true_eq]
  constructor
  · rintro ⟨hb, hname⟩
    exact List.inj_on_of_nodup_map hnames hb ha hname
  · rintro rfl
    exact ⟨ha, rfl⟩

/-- Where names are unique, a name is looked up in whatever order. -/
theorem find?_eq_some_iff {α β : Type} [DecidableEq β] {name : α → β} {l : List α}
    (hnames : (l.map name).Nodup) {k : β} {a : α} :
    l.find? (name · = k) = some a ↔ a ∈ l ∧ name a = k := by
  constructor
  · exact fun h => ⟨List.mem_of_find?_eq_some h, by simpa using List.find?_some h⟩
  · rintro ⟨ha, rfl⟩
    rw [← List.head?_filter, filter_eq_singleton hnames ha]
    rfl

theorem find?_reverse_eq_some_iff {α β : Type} [DecidableEq β] {name : α → β} {l : List α}
    (hnames : (l.map name).Nodup) {k : β} {a : α} :
    l.reverse.find? (name · = k) = some a ↔ a ∈ l ∧ name a = k := by
  have hreverse : (l.reverse.map name).Nodup := by
    rw [List.map_reverse]
    exact List.nodup_reverse.2 hnames
  rw [find?_eq_some_iff hreverse, List.mem_reverse]

theorem length_eraseDups_le (names : List String) : names.eraseDups.length ≤ names.length :=
  (List.subperm_of_subset (nodup_eraseDups names) fun _ h => List.mem_eraseDups.1 h).length_le

/-- The names that a list holds more than once. -/
def repeated (names : List String) : Finset String :=
  names.toFinset.filter (1 < names.count ·)

/-- A list repeats no name exactly if each of its names stands once. -/
theorem card_repeated_eq_zero_iff {names : List String} :
    (repeated names).card = 0 ↔ names.Nodup := by
  rw [Finset.card_eq_zero, repeated, Finset.filter_eq_empty_iff, List.nodup_iff_count_le_one]
  constructor
  · intro h a
    by_cases ha : a ∈ names
    · exact Nat.le_of_not_lt (h (List.mem_toFinset.2 ha))
    · rw [List.count_eq_zero_of_not_mem ha]
      exact Nat.zero_le 1
  · intro h a _
    exact Nat.not_lt.2 (h a)

end SystemMap
