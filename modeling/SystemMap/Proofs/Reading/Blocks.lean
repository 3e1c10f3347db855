/-
Texts that are written one below the other. A section marker ends whatever comes before it and
sets the section for what comes after it. So a text that starts with a marker is read below
another text as it is read by itself, only further down: its declarations come after those of the
first text, list by list, and its fault is the fault of the whole (`result_below`).

A block is a text that can be read by itself and starts with a marker. Blocks that have no list
of the document in common may change places: the same is declared, in the same order in every
list, at other places.
-/
import SystemMap.Proofs.Document.Moved
import SystemMap.Proofs.Grammar.Following
import SystemMap.Proofs.Grammar.Moved
import SystemMap.Proofs.Reading.Sources

namespace SystemMap

-- ============================================================ one text below

/-- The first token of a text is a marker, unless the text cannot be cut into tokens. -/
def StartsSection (text : String) : Prop := ∀ ts, scan text = .ok ts → Marked ts.list

/-- A text whose first token is a marker starts a section. -/
theorem startsSection_of_headKind? {text : String} {s : Section}
    (h : (scan text).toOption.bind Tokens.headKind? = some (.marker s)) : StartsSection text := by
  intro ts hscan
  rw [hscan] at h
  obtain ⟨list, finish⟩ := ts
  cases list with
  | nil => cases h
  | cons t list => exact ⟨s, Option.some.inj h⟩

/-- A fault of reading with its place moved, if it is one of a text. -/
def ReadFault.moved {ε : Type} (f : Position → Position) : ReadFault ε → ReadFault ε
  | .text fault => .text (fault.moved f)
  | .library e => .library e

section Below

variable {ε : Type} {path : Option String} {first second : String}

theorem Marked.moved {ts : Tokens} (h : Marked ts.list) (f : Position → Position) :
    Marked (ts.moved f).list := by
  obtain ⟨list, finish⟩ := ts
  obtain ⟨s, hs⟩ := h
  cases list with
  | nil => exact hs.elim
  | cons t list => exact ⟨s, hs⟩

/-- The outline of tokens after those of a text without a fault. -/
theorem ofTokens_preceded {ts : Tokens} (hts : scan first = .ok ts)
    (hfirst : (Outline.ofText first).fault = none) {us : Tokens} (hmarked : Marked us.list) :
    Outline.ofTokens (us.preceded ts.list) =
      ⟨(Outline.ofText first).segments ++ (Outline.ofTokens us).segments,
        (Outline.ofTokens us).fault⟩ := by
  rw [Outline.ofText_scanned hts] at hfirst ⊢
  obtain ⟨parts, hsplit⟩ := exists_split hfirst
  rw [hsplit.outline ts.finish]
  exact hsplit.outline_append hmarked

/-- What comes of a text that starts with a marker comes of it below another text, further down
and after what the other one declares. -/
theorem result_below {d : Document}
    (hfirst : (read (none : Option (Library ε)) path first).result = .ok d)
    (hsecond : StartsSection second) :
    (read (none : Option (Library ε)) path (first ++ "\n" ++ second)).result =
      match (read (none : Option (Library ε)) path second).result with
      | .ok e => .ok (d ++ e.moved (.down (linesOf first)))
      | .error fault => .error (fault.moved (.down (linesOf first))) := by
  obtain ⟨hfault, rfl⟩ := result_alone_ok_iff.1 hfirst
  obtain ⟨ts, hts⟩ := Outline.exists_scan hfault
  have hbelow := scan_below hts second
  rw [result_read_alone, result_read_alone]
  unfold declaredBy
  cases hus : scan second with
  | error e =>
      rw [hus] at hbelow
      rw [Outline.ofText_uncut hbelow, Outline.ofText_uncut hus]
      rfl
  | ok us =>
      rw [hus] at hbelow
      have hmarked := (hsecond us hus).moved (.down (linesOf first))
      have houtline := ofTokens_preceded hts hfault hmarked
      unfold Outline.ofTokens at houtline
      rw [Outline.ofText_scanned hbelow, houtline, Outline.ofTokensFrom_moved,
        Outline.ofText_scanned hus]
      unfold Outline.moved
      cases (Outline.ofTokensFrom none us).fault with
      | some fault => rfl
      | none =>
          show Except.ok (Document.ofSegments (_ ++ _)) = Except.ok _
          rw [ofSegments_append, ofSegments_moved]

end Below

-- =================================================================== blocks

/-- A text that can be read by itself and that starts with a marker. -/
structure Block (ε : Type) where
  text : String
  document : Document
  reads : ∀ path, (read (none : Option (Library ε)) path text).result = .ok document
  marked : StartsSection text

/-- A text without a fault as a block. -/
def Block.ofText {ε : Type} (text : String) (hfault : (Outline.ofText text).fault = none)
    (hmarked : StartsSection text) : Block ε :=
  ⟨text, declaredBy text, fun _ => result_alone_ok_iff.2 ⟨hfault, rfl⟩, hmarked⟩

/-- A text with blocks below it, each on lines of its own. -/
def withBlocks {ε : Type} (first : String) (blocks : List (Block ε)) : String :=
  blocks.foldl (fun text b => text ++ "\n" ++ b.text) first

/-- The first block goes below the text, and the later ones below both. -/
theorem withBlocks_cons {ε : Type} (first : String) (b : Block ε) (blocks : List (Block ε)) :
    withBlocks first (b :: blocks) = withBlocks (first ++ "\n" ++ b.text) blocks := rfl

/-- Two documents that do not both fill one of their lists. -/
structure Document.Apart (a b : Document) : Prop where
  includes : a.includes = [] ∨ b.includes = []
  nodeClasses : a.nodeClasses = [] ∨ b.nodeClasses = []
  linkClasses : a.linkClasses = [] ∨ b.linkClasses = []
  instances : a.instances = [] ∨ b.instances = []
  translations : a.translations = [] ∨ b.translations = []
  connections : a.connections = [] ∨ b.connections = []

/-- Blocks in another order. Only blocks that do not both fill one list change places. -/
inductive Reordered {ε : Type} : List (Block ε) → List (Block ε) → Prop
  | nil : Reordered [] []
  | cons (b : Block ε) {bs cs} (h : Reordered bs cs) : Reordered (b :: bs) (b :: cs)
  | swap {b c : Block ε} (h : b.document.Apart c.document) (bs : List (Block ε)) :
      Reordered (b :: c :: bs) (c :: b :: bs)
  | trans {as bs cs : List (Block ε)} (h : Reordered as bs) (h' : Reordered bs cs) :
      Reordered as cs

section Blocks

variable {ε : Type} {path : Option String}

theorem Document.append_assoc (a b c : Document) : a ++ b ++ c = a ++ (b ++ c) := by
  show Document.append (Document.append a b) c = Document.append a (Document.append b c)
  simp only [Document.append, List.append_assoc]

/-- Lists are the same in either order if one of them is empty. -/
private theorem append_comm_of_nil {α : Type} {a b : List α} (h : a = [] ∨ b = []) :
    a ++ b = b ++ a := by
  rcases h with rfl | rfl
  · rw [List.nil_append, List.append_nil]
  · rw [List.nil_append, List.append_nil]

/-- Documents that declare different kinds of things may be put together in either order. -/
theorem Document.Apart.append_comm {a b : Document} (h : a.Apart b) : a ++ b = b ++ a := by
  show Document.append a b = Document.append b a
  unfold Document.append
  rw [append_comm_of_nil h.includes, append_comm_of_nil h.nodeClasses,
    append_comm_of_nil h.linkClasses, append_comm_of_nil h.instances,
    append_comm_of_nil h.translations, append_comm_of_nil h.connections]

/-- What a text with blocks below it declares, up to places, is what the text declares and then
what the blocks declare, one after the other. -/
theorem result_withBlocks {first : String} {d : Document}
    (hfirst : (read (none : Option (Library ε)) path first).result = .ok d)
    (blocks : List (Block ε)) :
    ∃ e, (read (none : Option (Library ε)) path (withBlocks first blocks)).result = .ok e ∧
      e.unplaced = blocks.foldl (fun d b => d ++ b.document.unplaced) d.unplaced := by
  induction blocks generalizing first d with
  | nil => exact ⟨d, hfirst, rfl⟩
  | cons b blocks ih =>
      have hbelow := result_below hfirst b.marked
      rw [b.reads path] at hbelow
      obtain ⟨e, he, heq⟩ := ih hbelow
      rw [withBlocks_cons]
      refine ⟨e, he, ?_⟩
      rw [heq, Document.unplaced_append, Document.unplaced_moved]
      rfl

/-- Blocks in another order declare the same, by induction on the changes of places. -/
theorem Reordered.foldl_eq {bs cs : List (Block ε)} (h : Reordered bs cs) (d : Document) :
    bs.foldl (fun d b => d ++ b.document.unplaced) d =
      cs.foldl (fun d b => d ++ b.document.unplaced) d := by
  induction h generalizing d with
  | nil => rfl
  | cons b h ih => exact ih _
  | @swap b c h bs =>
      have hswap : b.document.unplaced ++ c.document.unplaced =
          c.document.unplaced ++ b.document.unplaced := by
        rw [← Document.unplaced_append, h.append_comm, Document.unplaced_append]
      show bs.foldl _ (d ++ _ ++ _) = bs.foldl _ (d ++ _ ++ _)
      rw [Document.append_assoc, hswap, Document.append_assoc]
  | trans h h' ih ih' => exact (ih d).trans (ih' d)

/-- Texts read one below the other. Below a text that can be read by itself, one that starts with
a marker can be read just if it can be read by itself. It then adds to each list what it adds by
itself, further down by the lines above it; and if it cannot, the fault is the one it has by
itself, further down. Below such a text, blocks that do not fill the same list can change places,
and nothing changes but places. -/
theorem texts_read_below {first : String} {d : Document}
    (hfirst : (read (none : Option (Library ε)) path first).result = .ok d) :
    (∀ second, StartsSection second →
      let alone := (read (none : Option (Library ε)) path second).result
      let below := (read (none : Option (Library ε)) path (first ++ "\n" ++ second)).result
      ((∃ e, below = .ok e) ↔ ∃ e, alone = .ok e) ∧
      (∀ e, alone = .ok e → below = .ok (d ++ e.moved (.down (linesOf first)))) ∧
      ∀ fault, alone = .error fault → below = .error (fault.moved (.down (linesOf first)))) ∧
    ∀ blocks blocks' : List (Block ε), Reordered blocks blocks' →
      ∃ e e', (read (none : Option (Library ε)) path (withBlocks first blocks)).result = .ok e ∧
        (read (none : Option (Library ε)) path (withBlocks first blocks')).result = .ok e' ∧
        e.unplaced = e'.unplaced := by
  constructor
  · intro second hsecond
    have hbelow := result_below hfirst hsecond
    dsimp only
    rw [hbelow]
    cases (read (none : Option (Library ε)) path second).result with
    | ok e =>
        refine ⟨iff_of_true ⟨_, rfl⟩ ⟨e, rfl⟩, fun e' h => ?_, fun fault h => ?_⟩
        · cases h
          rfl
        · cases h
    | error fault =>
        refine ⟨⟨fun hok => ?_, fun hok => ?_⟩, fun e h => ?_, fun fault' h => ?_⟩
        · obtain ⟨e, he⟩ := hok
          cases he
        · obtain ⟨e, he⟩ := hok
          cases he
        · cases h
        · cases h
          rfl
  · intro blocks blocks' h
    obtain ⟨e, he, heq⟩ := result_withBlocks hfirst blocks
    obtain ⟨e', he', heq'⟩ := result_withBlocks hfirst blocks'
    exact ⟨e, e', he, he', heq.trans ((h.foldl_eq _).trans heq'.symm)⟩

end Blocks

/-- A class with one connector, the last line of which ends in a remark. -/
def remarked : String := "#nodeclass A::\n  p # without ports"

/-- An instance of the class, and a line that breaks off before there is one. -/
def deployed : String := "#instances A x"
def brokenOff : String := "#instances A"

/-- A connection of the instance with itself. -/
def connected : String := "#connections x -> x"

/-- Instances below a text that ends in a remark. -/
theorem deployed_below_remarked :
    (read (none : Option (Library Empty)) none (remarked ++ "\n" ++ deployed)).result =
      .ok { includes := []
            nodeClasses := [⟨"A", [⟨"p", .server, [], some ⟨2, 3⟩⟩], some ⟨1, 12⟩⟩]
            linkClasses := []
            instances := [⟨"A", [⟨"x", none, some ⟨3, 14⟩⟩], some ⟨3, 12⟩⟩]
            translations := []
            connections := [] } ∧
    (read (none : Option (Library Empty)) none (remarked ++ "\n" ++ brokenOff)).result =
      .error (.text (.mismatch ⟨.instanceName, none, ⟨3, 13⟩⟩)) ∧
    ∃ e e', (read (none : Option (Library Empty)) none
        (remarked ++ "\n" ++ deployed ++ "\n" ++ connected)).result = .ok e ∧
      (read (none : Option (Library Empty)) none
        (remarked ++ "\n" ++ connected ++ "\n" ++ deployed)).result = .ok e' ∧
      e.unplaced = e'.unplaced := by
  have hremarked : (read (none : Option (Library Empty)) none remarked).result
      = .ok (declaredBy remarked) := result_alone_ok_iff.2 ⟨by decide +kernel, rfl⟩
  have hdeployed : StartsSection deployed :=
    startsSection_of_headKind? (s := .instances) (by decide +kernel)
  have hbroken : StartsSection brokenOff :=
    startsSection_of_headKind? (s := .instances) (by decide +kernel)
  have hconnected : StartsSection connected :=
    startsSection_of_headKind? (s := .connections) (by decide +kernel)
  obtain ⟨hbelow, hreorder⟩ := texts_read_below hremarked
  refine ⟨?_, ?_, ?_⟩
  · have hread : (read (none : Option (Library Empty)) none deployed).result
        = .ok (declaredBy deployed) := result_alone_ok_iff.2 ⟨by decide +kernel, rfl⟩
    exact ((hbelow deployed hdeployed).2.1 _ hread).trans
      (congrArg Except.ok (by decide +kernel))
  · have hread : (read (none : Option (Library Empty)) none brokenOff).result
        = .error (.text (.mismatch ⟨.instanceName, none, ⟨1, 13⟩⟩)) := by
      rw [result_read_alone]
      have hfault : (Outline.ofText brokenOff).fault
          = some (.mismatch ⟨.instanceName, none, ⟨1, 13⟩⟩) := by decide +kernel
      rw [hfault]
      rfl
    exact ((hbelow brokenOff hbroken).2.2 _ hread).trans (congrArg Except.error (by decide +kernel))
  · let b : Block Empty := .ofText deployed (by decide +kernel) hdeployed
    let c : Block Empty := .ofText connected (by decide +kernel) hconnected
    have hapart : (declaredBy deployed).Apart (declaredBy connected) := by
      constructor <;> decide +kernel
    have hlines : ∀ b c : Block Empty,
        withBlocks remarked [b, c] = remarked ++ "\n" ++ b.text ++ "\n" ++ c.text := fun _ _ => rfl
    have hswap := hreorder [b, c] [c, b] (.swap hapart [])
    rw [hlines, hlines] at hswap
    exact hswap

end SystemMap
