/-
Descriptions whose places are moved, by any map of places: those of a description that stands
further down in a text are moved by so many lines. Moving changes nothing else, so without
places a document is what it was (`Document.unplaced_moved`), and it goes through lists and
segments one by one.
-/
import SystemMap.Proofs.Printing.Print
import SystemMap.Proofs.Reading.Alone

namespace SystemMap

-- ============================================================ declarations

section Moved

variable (f : Position → Position)

def Connector.moved (c : Connector) : Connector := { c with position := c.position.map f }

def NodeClass.moved (c : NodeClass) : NodeClass :=
  { c with connectors := c.connectors.map (.moved f), position := c.position.map f }

def LinkClass.moved (l : LinkClass) : LinkClass := { l with position := l.position.map f }

def InstanceEntry.moved (e : InstanceEntry) : InstanceEntry :=
  { e with position := e.position.map f }

def InstanceGroup.moved (g : InstanceGroup) : InstanceGroup :=
  { g with entries := g.entries.map (.moved f), position := g.position.map f }

def Translation.moved (t : Translation) : Translation := { t with position := t.position.map f }

def Connection.moved (c : Connection) : Connection := { c with position := c.position.map f }

def Include.moved (i : Include) : Include := { i with position := i.position.map f }

/-- A declaration with its places moved. -/
def Declaration.moved : Declaration → Declaration
  | .nodeClass c => .nodeClass (c.moved f)
  | .linkClass l => .linkClass (l.moved f)
  | .instances g => .instances (g.moved f)
  | .translation t => .translation (t.moved f)
  | .connection c => .connection (c.moved f)
  | .directive i => .directive (i.moved f)

/-- A segment with its places moved. -/
def Segment.moved : Segment → Segment
  | .marker s => .marker s
  | .declared d => .declared (d.moved f)
  | .passed current kind p => .passed current kind (f p)

/-- A document with its places moved. -/
def Document.moved (d : Document) : Document where
  includes := d.includes.map (.moved f)
  nodeClasses := d.nodeClasses.map (.moved f)
  linkClasses := d.linkClasses.map (.moved f)
  instances := d.instances.map (.moved f)
  translations := d.translations.map (.moved f)
  connections := d.connections.map (.moved f)

-- ========================================================== without places

/-- Without places, nothing tells that a class was moved. -/
theorem NodeClass.unplaced_moved (c : NodeClass) : (c.moved f).unplaced = c.unplaced := by
  unfold moved unplaced
  rw [List.map_map]
  rfl

theorem InstanceGroup.unplaced_moved (g : InstanceGroup) : (g.moved f).unplaced = g.unplaced := by
  unfold moved unplaced
  rw [List.map_map]
  rfl

/-- Without places a document is the same, wherever it was moved to. -/
theorem Document.unplaced_moved (d : Document) : (d.moved f).unplaced = d.unplaced := by
  have hnode : NodeClass.unplaced ∘ NodeClass.moved f = NodeClass.unplaced :=
    funext fun c => c.unplaced_moved f
  have hgroup : InstanceGroup.unplaced ∘ InstanceGroup.moved f = InstanceGroup.unplaced :=
    funext fun g => g.unplaced_moved f
  unfold moved unplaced
  dsimp only
  simp only [List.map_map]
  rw [hnode, hgroup]
  rfl

end Moved

-- =============================================================== documents

/-- Documents one after the other, without places. -/
theorem Document.unplaced_append (a b : Document) :
    (a ++ b).unplaced = a.unplaced ++ b.unplaced := by
  show (append a b).unplaced = append a.unplaced b.unplaced
  simp only [append, unplaced, List.map_append]

/-- What segments declare is what the first of them declare and then what the others do. -/
theorem ofSegments_append (a b : List Segment) :
    Document.ofSegments (a ++ b) = Document.ofSegments a ++ Document.ofSegments b := by
  show _ = Document.append _ _
  simp only [Document.ofSegments, Document.append, List.filterMap_append]

/-- Moved segments make the moved document. -/
theorem ofSegments_moved (f : Position → Position) (segments : List Segment) :
    Document.ofSegments (segments.map (.moved f)) = (Document.ofSegments segments).moved f := by
  induction segments with
  | nil => rfl
  | cons s later ih =>
      have happend : ∀ a b : Document, (a ++ b).moved f = a.moved f ++ b.moved f := by
        intro a b
        show (Document.append a b).moved f = Document.append (a.moved f) (b.moved f)
        simp only [Document.append, Document.moved, List.map_append]
      cases s with
      | marker s => exact ih
      | passed current kind p => exact ih
      | declared d =>
          have hone : (Document.ofDeclaration d).moved f = .ofDeclaration (d.moved f) := by
            cases d <;> rfl
          show Document.ofSegments (.declared (d.moved f) :: later.map (.moved f)) = _
          rw [ofSegments_declared, ofSegments_declared, ih, happend, hone]

end SystemMap
