/-
The structure of a settings file: scalars, lists and mappings, put together from tokens. A
file holds one document or none. A block ends with its token; a list that is the value of a
key may be indented no more than the key, and then ends with the last of its items. Where a
value is left out, it is null.

Nesting is bounded by the number of tokens, which the readers count down.
-/
import SystemMap.Yaml.Token.Scan

namespace SystemMap.Yaml

/-- What a document consists of. -/
inductive Node where
  | plain (s : String)
  | quoted (s : Text.Points)
  | list (items : List Node)
  | mapping (fields : List (Node × Node))

namespace Node

/-- A value that is left out. -/
def absent : Node := .plain ""

/-- Why nothing that is wanted is next: the text is not well-formed, unless its tokens break
off. -/
def refusal : List Token → Fault
  | .broken fault :: _ => fault
  | _ => .malformed

/-- Whether the next token is one of some. -/
def isNext (ts : List Token) (among : List Token) : Bool := ts.head?.any among.contains

mutual

/-- A node. Inside brackets there are no blocks. -/
def read (inFlow besideKey : Bool) : Nat → List Token → Except Fault (Node × List Token)
  | 0, _ => .error .malformed
  | n + 1, ts => match ts with
    | .plain s :: rest => .ok (.plain s, rest)
    | .quoted s :: rest => .ok (.quoted s, rest)
    | .openList :: rest => (readFlowList true n rest).map fun (is, rest) => (.list is, rest)
    | .openMapping :: rest =>
      (readFlowMapping true n rest).map fun (fs, rest) => (.mapping fs, rest)
    | .blockList :: rest =>
      if inFlow then .error .malformed
      else (readBlockList n rest).map fun (is, rest) => (.list is, rest)
    | .blockMapping :: rest =>
      if inFlow then .error .malformed
      else (readBlockMapping n rest).map fun (fs, rest) => (.mapping fs, rest)
    | .item :: _ =>
      if besideKey then (readLooseList n ts).map fun (is, rest) => (.list is, rest)
      else .error .malformed
    | rest => .error (refusal rest)

/-- A node, unless one of some tokens tells that it is left out. -/
def readUnless (stops : List Token) (inFlow besideKey : Bool) :
    Nat → List Token → Except Fault (Node × List Token)
  | 0, _ => .error .malformed
  | n + 1, ts =>
    if isNext ts stops then .ok (absent, ts) else read inFlow besideKey n ts

/-- The items of a list in a block of its own. -/
def readBlockList : Nat → List Token → Except Fault (List Node × List Token)
  | 0, _ => .error .malformed
  | n + 1, ts => match ts with
    | .item :: rest => do
      let (item, rest) ← readUnless [.item, .blockEnd] false false n rest
      let (items, rest) ← readBlockList n rest
      return (item :: items, rest)
    | .blockEnd :: rest => .ok ([], rest)
    | rest => .error (refusal rest)

/-- The items of a list that is indented no more than its key. -/
def readLooseList : Nat → List Token → Except Fault (List Node × List Token)
  | 0, _ => .error .malformed
  | n + 1, ts => match ts with
    | .item :: rest => do
      let (item, rest) ← readUnless [.item, .key, .value, .blockEnd] false false n rest
      let (items, rest) ← readLooseList n rest
      return (item :: items, rest)
    | rest => .ok ([], rest)

/-- The fields of a block mapping. -/
def readBlockMapping : Nat → List Token → Except Fault (List (Node × Node) × List Token)
  | 0, _ => .error .malformed
  | n + 1, ts => match ts with
    | .key :: rest => do
      let stops := [.key, .value, .blockEnd]
      let (key, rest) ← readUnless stops false true n rest
      let (value, rest) ← match rest with
        | .value :: rest => readUnless stops false true n rest
        | rest => pure (absent, rest)
      let (fields, rest) ← readBlockMapping n rest
      return ((key, value) :: fields, rest)
    | .blockEnd :: rest => .ok ([], rest)
    | rest => .error (refusal rest)

/-- The items of a list in brackets; a field among them is a mapping of its own. -/
def readFlowList (first : Bool) : Nat → List Token → Except Fault (List Node × List Token)
  | 0, _ => .error .malformed
  | n + 1, ts => match ts with
    | .closeList :: rest => .ok ([], rest)
    | _ => do
      let ts ← if first then pure ts else match ts with
        | .comma :: rest => pure rest
        | rest => throw (refusal rest)
      match ts with
      | .closeList :: rest => return ([], rest)
      | .key :: rest => do
        let (key, rest) ← readUnless [.value, .comma, .closeList] true false n rest
        let (value, rest) ← match rest with
          | .value :: rest => readUnless [.comma, .closeList] true false n rest
          | rest => pure (absent, rest)
        let (items, rest) ← readFlowList false n rest
        return (.mapping [(key, value)] :: items, rest)
      | ts => do
        let (item, rest) ← read true false n ts
        let (items, rest) ← readFlowList false n rest
        return (item :: items, rest)

/-- The fields of a mapping in brackets. -/
def readFlowMapping (first : Bool) : Nat → List Token → Except Fault (List (Node × Node) × List Token)
  | 0, _ => .error .malformed
  | n + 1, ts => match ts with
    | .closeMapping :: rest => .ok ([], rest)
    | _ => do
      let ts ← if first then pure ts else match ts with
        | .comma :: rest => pure rest
        | rest => throw (refusal rest)
      match ts with
      | .closeMapping :: rest => return ([], rest)
      | .key :: rest => do
        let (key, rest) ← readUnless [.value, .comma, .closeMapping] true false n rest
        let (value, rest) ← match rest with
          | .value :: rest => readUnless [.comma, .closeMapping] true false n rest
          | rest => pure (absent, rest)
        let (fields, rest) ← readFlowMapping false n rest
        return ((key, value) :: fields, rest)
      | ts => do
        let (key, rest) ← read true false n ts
        let (fields, rest) ← readFlowMapping false n rest
        return ((key, absent) :: fields, rest)

end

/-- The tokens after the marks that end a document. -/
def dropEnds (ts : List Token) : List Token := ts.dropWhile (· = .documentEnd)

/-- A node that has to be all of its file but the marks at the end. -/
def only (node : Node) (rest : List Token) : Except Fault Node :=
  if (dropEnds rest).isEmpty then .ok node else .error (refusal (dropEnds rest))

/-- The node of a file with one document; `none` if it has no document. -/
def ofTokens (ts : List Token) : Except Fault (Option Node) := do
  let rounds := 3 * ts.length + 3
  match ts with
  | [] => return none
  | .documentStart :: rest =>
    if rest.isEmpty then return some absent
    else
      let (node, rest) ← readUnless [.documentStart, .documentEnd] false false rounds rest
      return some (← only node rest)
  | ts =>
    let (node, rest) ← read false false rounds ts
    return some (← only node rest)

end Node

end SystemMap.Yaml
