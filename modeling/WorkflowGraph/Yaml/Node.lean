import WorkflowGraph.Yaml.Token
/-
The nodes of a YAML text, read from its tokens: scalars, sequences of nodes and mappings of nodes to nodes. A node that
is left out is an empty scalar. Every reader takes the tokens that are left and gives back those after its node; when
they run out, it was a token that could not be read. The recursion is bounded by `fuel`; between two steps down that
read no token there is always one that does, so a multiple of the number of tokens is enough.
-/
namespace WorkflowGraph

namespace Yaml

inductive Node where
  | scalar (text : String) (plain : Bool)
  /-- a node with a tag of its own, which stands for no value here -/
  | tagged
  | sequence (items : List Node)
  | mapping (fields : List (Node × Node))

namespace Node

/-- a node that is left out -/
def missing : Node := .scalar "" true

/-- the first of some tokens -/
def first : List Token → Except YamlFault Token
  | [] => .error .token
  | t :: _ => .ok t

/-- the tokens after a token that has to come first -/
def expect (t : Token) (ts : List Token) : Except YamlFault (List Token) := do
  if (← first ts) = t then return ts.drop 1 else throw .node

/-- anchors and tags before a node: whether there are any, whether there is a tag, and what follows -/
def properties : List Token → Bool × Bool × List Token
  | .anchor :: .tag :: ts => (true, true, ts)
  | .tag :: .anchor :: ts => (true, true, ts)
  | .anchor :: ts => (true, false, ts)
  | .tag :: ts => (true, true, ts)
  | ts => (false, false, ts)

/-- where a node stands: in a block, as the value of a block mapping, or in a flow collection -/
inductive Context where
  | block
  | blockValue
  | flow
  deriving DecidableEq

mutual

/-- a node -/
def read (context : Context) : Nat → List Token → Except YamlFault (Node × List Token)
  | 0, _ => .error .node
  | fuel + 1, ts =>
    let (decorated, isTagged, ts) := properties ts
    let tag (n : Node) : Node := if isTagged then .tagged else n
    match ts with
    | [] => .error .token
    | .reference :: _ => if decorated then .ok (tag .missing, ts) else .error .reference
    | .scalar text plain :: ts => .ok (tag (.scalar text plain), ts)
    | .flowSequenceStart :: ts => do
      let (items, ts) ← readFlowItems true fuel ts
      return (tag (.sequence items), ts)
    | .flowMappingStart :: ts => do
      let (fields, ts) ← readFlowFields true fuel ts
      return (tag (.mapping fields), ts)
    | .entry :: _ =>
      if context = .blockValue then do
        let (items, ts) ← readOpenItems fuel ts
        return (tag (.sequence items), ts)
      else if decorated then .ok (tag .missing, ts)
      else .error .node
    | .sequenceStart :: more =>
      if context != .flow then do
        let (items, ts) ← readItems fuel more
        return (tag (.sequence items), ts)
      else if decorated then .ok (tag .missing, ts)
      else .error .node
    | .mappingStart :: more =>
      if context != .flow then do
        let (fields, ts) ← readFields fuel more
        return (tag (.mapping fields), ts)
      else if decorated then .ok (tag .missing, ts)
      else .error .node
    | _ => if decorated then .ok (tag .missing, ts) else .error .node

/-- a node, unless one of some tokens shows that it is left out -/
def readUnless (absent : List Token) (context : Context) : Nat → List Token → Except YamlFault (Node × List Token)
  | 0, _ => .error .node
  | fuel + 1, ts => do
    if absent.contains (← first ts) then return (.missing, ts) else read context fuel ts

/-- the entries of a block sequence, and its end -/
def readItems : Nat → List Token → Except YamlFault (List Node × List Token)
  | 0, _ => .error .node
  | fuel + 1, ts => do
    match ← first ts with
    | .entry =>
      let (item, ts) ← readUnless [.entry, .blockEnd] .block fuel (ts.drop 1)
      let (items, ts) ← readItems fuel ts
      return (item :: items, ts)
    | _ => return ([], ← expect .blockEnd ts)

/-- the entries of a sequence that stands as far left as the key it belongs to; it has no end of its own -/
def readOpenItems : Nat → List Token → Except YamlFault (List Node × List Token)
  | 0, _ => .error .node
  | fuel + 1, ts => do
    match ← first ts with
    | .entry =>
      let (item, ts) ← readUnless [.entry, .key, .value, .blockEnd] .block fuel (ts.drop 1)
      let (items, ts) ← readOpenItems fuel ts
      return (item :: items, ts)
    | _ => return ([], ts)

/-- the keys and values of a block mapping, and its end -/
def readFields : Nat → List Token → Except YamlFault (List (Node × Node) × List Token)
  | 0, _ => .error .node
  | fuel + 1, ts => do
    let ends : List Token := [.key, .value, .blockEnd]
    match ← first ts with
    | .key =>
      let (key, ts) ← readUnless ends .blockValue fuel (ts.drop 1)
      let (value, ts) ← match ← first ts with
        | .value => readUnless ends .blockValue fuel (ts.drop 1)
        | _ => pure (.missing, ts)
      let (fields, ts) ← readFields fuel ts
      return ((key, value) :: fields, ts)
    | _ => return ([], ← expect .blockEnd ts)

/-- the value after a key in a flow collection, missing without a colon -/
def readFlowValue (ends : List Token) : Nat → List Token → Except YamlFault (Node × List Token)
  | 0, _ => .error .node
  | fuel + 1, ts => do
    match ← first ts with
    | .value => readUnless ends .flow fuel (ts.drop 1)
    | _ => return (.missing, ts)

/-- the entries of a flow sequence, and its end; an entry with a key is a mapping of its own -/
def readFlowItems (atStart : Bool) : Nat → List Token → Except YamlFault (List Node × List Token)
  | 0, _ => .error .node
  | fuel + 1, ts => do
    if (← first ts) = .flowSequenceEnd then return ([], ts.drop 1)
    let ts ← if atStart then pure ts else expect .comma ts
    match ← first ts with
    | .flowSequenceEnd => return ([], ts.drop 1)
    | .key =>
      let (key, ts) ← readUnless [.value, .comma, .flowSequenceEnd] .flow fuel (ts.drop 1)
      let (value, ts) ← readFlowValue [.comma, .flowSequenceEnd] fuel ts
      let (items, ts) ← readFlowItems false fuel ts
      return (.mapping [(key, value)] :: items, ts)
    | _ =>
      let (item, ts) ← read .flow fuel ts
      let (items, ts) ← readFlowItems false fuel ts
      return (item :: items, ts)

/-- the keys and values of a flow mapping, and its end; a key without a mark has no value -/
def readFlowFields (atStart : Bool) : Nat → List Token → Except YamlFault (List (Node × Node) × List Token)
  | 0, _ => .error .node
  | fuel + 1, ts => do
    if (← first ts) = .flowMappingEnd then return ([], ts.drop 1)
    let ts ← if atStart then pure ts else expect .comma ts
    match ← first ts with
    | .flowMappingEnd => return ([], ts.drop 1)
    | .key =>
      let (key, ts) ← readUnless [.value, .comma, .flowMappingEnd] .flow fuel (ts.drop 1)
      let (value, ts) ← readFlowValue [.comma, .flowMappingEnd] fuel ts
      let (fields, ts) ← readFlowFields false fuel ts
      return ((key, value) :: fields, ts)
    | _ =>
      let (key, ts) ← read .flow fuel ts
      let (fields, ts) ← readFlowFields false fuel ts
      return ((key, .missing) :: fields, ts)

end

/-! ## Documents -/

/-- the tokens after directives and the mark that has to follow them -/
def openDocument (ts : List Token) : Except YamlFault (List Token) :=
  expect .documentStart (ts.dropWhile (· = .directive))

/-- nothing follows the only document -/
def closeText (ts : List Token) : Except YamlFault Unit := do
  let ts := ts.dropWhile (· = .documentEnd)
  if (← first ts) = .streamEnd then return
  let _ ← openDocument ts
  throw .reference

/-- the node of the only document of a text, none when there is no document -/
def ofTokens (ts : List Token) : Except YamlFault (Option Node) := do
  let fuel := 4 * ts.length + 4
  let (node, ts) ← match ← first ts with
    | .streamEnd => return none
    | .directive => content fuel (← openDocument ts)
    | .documentStart => content fuel (← openDocument ts)
    | _ => read .block fuel ts
  closeText ts
  return some node
where
  content (fuel : Nat) (ts : List Token) : Except YamlFault (Node × List Token) :=
    readUnless [.directive, .documentStart, .documentEnd, .streamEnd] .block fuel ts

end Node

end Yaml

end WorkflowGraph
