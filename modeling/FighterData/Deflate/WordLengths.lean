/-! Word lengths for symbols of given frequencies. The two lightest nodes are joined until one is
left, and a symbol's word is as long as its leaf is deep. Of equally heavy nodes the shallower goes
first, and of equally deep ones the heap decides. Words beyond the longest allowed are shortened at
the cost of others. -/
namespace FighterData.Deflate

/-- The leaves are the symbols; a joined node takes the next free number. -/
structure Nodes where
  weights : Array Nat
  heights : Array Nat
  parents : Array Nat

namespace Nodes

def ofFrequencies (frequencies : Array Nat) : Nodes :=
  ⟨frequencies, Array.replicate frequencies.size 0, Array.replicate frequencies.size 0⟩

def weight (nodes : Nodes) (node : Nat) : Nat :=
  nodes.weights.getD node 0

def height (nodes : Nodes) (node : Nat) : Nat :=
  nodes.heights.getD node 0

def goesFirst (nodes : Nodes) (a b : Nat) : Bool :=
  nodes.weight a < nodes.weight b
    || nodes.weight a == nodes.weight b && nodes.height a ≤ nodes.height b

def join (nodes : Nodes) (a b : Nat) : Nodes :=
  let joined := nodes.weights.size
  ⟨nodes.weights.push (nodes.weight a + nodes.weight b),
    nodes.heights.push (max (nodes.height a) (nodes.height b) + 1),
    ((nodes.parents.setIfInBounds a joined).setIfInBounds b joined).push 0⟩

end Nodes

/-- Nodes of which none goes before its parent; the children of place `i` stand at `2 * i + 1` and
`2 * i + 2`. -/
abbrev Heap := Array Nat

namespace Heap

/-- The child that goes first, the left one unless the right one does; none at the bottom. -/
def firstChild? (nodes : Nodes) (heap : Heap) (place : Nat) : Option (Nat × Nat) :=
  match heap[2 * place + 1]?, heap[2 * place + 2]? with
  | some left, some right =>
      if nodes.goesFirst right left then some (2 * place + 2, right) else some (2 * place + 1, left)
  | some left, none => some (2 * place + 1, left)
  | none, _ => none

/-- Moves children up until the node can stand at the place. -/
def sink (nodes : Nodes) (node : Nat) : (fuel place : Nat) → Heap → Heap
  | 0, place, heap => heap.setIfInBounds place node
  | fuel + 1, place, heap =>
      match firstChild? nodes heap place with
      | none => heap.setIfInBounds place node
      | some (below, child) =>
          if nodes.goesFirst node child then heap.setIfInBounds place node
          else sink nodes node fuel below (heap.setIfInBounds place child)

def top (heap : Heap) : Nat :=
  heap.getD 0 0

def replaceTop (nodes : Nodes) (node : Nat) (heap : Heap) : Heap :=
  sink nodes node heap.size 0 heap

def dropTop (nodes : Nodes) (heap : Heap) : Heap :=
  match heap.back? with
  | none => heap
  | some last => replaceTop nodes last heap.pop

def ofNodes (nodes : Nodes) (members : List Nat) : Heap :=
  let heap := members.toArray
  (List.range (heap.size / 2)).reverse.foldl
    (fun heap place => sink nodes (heap.getD place 0) heap.size place heap) heap

end Heap

/-- Joins until one node is left. The nodes come out with each behind its parent. -/
def joinAll : (fuel : Nat) → Nodes → Heap → List Nat → Nodes × List Nat
  | 0, nodes, _, order => (nodes, order)
  | fuel + 1, nodes, heap, order =>
      if heap.size < 2 then (nodes, heap.top :: order)
      else
        let light := heap.top
        let heap := heap.dropTop nodes
        let next := heap.top
        let joined := nodes.weights.size
        let nodes := nodes.join light next
        joinAll fuel nodes (heap.replaceTop nodes joined) (next :: light :: order)

/-- A code has two words at least: symbols that do not occur make up for missing ones. -/
def usedSymbols (frequencies : Array Nat) : List Nat :=
  let used := (List.range frequencies.size).filter (frequencies.getD · 0 ≠ 0)
  match used with
  | [] => [0, 1]
  | [symbol] => if symbol < 2 then [symbol, symbol + 1] else [symbol, 0]
  | _ => used

/-- The depths of the nodes, no deeper than `longest`, and how many of them would be deeper. -/
def depthsWithin (longest : Nat) (parents : Array Nat) :
    (order : List Nat) → (depths : Array Nat) → (deeper : Nat) → Array Nat × Nat
  | [], depths, deeper => (depths, deeper)
  | node :: order, depths, deeper =>
      let depth := depths.getD (parents.getD node 0) 0 + 1
      if longest < depth then
        depthsWithin longest parents order (depths.setIfInBounds node longest) (deeper + 1)
      else depthsWithin longest parents order (depths.setIfInBounds node depth) deeper

/-- The length of the longest words that are shorter than `length`. -/
def longestBelow (counts : Array Nat) : (length : Nat) → Nat
  | 0 => 0
  | length + 1 => if counts.getD length 0 ≠ 0 then length else longestBelow counts length

/-- Lengthens a word and puts one of the longest beside it, once for every two nodes too deep. -/
def relieve (longest : Nat) : (fuel deeper : Nat) → (counts : Array Nat) → Array Nat
  | 0, _, counts => counts
  | fuel + 1, deeper, counts =>
      if deeper = 0 then counts
      else
        let length := longestBelow counts longest
        let counts := counts.modify length (· - 1)
        let counts := counts.modify (length + 1) (· + 2)
        relieve longest fuel (deeper - 2) (counts.modify longest (· - 1))

/-- Lengths in the numbers given, the greatest first. -/
def lengthsOfCounts (counts : Array Nat) : List Nat :=
  (List.range counts.size).reverse.flatMap fun length => List.replicate (counts.getD length 0) length

def countLengths (longest : Nat) (lengths : List Nat) : Array Nat :=
  lengths.foldl (fun counts length => counts.modify length (· + 1)) (Array.replicate (longest + 1) 0)

/-- The word length of every symbol, zero for those that do not occur. -/
def lengthsFor (longest : Nat) (frequencies : Array Nat) : List Nat :=
  let members := usedSymbols frequencies
  let frequencies := members.foldl (fun held symbol => held.modify symbol (max 1)) frequencies
  let nodes := Nodes.ofFrequencies frequencies
  let (nodes, order) := joinAll members.length nodes (Heap.ofNodes nodes members) []
  let depths := Array.replicate nodes.weights.size 0
  let (depths, deeper) := depthsWithin longest nodes.parents (order.drop 1) depths 0
  let leaves := order.filter (· < frequencies.size)
  let lengths := leaves.map fun symbol => depths.getD symbol 0
  let lengths := if deeper = 0 then lengths
    else (lengthsOfCounts (relieve longest deeper deeper (countLengths longest lengths))).reverse
  ((leaves.zip lengths).foldl (fun held (symbol, length) => held.setIfInBounds symbol length)
    (Array.replicate frequencies.size 0)).toList

end FighterData.Deflate
