import FighterData.Deflate.Source

/-! Codes in which no word starts another, given by the word length of every symbol. Words of equal
length are consecutive numbers in the order of their symbols, and shorter words come first. -/
namespace FighterData.Deflate

/-- A tree that is walked one bit a step. Some words of an incomplete code stay unused. -/
inductive CodeTree where
  | unused
  | symbol (value : Nat)
  | branch (zero one : CodeTree)

namespace CodeTree

def insert (value : Nat) : Bits → CodeTree → CodeTree
  | [], _ => symbol value
  | false :: word, branch zero one => branch (insert value word zero) one
  | true :: word, branch zero one => branch zero (insert value word one)
  | false :: word, _ => branch (insert value word unused) unused
  | true :: word, _ => branch unused (insert value word unused)

/-- The symbol of the next word, none if the word is unused, and what is left behind it. -/
def decode : CodeTree → Source → Except StreamFault (Option Nat × Source)
  | unused, source => .ok (none, source)
  | symbol value, source => .ok (some value, source)
  | branch zero one, source =>
      match source.next? with
      | none => .error .truncated
      | some (false, source) => decode zero source
      | some (true, source) => decode one source

end CodeTree

def longestWord : Nat := 15

/-- The word of a length that is the binary number `code`, highest bit first. -/
def wordBits (code length : Nat) : Bits :=
  (List.range length).reverse.map code.testBit

/-- The symbols that have a word, each behind the length of its word. -/
def wordedSymbols (lengths : List Nat) : List (Nat × Nat) :=
  lengths.zipIdx.filter (·.1 ≠ 0)

/-- The symbols with their words, from the given word length on, the first word being `code`. -/
def wordsFrom (worded : List (Nat × Nat)) (length code : Nat) : Nat → List (Nat × Bits)
  | 0 => []
  | more + 1 =>
      let here := worded.filter (·.1 == length)
      let words := here.zipIdx.map fun ((_, symbol), index) =>
        (symbol, wordBits (code + index) length)
      words ++ wordsFrom worded (length + 1) (2 * (code + here.length)) more

def treeOf (lengths : List Nat) : CodeTree :=
  (wordsFrom (wordedSymbols lengths) 1 0 longestWord).foldl
    (fun tree (symbol, word) => tree.insert symbol word) .unused

/-- The share of all words of the greatest length that the code takes up. -/
def usedShare (lengths : List Nat) : Nat :=
  (lengths.filter (· ≠ 0)).foldl (fun share length => share + 1 <<< (longestWord - length)) 0

/-- A code that overlaps itself is refused. One with words to spare is accepted only where
`single` allows it, and only if its longest word is a single bit. Without any symbol every first
bit is taken to mean `absent`. -/
def codeOf (lengths : List Nat) (single : Bool) (absent : CodeTree) (fault : StreamFault) :
    Except StreamFault CodeTree :=
  let used := lengths.filter (· ≠ 0)
  if used.isEmpty then .ok (.branch absent absent)
  else if 1 <<< longestWord < usedShare lengths then .error fault
  else if usedShare lengths < 1 <<< longestWord && !(single && used.all (· == 1)) then .error fault
  else .ok (treeOf lengths)

end FighterData.Deflate
