import FighterData.Deflate.Code
import FighterData.Deflate.LengthRuns
import FighterData.Deflate.Search
import FighterData.Deflate.WordLengths

/-! Blocks: a portion of the data as tokens under codes of its own or under the fixed codes, or as
its bytes, whichever takes the fewest bytes. Of equal ones the fixed codes go first, but bytes as
they are go before both. -/
namespace FighterData.Deflate

def literalCount : Nat := 286
def distanceCount : Nat := 30
def lengthCount : Nat := 19

/-- The longest words of the length code. -/
def longestLengthWord : Nat := 7

def tally (frequencies : Array Nat) (symbol : Nat) : Array Nat :=
  frequencies.modify symbol (· + 1)

def literalFrequencies (tokens : List Token) : Array Nat :=
  (tokens.map Token.literalSymbol ++ [endSymbol]).foldl tally (Array.replicate literalCount 0)

def distanceFrequencies (tokens : List Token) : Array Nat :=
  (tokens.filterMap Token.distanceSymbol?).foldl tally (Array.replicate distanceCount 0)

/-- The bits that words of these lengths take up. -/
def wordCost (frequencies : Array Nat) (lengths : List Nat) : Nat :=
  (frequencies.toList.zipWith (· * ·) lengths).foldl (· + ·) 0

/-- The word of every symbol, none for those that do not occur. -/
def wordTable (lengths : List Nat) : Array Bits :=
  (wordsFrom (wordedSymbols lengths) 1 0 longestWord).foldl
    (fun table (symbol, word) => table.setIfInBounds symbol word)
    (Array.replicate lengths.length [])

/-- Lengths up to the last symbol that occurs, but at least so many. -/
def trimmed (least : Nat) (lengths : List Nat) : List Nat :=
  let tail := lengths.reverse.takeWhile (· == 0)
  lengths.take (max least (lengths.length - tail.length))

/-- The word lengths of both codes of a block. -/
structure Codes where
  literals : List Nat
  distances : List Nat

namespace Codes

def fixed : Codes :=
  ⟨fixedLengths, fixedDistanceLengths⟩

def ofTokens (tokens : List Token) : Codes :=
  ⟨trimmed 257 (lengthsFor longestWord (literalFrequencies tokens)),
    trimmed 1 (lengthsFor longestWord (distanceFrequencies tokens))⟩

def tokenBits (literals distances : Array Bits) : Token → Bits
  | token@(.literal _) => literals.getD token.literalSymbol []
  | token@(.repeated length distance) =>
      literals.getD token.literalSymbol [] ++ extraBits lengthRows length
        ++ distances.getD (rowOf distanceRows distance) [] ++ extraBits distanceRows distance

/-- The tokens under these codes, and the end of the block. -/
def encode (codes : Codes) (tokens : List Token) : Bits :=
  let literals := wordTable codes.literals
  let distances := wordTable codes.distances
  tokens.flatMap (tokenBits literals distances) ++ literals.getD endSymbol []

def cost (codes : Codes) (tokens : List Token) : Nat :=
  wordCost (literalFrequencies tokens) codes.literals
    + wordCost (distanceFrequencies tokens) codes.distances
    + tokens.foldl (fun total token => total + token.extraCost) 0

/-- The numbers of word lengths, the lengths of the length code, and the runs under it. -/
def describe (codes : Codes) : Bits :=
  let tokens := lengthTokens codes.literals ++ lengthTokens codes.distances
  let lengths := lengthsFor longestLengthWord
    ((tokens.map LengthToken.symbol).foldl tally (Array.replicate lengthCount 0))
  let words := wordTable lengths
  let given := trimmed 4 (lengthOrder.map fun symbol => lengths.getD symbol 0)
  numberBits 5 (codes.literals.length - 257) ++ numberBits 5 (codes.distances.length - 1)
    ++ numberBits 4 (given.length - 4) ++ given.flatMap (numberBits 3)
    ++ tokens.flatMap fun token => words.getD token.symbol [] ++ token.bits

end Codes

/-- Bytes that hold a number of bits behind the three that start a block. -/
def blockSize (bits : Nat) : Nat :=
  (bits + 3 + 7) / 8

/-- The bytes as they are, from the next full byte on, behind their number and its complement. The
offset is the number of bits that lie before the block. -/
def storedBits (offset : Nat) (data : Bytes) : Bits :=
  List.replicate ((8 - (offset + 3) % 8) % 8) false
    ++ numberBits 16 data.length ++ numberBits 16 (0xFFFF - data.length) ++ bitsOf data

/-- The kind of a block and its contents. -/
def contentBits (data : Buffer) (offset : Nat) (portion : Portion) : Bits :=
  let own := Codes.ofTokens portion.tokens
  let description := own.describe
  let ownSize := blockSize (description.length + own.cost portion.tokens)
  let fixedSize := blockSize (Codes.fixed.cost portion.tokens)
  if portion.stop - portion.start + 4 ≤ min ownSize fixedSize ∧ portion.isInWindow then
    numberBits 2 0 ++ storedBits offset (data.extract portion.start portion.stop).toList
  else if fixedSize ≤ ownSize then
    numberBits 2 1 ++ Codes.fixed.encode portion.tokens
  else
    numberBits 2 2 ++ description ++ own.encode portion.tokens

/-- The blocks of all portions, with the last one marked as final. -/
def blocksOf (data : Buffer) : (offset : Nat) → List Portion → Bits
  | _, [] => []
  | offset, portion :: rest =>
      let bits := rest.isEmpty :: contentBits data offset portion
      bits ++ blocksOf data ((offset + bits.length) % 8) rest

/-- Bits as bytes, the lowest first, with zeros to the end of the last byte. -/
def packOnto (out : Array UInt8) : Bits → Array UInt8
  | b0 :: b1 :: b2 :: b3 :: b4 :: b5 :: b6 :: b7 :: rest =>
      packOnto (out.push (byteOf [b0, b1, b2, b3, b4, b5, b6, b7])) rest
  | [] => out
  | bits => out.push (byteOf bits)
where
  byteOf (bits : Bits) : UInt8 :=
    bits.foldr (fun bit high => (if bit then 1 else 0) + 2 * high) 0

def deflate (data : Buffer) : Bytes :=
  (packOnto #[] (blocksOf data 0 (portionsOf data))).toList

end FighterData.Deflate
