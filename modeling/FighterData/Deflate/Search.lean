import FighterData.Deflate.Token

/-! The search for repeats. Places whose next three bytes have the same key are chained, the newest
first, and every place in reach on the chain is tried. A repeat is held back for one byte: if a
longer one starts there, the byte before stays a literal. Tokens are cut into portions, each of which
becomes a block. -/
namespace FighterData.Deflate

def shortestRepeat : Nat := 3
def longestRepeat : Nat := 258
def windowSize : Nat := 32768

/-- What has to be in view beyond a place, so that a repeat and the next key can be read. -/
def leastView : Nat := longestRepeat + shortestRepeat + 1

/-- How far back a repeat may reach. -/
def farthest : Nat := windowSize - leastView

/-- A repeat of the least length that is farther back costs more than its bytes do. -/
def farForShortest : Nat := 4096

/-- How many places of a chain are tried, and how many after a repeat that is long already. -/
def triesFor (held : Nat) : Nat :=
  if 32 ≤ held then 1024 else 4096

def portionLimit : Nat := 16383

/-- A repeat that starts at a place to be known: its length, and the place that it copies. A length
below the shortest stands for no repeat. -/
structure Repeat where
  length : Nat
  source : Nat

def Repeat.none : Repeat := ⟨shortestRepeat - 1, 0⟩

/-- The newest place for each key, and for each place the one before it with the same key. Places
share a slot when they are a window apart. A place of zero stands for no place. -/
structure Chains where
  newest : Array Nat
  earlier : Array Nat

namespace Chains

def empty : Chains :=
  ⟨Array.replicate windowSize 0, Array.replicate windowSize 0⟩

/-- The key of the three bytes at a place. Only the low bits of each take part. -/
def key (data : Buffer) (place : Nat) : Nat :=
  let byte := fun offset => (data.getD (place + offset) 0).toNat
  ((byte 0 <<< 10) ^^^ (byte 1 <<< 5) ^^^ byte 2) % windowSize

/-- Puts a place in front of its chain, and gives the place that was in front. -/
def enter (data : Buffer) (place : Nat) : Chains → Nat × Chains
  | ⟨newest, earlier⟩ =>
      if place + shortestRepeat ≤ data.size then
        let slot := key data place
        let front := newest.getD slot 0
        (front, ⟨newest.setIfInBounds slot place,
          earlier.setIfInBounds (place % windowSize) front⟩)
      else (0, ⟨newest, earlier⟩)

def enterAll (data : Buffer) : (count place : Nat) → Chains → Chains
  | 0, _, chains => chains
  | count + 1, place, chains => enterAll data count (place + 1) (enter data place chains).2

end Chains

/-- How many bytes agree from two places on, at most `limit`. -/
def agreement (data : Buffer) (here there : Nat) : (limit : Nat) → Nat
  | 0 => 0
  | limit + 1 =>
      if data.getD here 0 = data.getD there 0 then
        agreement data (here + 1) (there + 1) limit + 1
      else 0

/-- The longest repeat on the chain from a candidate on. Of equally long ones the newest is taken.
The search ends at the floor, or with a repeat that cannot be longer. -/
def longestOnChain (data : Buffer) (earlier : Array Nat) (place floor limit : Nat) :
    (tries candidate : Nat) → Repeat → Repeat
  | 0, _, best => best
  | tries + 1, candidate, best =>
      let tail := best.length
      let length := if data.getD (candidate + tail) 0 = data.getD (place + tail) 0
        then agreement data candidate place limit else 0
      let best := if tail < length then ⟨length, candidate⟩ else best
      let next := earlier.getD (candidate % windowSize) 0
      if limit ≤ best.length || next ≤ floor then best
      else longestOnChain data earlier place floor limit tries next best

structure Portion where
  start : Nat
  stop : Nat
  tokens : List Token
  /-- Whether its first byte is still in the window when the portion ends. -/
  isInWindow : Bool

/-- The tokens of the open portion and the portions before it are in reverse. -/
structure Search where
  base : Nat
  place : Nat
  chains : Chains
  /-- The repeat that starts at the byte before. -/
  held : Repeat
  /-- Whether the byte before still waits for its token. -/
  isWaiting : Bool
  start : Nat
  count : Nat
  tokens : List Token
  portions : List Portion

namespace Search

def begin : Search :=
  ⟨0, 0, .empty, .none, false, 0, 0, [], []⟩

/-- The window moves on when what is in view runs short and a window of places lies behind. -/
def slide (size base place : Nat) : Nat :=
  if min size (base + 2 * windowSize) < place + leastView
      ∧ base + windowSize + farthest ≤ place
  then base + windowSize else base

/-- The repeat at a place, no shorter than the one held, if any is as long. -/
def findRepeat (data : Buffer) (chains : Chains) (base place front : Nat) (held : Repeat) :
    Repeat :=
  if base < front ∧ held.length < longestRepeat ∧ place ≤ front + farthest then
    let view := data.size - place
    let found := longestOnChain data chains.earlier place (max base (place - farthest))
      (min longestRepeat view) (triesFor held.length) front held
    if found.length = shortestRepeat ∧ farForShortest < place - found.source then .none
    else ⟨min found.length view, found.source⟩
  else .none

/-- Ends the open portion at a place. -/
def cut (stop : Nat) (search : Search) : Search :=
  let portion := ⟨search.start, stop, search.tokens.reverse,
    decide (search.base ≤ search.start)⟩
  { search with
    start := stop, count := 0, tokens := [], portions := portion :: search.portions }

/-- Adds a token, and ends the portion at `stop` if it is full. -/
def add (token : Token) (stop : Nat) (search : Search) : Search :=
  let search := { search with count := search.count + 1, tokens := token :: search.tokens }
  if search.count = portionLimit then search.cut stop else search

def byteBefore (data : Buffer) (place : Nat) : Token :=
  .literal (data.getD (place - 1) 0)

/-- One place further, or past the held repeat if none at this place is longer. -/
def step (data : Buffer) : Search → Search
  | ⟨base, place, chains, held, isWaiting, start, count, tokens, portions⟩ =>
      let base := slide data.size base place
      let (front, chains) := chains.enter data place
      let found := findRepeat data chains base place front held
      if shortestRepeat ≤ held.length ∧ found.length ≤ held.length then
        let stop := place - 1 + held.length
        let chains := chains.enterAll data (held.length - 2) (place + 1)
        add (.repeated held.length (place - 1 - held.source)) stop
          ⟨base, stop, chains, .none, false, start, count, tokens, portions⟩
      else
        let next : Search := ⟨base, place + 1, chains, found, true, start, count, tokens, portions⟩
        if isWaiting then next.add (byteBefore data place) place else next

def run (data : Buffer) : (fuel : Nat) → Search → Search
  | 0, search => search
  | fuel + 1, search =>
      if data.size ≤ search.place then search else run data fuel (search.step data)

/-- The last portion, which may be empty, takes what still waits. -/
def finish (data : Buffer) (search : Search) : List Portion :=
  let search := if search.isWaiting
    then { search with tokens := byteBefore data search.place :: search.tokens } else search
  (search.cut search.place).portions.reverse

end Search

/-- Every step moves at least one byte on, so as many steps as there are bytes suffice. -/
def portionsOf (data : Buffer) : List Portion :=
  ((Search.begin).run data data.size).finish data

end FighterData.Deflate
