import FighterData.Deflate.Alphabet
import FighterData.Deflate.Code

/-! Decompression of a stream of blocks: stored, with the fixed codes, or with codes of their own.
A symbol below 256 is a byte, 256 ends the block, and any other repeats earlier output. -/
namespace FighterData.Deflate

/-- Repeats the byte `distance` places back, `count` times over; a repeat may run into itself. -/
def copyBack (distance : Nat) : Nat → Array UInt8 → Array UInt8
  | 0, out => out
  | count + 1, out => copyBack distance count (out.push (out.getD (out.size - distance) 0))

def repeatedPart (distances : CodeTree) (row : Nat × Nat) (out : Array UInt8) (source : Source) :
    Except StreamFault (Array UInt8 × Source) := do
  let (more, source) ← source.number row.2
  let (symbol, source) ← distances.decode source
  match symbol.bind (distanceRows[·]?) with
  | none => .error .distanceSymbol
  | some far => do
      let (further, source) ← source.number far.2
      let distance := far.1 + further
      if out.size < distance then .error .distance
      else return (copyBack distance (row.1 + more) out, source)

/-- The symbols of a block. Each takes a bit at least, so a budget of all bits suffices. -/
def symbols (literals distances : CodeTree) :
    Nat → Array UInt8 → Source → Except StreamFault (Array UInt8 × Source)
  | 0, _, _ => .error .truncated
  | budget + 1, out, source => do
      let (symbol, source) ← literals.decode source
      match symbol with
      | none => .error .literalSymbol
      | some value =>
          if value < 256 then symbols literals distances budget (out.push (UInt8.ofNat value)) source
          else if value = 256 then return (out, source)
          else
            match lengthRows[value - 257]? with
            | none => .error .literalSymbol
            | some row => do
                let (out, source) ← repeatedPart distances row out source
                symbols literals distances budget out source

/-- A block with its bytes as they are, behind their number and its complement. -/
def storedBlock (out : Array UInt8) (source : Source) : Except StreamFault (Array UInt8 × Source) :=
  match source.bytes with
  | size₀ :: size₁ :: complement₀ :: complement₁ :: data =>
      let size := Bytes.toNat [size₀, size₁]
      if size + Bytes.toNat [complement₀, complement₁] ≠ 0xFFFF then .error .storedLengths
      else do
        let (out, data) ← bytesOnto out size data
        return (out, ⟨[], data⟩)
  | _ => .error .truncated

def fixedLiterals : CodeTree :=
  treeOf fixedLengths

def fixedDistances : CodeTree :=
  treeOf fixedDistanceLengths

def lengthCodeLengths : Nat → Source → Except StreamFault (List Nat × Source)
  | 0, source => .ok ([], source)
  | count + 1, source => do
      let (first, source) ← source.number 3
      let (rest, source) ← lengthCodeLengths count source
      return (first :: rest, source)

def repeatLength (wanted : Nat) (found : List Nat) (length count : Nat) :
    Except StreamFault (List Nat) :=
  if wanted < found.length + count then .error .lengthRepeat
  else .ok (List.replicate count length ++ found)

/-- One symbol of the length code, added to the lengths found, which are in reverse. -/
def lengthSymbol (wanted : Nat) (found : List Nat) (value : Nat) (source : Source) :
    Except StreamFault (List Nat × Source) := do
  if value < 16 then return (value :: found, source)
  else if value = 16 then
    let (more, source) ← source.number 2
    match found with
    | [] => .error .lengthRepeat
    | last :: _ => do
        let found ← repeatLength wanted found last (3 + more)
        return (found, source)
  else if value = 17 then
    let (more, source) ← source.number 3
    let found ← repeatLength wanted found 0 (3 + more)
    return (found, source)
  else
    let (more, source) ← source.number 7
    let found ← repeatLength wanted found 0 (11 + more)
    return (found, source)

def wordLengths (code : CodeTree) (wanted : Nat) :
    Nat → List Nat → Source → Except StreamFault (List Nat × Source)
  | 0, found, source => .ok (found.reverse, source)
  | budget + 1, found, source =>
      if wanted ≤ found.length then .ok (found.reverse, source)
      else do
        let (symbol, source) ← code.decode source
        match symbol with
        | none => .error .codeLengthCode
        | some value => do
            let (found, source) ← lengthSymbol wanted found value source
            wordLengths code wanted budget found source

/-- The codes that a block brings along, and what is left behind them. -/
def ownCodes (source : Source) : Except StreamFault (CodeTree × CodeTree × Source) := do
  let (literalCount, source) ← source.number 5
  let (distanceCount, source) ← source.number 5
  let (lengthCount, source) ← source.number 4
  let literalCount := literalCount + 257
  let distanceCount := distanceCount + 1
  if literalCount > 286 || distanceCount > 30 then throw .tooManySymbols
  let (given, source) ← lengthCodeLengths (lengthCount + 4) source
  let known := lengthOrder.zip given
  let lengths := (List.range 19).map fun symbol => (known.lookup symbol).getD 0
  let code ← codeOf lengths false (.symbol 0) .codeLengthCode
  let wanted := literalCount + distanceCount
  let (lengths, source) ← wordLengths code wanted wanted [] source
  if lengths.getD 256 0 = 0 then throw .noEndOfBlock
  let literals ← codeOf (lengths.take literalCount) true .unused .literalCode
  let distances ← codeOf (lengths.drop literalCount) true .unused .distanceCode
  return (literals, distances, source)

/-- A block of the given kind, of no more symbols than the limit. -/
def block (limit kind : Nat) (out : Array UInt8) (source : Source) :
    Except StreamFault (Array UInt8 × Source) :=
  match kind with
  | 0 => storedBlock out source
  | 1 => symbols fixedLiterals fixedDistances limit out source
  | 2 => do
      let (literals, distances, source) ← ownCodes source
      symbols literals distances limit out source
  | _ => .error .blockType

/-- Blocks up to the one marked as final. -/
def blocks (limit : Nat) : Nat → Array UInt8 → Source → Except StreamFault (Array UInt8 × Source)
  | 0, _, _ => .error .truncated
  | budget + 1, out, source => do
      let (final, source) ← source.number 1
      let (kind, source) ← source.number 2
      let (out, source) ← block limit kind out source
      if final = 1 then return (out, source) else blocks limit budget out source

/-- The output of a stream, and the bytes behind the one in which its final block ends. There are no
more blocks, and no more symbols in a block, than bits. -/
def inflate (data : Bytes) : Except StreamFault (Array UInt8 × Bytes) := do
  let limit := 8 * data.length + 1
  let (out, source) ← blocks limit limit #[] ⟨[], data⟩
  return (out, source.bytes)

end FighterData.Deflate
