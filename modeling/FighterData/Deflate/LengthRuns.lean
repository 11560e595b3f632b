import FighterData.Deflate.Token

/-! Word lengths as a block gives them: one by one, or as runs. A run of zeros, or a repeat of the
length before, is a symbol above fifteen with its count in extra bits. -/
namespace FighterData.Deflate

/-- A symbol of the length code and the value in its extra bits. -/
structure LengthToken where
  symbol : Nat
  extra : Nat

namespace LengthToken

def bits (token : LengthToken) : Bits :=
  numberBits (lengthExtraBits token.symbol) token.extra

def single (length : Nat) : LengthToken :=
  ⟨length, 0⟩

def zeros (count : Nat) : LengthToken :=
  if count ≤ 10 then ⟨17, count - 3⟩ else ⟨18, count - 11⟩

def again (count : Nat) : LengthToken :=
  ⟨16, count - 3⟩

end LengthToken

/-- A run of zeros in parts as long as can be. Fewer than three are given one by one. -/
def zeroRun : (fuel count : Nat) → List LengthToken
  | 0, _ => []
  | fuel + 1, count =>
      if count < 3 then List.replicate count (.single 0)
      else
        let part := min count 138
        .zeros part :: zeroRun fuel (count - part)

/-- More of the length before, six at a time. Fewer than three are given one by one. -/
def repeatRun (length : Nat) : (fuel count : Nat) → List LengthToken
  | 0, _ => []
  | fuel + 1, count =>
      if count < 3 then List.replicate count (.single length)
      else
        let part := min count 6
        .again part :: repeatRun length fuel (count - part)

def runTokens (length count : Nat) : List LengthToken :=
  if length = 0 then zeroRun count count
  else .single length :: repeatRun length count (count - 1)

/-- Equal neighbours, counted. -/
def runsOf : List Nat → List (Nat × Nat)
  | [] => []
  | length :: rest =>
      match runsOf rest with
      | (next, count) :: runs =>
          if length = next then (next, count + 1) :: runs else (length, 1) :: (next, count) :: runs
      | [] => [(length, 1)]

def lengthTokens (lengths : List Nat) : List LengthToken :=
  (runsOf lengths).flatMap fun (length, count) => runTokens length count

end FighterData.Deflate
