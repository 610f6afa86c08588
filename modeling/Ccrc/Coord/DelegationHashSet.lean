import Ccrc.Library.Text

/-! A set of 64-bit hashes of texts: open addressing over an array of pairs of 32-bit
words, the pair (0, 0) being an empty slot. -/

set_option autoImplicit false

namespace Ccrc.Coord

open Library

structure DelegationHashSet where
  slots : List UInt32
  size : Nat
  deriving DecidableEq, Repr

def emptyDelegationHashSet : DelegationHashSet := ⟨[], 0⟩

namespace DelegationHashSet

/-- Two independent 32-bit lanes over the code units. -/
def hashLanes (text : Text) : UInt32 × UInt32 :=
  text.foldl (fun (h1, h2) c =>
    ((h1 ^^^ c.toUInt32) * 2654435761, (h2 ^^^ c.toUInt32) * 1597334677)) (0xdeadbeef, 0x41c6ce57)

/-- `Math.imul(h ^ (h >>> shift), factor)` -/
def mix (h shift factor : UInt32) : UInt32 := (h ^^^ (h >>> shift)) * factor

/-- Never the pair (0, 0). -/
def hash64 (text : Text) : UInt32 × UInt32 :=
  let (h1, h2) := hashLanes text
  let hi := mix h1 16 2246822507 ^^^ mix h2 13 3266489909
  let lo := mix h2 16 2246822507 ^^^ mix hi 13 3266489909
  if hi = 0 ∧ lo = 0 then (0, 1) else (hi, lo)

def isPair (slots : List UInt32) (i : Nat) (pair : UInt32 × UInt32) : Bool :=
  slots[2 * i]? == some pair.1 && slots[2 * i + 1]? == some pair.2

def putPair (slots : List UInt32) (i : Nat) (pair : UInt32 × UInt32) : List UInt32 :=
  (slots.set (2 * i) pair.1).set (2 * i + 1) pair.2

/-- The loop of `probeOf`. The index is a natural number: masked, it is no negative
32-bit integer in any array of up to 2³² words. -/
def probeFrom (slots : List UInt32) (hash : UInt32 × UInt32) : Nat → Nat → Option Nat
  | 0, _ => none
  | fuel + 1, i =>
      if isPair slots i hash || isPair slots i (0, 0) then some i
      else probeFrom slots hash fuel ((i + 1) &&& (slots.length / 2 - 1))

/-- The pair index where `hash` is, or the empty one where it would go. The loop goes
round the pairs: none stands for a probe that has been at each of them, and so never ends. -/
def probeOf (slots : List UInt32) (hash : UInt32 × UInt32) : Option Nat :=
  let mask := slots.length / 2 - 1
  probeFrom slots hash (slots.length / 2) ((hash.2 ^^^ hash.1 * 0x9e3779b1).toNat &&& mask)

/-- The pairs of `slots` into a larger array. -/
def grow (slots : List UInt32) : Option (List UInt32) :=
  (List.range (slots.length / 2)).foldlM (fun grown j =>
    let pair := (slots.getD (2 * j) 0, slots.getD (2 * j + 1) 0)
    if pair = (0, 0) then some grown
    else (probeOf grown pair).map (putPair grown · pair))
    (List.replicate (max 2048 (slots.length * 2)) 0)

/-- Whether a size has reached the cap; a cap that none reaches (`Infinity`) is none. -/
def reached (size : Nat) (cap : Option Nat) : Bool := cap.any (· ≤ size)

end DelegationHashSet

open DelegationHashSet

def delegationHashSetHas (set : DelegationHashSet) (text : Text) : Option Bool :=
  if set.size = 0 then some false
  else (probeOf set.slots (hash64 text)).map fun i => isPair set.slots i (hash64 text)

namespace DelegationHashSet

/-- Whether an array holds a hash; an empty one is not probed. -/
def stored (slots : List UInt32) (hash : UInt32 × UInt32) : Option Bool :=
  if 0 < slots.length then (probeOf slots hash).map fun i => isPair slots i hash else some false

/-- The array with room for one more, its load under three quarters. -/
def roomFor (set : DelegationHashSet) : Option (List UInt32) :=
  let pairs := set.slots.length / 2
  if (set.size + 1) * 4 > pairs * 3 then grow set.slots else some set.slots

end DelegationHashSet

/-- Adds `text`; the answer is false only when the set is at its cap and `text` is not in it. -/
def delegationHashSetAdd (set : DelegationHashSet) (text : Text) (cap : Option Nat) :
    Option (DelegationHashSet × Bool) := do
  let hash := hash64 text
  let found ← stored set.slots hash
  if found then some (set, true)
  else if reached set.size cap then some (set, false)
  else
    let slots ← roomFor set
    let i ← probeOf slots hash
    some (⟨putPair slots i hash, set.size + 1⟩, true)

end Ccrc.Coord
