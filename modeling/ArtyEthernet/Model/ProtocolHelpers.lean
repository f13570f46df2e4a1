import ArtyEthernet.Model.Constants

/-!
# Network byte order

The byte selectors and word readers of `protocol_helpers.h`. The selectors list the bytes of a word
from its most significant end, so they agree with the big-endian writer `Words.toBytes`. A reader
takes its byte array as a function, which may refuse a position by failing in the monad `m`.
-/

namespace ArtyEthernet
open Words

/-- One network-order byte of a packed MAC address. -/
def macByte (mac : BitVec 48) (index : BitVec 3) : Byte :=
  match index.toNat with
  | 0 => mac.extractLsb 47 40
  | 1 => mac.extractLsb 39 32
  | 2 => mac.extractLsb 31 24
  | 3 => mac.extractLsb 23 16
  | 4 => mac.extractLsb 15 8
  | _ => mac.extractLsb 7 0

/-- One byte of the 14-byte Ethernet header: destination, source, then EtherType. -/
def ethernetHeaderByte (header : EthHeader) (index : BitVec 4) : Byte :=
  if index < 6 then macByte header.dstMac (index.setWidth 3)
  else if index < 12 then macByte header.srcMac ((index - 6).setWidth 3)
  else if index = 12 then header.ethertype.extractLsb 15 8
  else header.ethertype.extractLsb 7 0

/-- The header as it goes on the wire. -/
def EthHeader.toBytes (header : EthHeader) : List Byte :=
  Words.toBytes 6 header.dstMac ++ Words.toBytes 6 header.srcMac ++
    Words.toBytes 2 header.ethertype

@[simp] theorem EthHeader.length_toBytes (header : EthHeader) : header.toBytes.length = 14 := by
  simp [EthHeader.toBytes]

theorem map_ethernetHeaderByte (header : EthHeader) :
    (List.range 14).map (fun i => ethernetHeaderByte header (BitVec.ofNat 4 i)) =
      header.toBytes := rfl

section Readers
variable {m : Type → Type} [Monad m] (bytes : ℕ → m Byte) (index : BitVec 11)

def readBe16 : m (BitVec 16) := do
  let b0 ← bytes index.toNat
  let b1 ← bytes (index.toNat + 1)
  return (b0.setWidth 16 <<< 8) ||| b1.setWidth 16

def readBe32 : m (BitVec 32) := do
  let b0 ← bytes index.toNat
  let b1 ← bytes (index.toNat + 1)
  let b2 ← bytes (index.toNat + 2)
  let b3 ← bytes (index.toNat + 3)
  return (b0.setWidth 32 <<< 24) ||| (b1.setWidth 32 <<< 16) ||| (b2.setWidth 32 <<< 8) |||
    b3.setWidth 32

def readMac48 : m (BitVec 48) := do
  let b0 ← bytes index.toNat
  let b1 ← bytes (index.toNat + 1)
  let b2 ← bytes (index.toNat + 2)
  let b3 ← bytes (index.toNat + 3)
  let b4 ← bytes (index.toNat + 4)
  let b5 ← bytes (index.toNat + 5)
  return (b0.setWidth 48 <<< 40) ||| (b1.setWidth 48 <<< 32) ||| (b2.setWidth 48 <<< 24) |||
    (b3.setWidth 48 <<< 16) ||| (b4.setWidth 48 <<< 8) ||| b5.setWidth 48

end Readers

/-- The reader of a plain array. -/
def arrayReader {n : ℕ} (bytes : Buffer n) (index : ℕ) : Id Byte := pure (Buffer.get bytes index)

end ArtyEthernet
