import ArtyEthernet.Model.HostDecoder

/-!
# The host sender

The addresses as text and the frames that `tests/hw/ethernet.py` builds from them, with the parts
of Python's `int` and of the C library's `inet_aton` they rest on. Text is any list of characters;
what the interpreter's tables say of the characters above ASCII is a parameter.
-/

namespace ArtyEthernet.Host
open Words

def ipv4Ethertype : BitVec 16 := 0x0800
def diagnosticBeaconEthertype : BitVec 16 := 0x88b5
def minEthPayload : ℕ := 46

def digitSymbols : List Char := "0123456789abcdef".toList

def hexText (n x : ℕ) : List Char := (Numerals.digits 16 n x).map fun d => digitSymbols.getD d '0'

def digitValue (b : ℕ) (c : Char) : Option ℕ := (digitSymbols.idxOf? c.toLower).filter (· < b)

/-- White space to `isspace`. -/
def isCSpace (c : Char) : Bool := c.toNat ∈ [0x09, 0x0a, 0x0b, 0x0c, 0x0d, 0x20]

/-- Digits with single underscores between them. -/
def readGrouped (b : ℕ) (cs : List Char) : Option ℕ :=
  let groups := cs.splitOn '_'
  if groups.any List.isEmpty then none else Numerals.read (digitValue b) b groups.flatten

/-- The interpreter's tables for the characters above ASCII. -/
structure CharacterData where
  isSpace : Char → Bool
  decimal : Char → Option (Fin 10)
  isPrintable : Char → Bool

/-- Digits and white space above ASCII are replaced by those of ASCII, up to the first character
that is neither. -/
def transformDecimalAndSpace (data : CharacterData) : List Char → List Char
  | [] => []
  | c :: cs =>
    if c.toNat < 127 then c :: transformDecimalAndSpace data cs
    else if data.isSpace c then ' ' :: transformDecimalAndSpace data cs
    else
      match data.decimal c with
      | some d => d.val.digitChar :: transformDecimalAndSpace data cs
      | none => ['?']

/-- `PyLong_FromString` in base 16. -/
def readBase16 (text : List Char) : Option ℤ :=
  let stripped := (text.dropWhile isCSpace).rdropWhile isCSpace
  let (negative, unsigned) := match stripped with
    | '+' :: rest => (false, rest)
    | '-' :: rest => (true, rest)
    | _ => (false, stripped)
  let digits := match unsigned with
    | '0' :: x :: rest =>
      if x.toLower = 'x' then
        match rest with
        | '_' :: rest => rest
        | _ => rest
      else unsigned
    | _ => unsigned
  (readGrouped 16 digits).map fun n => if negative then -(n : ℤ) else n

/-- `int(text, 16)`. -/
def intBase16 (data : CharacterData) (text : List Char) : Option ℤ :=
  readBase16 (if text.all (·.toNat < 128) then text else transformDecimalAndSpace data text)

def backslash : Char := Char.ofNat 0x5c
def singleQuote : Char := Char.ofNat 0x27
def doubleQuote : Char := Char.ofNat 0x22

/-- The escape of a character in a literal. -/
def escape (isPrintable : Char → Bool) (quote c : Char) : List Char :=
  if c = quote ∨ c = backslash then [backslash, c]
  else if c = '\t' then [backslash, 't']
  else if c = '\n' then [backslash, 'n']
  else if c = '\r' then [backslash, 'r']
  else if 0x20 ≤ c.toNat ∧ c.toNat < 0x7f ∨ 0x7f < c.toNat ∧ isPrintable c then [c]
  else if c.toNat ≤ 0xff then backslash :: 'x' :: hexText 2 c.toNat
  else if c.toNat ≤ 0xffff then backslash :: 'u' :: hexText 4 c.toNat
  else backslash :: 'U' :: hexText 8 c.toNat

def quoted (isPrintable : Char → Bool) (cs : List Char) : List Char :=
  let quote := if singleQuote ∈ cs ∧ doubleQuote ∉ cs then doubleQuote else singleQuote
  quote :: cs.flatMap (escape isPrintable quote) ++ [quote]

def textRepr (data : CharacterData) (text : List Char) : List Char := quoted data.isPrintable text

def bytesRepr (bs : List Byte) : List Char :=
  'b' :: quoted (fun _ => false) (bs.map fun b => Char.ofNat b.toNat)

def macText (mac : List Byte) : List Char :=
  List.intercalate [':'] (mac.map fun octet => hexText 2 octet.toNat)

/-- One item of `bytes(int(part, 16) for part in parts)`. -/
def parseOctet (data : CharacterData) (part : List Char) : Except String Byte :=
  match intBase16 data part with
  | none =>
    .error ("invalid literal for int() with base 16: " ++
      String.ofList ((textRepr data part).take 200))
  | some n =>
    if 0 ≤ n ∧ n < 256 then .ok (BitVec.ofInt 8 n) else .error "bytes must be in range(0, 256)"

def parseMac (data : CharacterData) (text : List Char) : Except String (List Byte) :=
  let parts := text.splitOn ':'
  if parts.length ≠ 6 then
    .error ("MAC address must have 6 bytes: " ++ String.ofList (textRepr data text))
  else parts.mapM (parseOctet data)

/-- `strtoul(cs, &end, 0)`, for text that starts with a digit. -/
def strtoul (cs : List Char) : ℕ × List Char :=
  let (b, body) := match cs with
    | '0' :: x :: rest =>
      if x.toLower = 'x' ∧ (rest.head?.bind (digitValue 16)).isSome then (16, rest) else (8, cs)
    | '0' :: _ => (8, cs)
    | _ => (10, cs)
  let isDigit := fun c => (digitValue b c).isSome
  ((Numerals.read (digitValue b) b (body.takeWhile isDigit)).getD 0, body.dropWhile isDigit)

/-- The last `n` bytes of an address: every part is one byte, but the last part, which is all that
are left. -/
def inetAtonFrom : ℕ → List Char → Option (List Byte)
  | 0, _ => none
  | n + 1, cs =>
    if (cs.head?.bind (digitValue 10)).isNone then none
    else
      let (val, rest) := strtoul cs
      if 0xffffffff < val then none
      else
        match rest with
        | '.' :: rest =>
          if n = 0 ∨ 0xff < val then none
          else (inetAtonFrom n rest).map (BitVec.ofNat 8 val :: ·)
        | c :: _ =>
          if isCSpace c ∧ val < 256 ^ (n + 1) then
            some (toBytes (n + 1) (BitVec.ofNat 32 val))
          else none
        | [] => if val < 256 ^ (n + 1) then some (toBytes (n + 1) (BitVec.ofNat 32 val)) else none

def nul : Char := Char.ofNat 0

/-- `socket.inet_aton`, which takes no text with a NUL. -/
def inetAton (ip : List Char) : Except String (List Byte) :=
  if nul ∈ ip then .error "embedded null character"
  else
    match inetAtonFrom 4 ip with
    | none => .error "illegal IP address string passed to inet_aton"
    | some octets => .ok octets

/-- `socket.inet_ntoa` of any byte string. -/
def packedText (packed : List Byte) : Except String (List Char) :=
  if packed.length ≠ 4 then .error "packed IP wrong length" else .ok (inetNtoa packed)

def buildFrame (dstMac srcMac payload : List Byte) (ethertype : BitVec 16) : List Byte :=
  let padded :=
    if payload.length < minEthPayload then
      payload ++ List.replicate (minEthPayload - payload.length) 0x00
    else payload
  dstMac ++ srcMac ++ toBytes 2 ethertype ++ padded

def buildArpRequest (srcMac : List Byte) (srcIp targetIp : List Char) :
    Except String (List Byte) := do
  let srcIpBytes ← inetAton srcIp
  let targetIpBytes ← inetAton targetIp
  let payload :=
    toBytes 2 (1 : BitVec 16) ++ toBytes 2 (0x0800 : BitVec 16) ++ toBytes 1 (6 : BitVec 8) ++
      toBytes 1 (4 : BitVec 8) ++ toBytes 2 (1 : BitVec 16) ++ srcMac ++ srcIpBytes ++
        List.replicate 6 0x00 ++ targetIpBytes
  return buildFrame broadcastMac srcMac payload arpEthertype

end ArtyEthernet.Host
