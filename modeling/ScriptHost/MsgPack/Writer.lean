import ScriptHost.MsgPack.Basic

set_option autoImplicit false

namespace ScriptHost.MsgPack

/-- The low bytes of a natural, most significant first. -/
def bigEndian : Nat → Nat → List UInt8
  | 0, _ => []
  | width + 1, n => UInt8.ofNat (n / Nat.pow 256 width) :: bigEndian width n

def writeInteger (n : Int) : List UInt8 :=
  if 0 ≤ n then
    let m := n.toNat
    if m < 0x80 then [UInt8.ofNat m]
    else if m < 0x100 then 0xcc :: bigEndian 1 m
    else if m < 0x10000 then 0xcd :: bigEndian 2 m
    else if m < 0x100000000 then 0xce :: bigEndian 4 m
    else 0xcf :: bigEndian 8 m
  else if -0x20 ≤ n then bigEndian 1 (n + 0x100).toNat
  else if -0x80 ≤ n then 0xd0 :: bigEndian 1 (n + 0x100).toNat
  else if -0x8000 ≤ n then 0xd1 :: bigEndian 2 (n + 0x10000).toNat
  else if -0x80000000 ≤ n then 0xd2 :: bigEndian 4 (n + 0x100000000).toNat
  else 0xd3 :: bigEndian 8 (n + 0x10000000000000000).toNat

/-- A length as the heads of documents carry it: thirty-two bits, whatever stands above them. -/
def lengthField (length : Nat) : Nat := length % 0x100000000

/-- The marker and length of a string. -/
def stringHead (length : Nat) : List UInt8 :=
  if length < 32 then [UInt8.ofNat (0xa0 + length)]
  else if length < 0x100 then 0xd9 :: bigEndian 1 length
  else if length < 0x10000 then 0xda :: bigEndian 2 length
  else 0xdb :: bigEndian 4 length

/-- The marker and length of a binary body. -/
def binaryHead (length : Nat) : List UInt8 :=
  if length < 0x100 then 0xc4 :: bigEndian 1 length
  else if length < 0x10000 then 0xc5 :: bigEndian 2 length
  else 0xc6 :: bigEndian 4 length

def arrayHead (length : Nat) : List UInt8 :=
  if length < 16 then [UInt8.ofNat (0x90 + length)]
  else if length < 0x10000 then 0xdc :: bigEndian 2 length
  else 0xdd :: bigEndian 4 length

def mapHead (length : Nat) : List UInt8 :=
  if length < 16 then [UInt8.ofNat (0x80 + length)]
  else if length < 0x10000 then 0xde :: bigEndian 2 length
  else 0xdf :: bigEndian 4 length

/-- The marker and length of an extension; five lengths have markers of their own. -/
def extensionHead (length : Nat) : List UInt8 :=
  if length = 1 then [0xd4]
  else if length = 2 then [0xd5]
  else if length = 4 then [0xd6]
  else if length = 8 then [0xd7]
  else if length = 16 then [0xd8]
  else if length < 0x100 then 0xc7 :: bigEndian 1 length
  else if length < 0x10000 then 0xc8 :: bigEndian 2 length
  else 0xc9 :: bigEndian 4 length

mutual

/-- The bytes of a document: every integer, length and body takes its shortest form. -/
def write : MsgPack → List UInt8
  | nil => [0xc0]
  | bool value => [if value then 0xc3 else 0xc2]
  | integer value => writeInteger value
  | single bits => 0xca :: bigEndian 4 bits.toNat
  | double value => 0xcb :: bigEndian 8 value.bits.toNat
  | string bytes => stringHead (lengthField bytes.length) ++ bytes
  | binary bytes => binaryHead (lengthField bytes.length) ++ bytes
  | array items => arrayHead (lengthField items.length) ++ writeItems items
  | map pairs => mapHead (lengthField pairs.length) ++ writePairs pairs
  | extension type bytes =>
      extensionHead (lengthField bytes.length) ++ UInt8.ofInt type :: bytes

def writeItems : List MsgPack → List UInt8
  | [] => []
  | item :: rest => write item ++ writeItems rest

def writePairs : List (MsgPack × MsgPack) → List UInt8
  | [] => []
  | (key, value) :: rest => write key ++ (write value ++ writePairs rest)

end

end ScriptHost.MsgPack
